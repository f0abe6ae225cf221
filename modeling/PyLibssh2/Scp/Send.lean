import PyLibssh2.Base.Loop
import Mathlib.Data.List.Basic

/-!
# `Session.scp_send_file`

The method announces the size of the file, reads it in blocks of 4096 bytes and writes each block to
the channel.  `Channel.write` says how many bytes libssh2 took, which may be fewer than it was given.

* `sendRound`     one round of `while True`;
* `TakesWhole`    every block is taken whole by the first write that takes anything of it;
* `sendLoop_spec` the loop always ends, and what was sent is the file exactly if `TakesWhole`: after a
  partial write the rest is cut with `buf[written:-1]`, and a rest is shorter than a block, so that
  no further block is read.
-/

set_option linter.unusedSectionVars false
set_option linter.unusedVariables false

namespace PyLibssh2.Scp

open Loop

/-! ## the loop -/

def writeLen : Nat := 4096

/-- `buf[start:-1]` -/
def sliceToLast (start : Nat) (buf : List UInt8) : List UInt8 := (buf.take (buf.length - 1)).drop start

/-- the variables of the loop: the number of writes so far, the buffer, what has not been read of the
file, and what the channel took -/
structure SendState where
  writes : Nat
  buf : List UInt8
  rest : List UInt8
  sent : List UInt8

/-- what `channel.write(buf)` returns for the write number `i`; libssh2 would take `took i` bytes -/
def written (took : Nat → Nat) (i : Nat) (buf : List UInt8) : Nat := min (took i) buf.length

/-- one round of `while True`; the result is what the channel took in all -/
def sendRound (took : Nat → Nat) (s : SendState) : Round SendState (List UInt8) :=
  if 0 < s.buf.length then
    let n := written took s.writes s.buf
    let s' := { s with writes := s.writes + 1, sent := s.sent ++ s.buf.take n }
    if n = 0 then .next s'
    else if n = writeLen then
      -- `buf = f.read(write_len)`
      .next { s' with buf := s.rest.take writeLen, rest := s.rest.drop writeLen }
    else .next { s' with buf := sliceToLast n s.buf }
  else .stop s.sent

def sendStart (content : List UInt8) : SendState :=
  { writes := 0, buf := content.take writeLen, rest := content.drop writeLen, sent := [] }

/-- the size given to `scp_send`: `os.stat(in_file_path).st_size` -/
def announced (content : List UInt8) : Nat := content.length

/-! ## blocks that are taken whole -/

/-- from the write number `i` on, every block of the contents is taken whole by the first write that
takes anything of it -/
inductive TakesWhole (took : Nat → Nat) : Nat → List UInt8 → Prop
  | done (i : Nat) : TakesWhole took i []
  | wait (i : Nat) (c : List UInt8) : took i = 0 → TakesWhole took (i + 1) c → TakesWhole took i c
  | block (i : Nat) (c : List UInt8) : c ≠ [] → (c.take writeLen).length ≤ took i →
    TakesWhole took (i + 1) (c.drop writeLen) → TakesWhole took i c

variable {took : Nat → Nat} {i n : Nat} {c content : List UInt8} {s s' : SendState}

theorem length_take_pos (hc : c ≠ []) : 0 < (c.take writeLen).length := by
  have := List.length_pos_iff.mpr hc
  rw [List.length_take]
  show 0 < min 4096 c.length
  omega

theorem takesWhole_wait (hc : c ≠ []) (h : took i = 0) :
    TakesWhole took i c ↔ TakesWhole took (i + 1) c := by
  constructor
  · intro h1
    cases h1 with
    | done => exact absurd rfl hc
    | wait _ _ _ h2 => exact h2
    | block _ _ _ h2 _ =>
      have := length_take_pos hc
      omega
  · exact TakesWhole.wait i c h

theorem takesWhole_block (hc : c ≠ []) (h : (c.take writeLen).length ≤ took i) :
    TakesWhole took i c ↔ TakesWhole took (i + 1) (c.drop writeLen) := by
  constructor
  · intro h1
    cases h1 with
    | done => exact absurd rfl hc
    | wait _ _ h2 _ =>
      have := length_take_pos hc
      omega
    | block _ _ _ _ h2 => exact h2
  · exact TakesWhole.block i c hc h

theorem not_takesWhole (h0 : took i ≠ 0) (h : took i < (c.take writeLen).length) :
    ¬ TakesWhole took i c := by
  intro h1
  cases h1 with
  | done =>
    rw [List.take_nil] at h
    exact absurd h (Nat.not_lt_zero _)
  | wait _ _ h2 _ => exact h0 h2
  | block _ _ _ h2 _ => omega

/-! ## one round -/

theorem sendRound_stop (h : s.buf = []) : sendRound took s = .stop s.sent := by
  rw [sendRound, h]
  rfl

theorem sendRound_zero (h : 0 < s.buf.length) (h0 : took s.writes = 0) :
    sendRound took s = .next { s with writes := s.writes + 1 } := by
  have hn : written took s.writes s.buf = 0 := by rw [written, h0, Nat.zero_min]
  simp only [sendRound, if_pos h, hn, if_true, List.take_zero, List.append_nil]

theorem sendRound_full (h : 0 < s.buf.length) (hn : written took s.writes s.buf = writeLen) :
    sendRound took s = .next
      { writes := s.writes + 1, buf := s.rest.take writeLen, rest := s.rest.drop writeLen,
        sent := s.sent ++ s.buf.take writeLen } := by
  have hne : writeLen ≠ 0 := by decide
  simp only [sendRound, if_pos h, hn, if_neg hne, if_true]

theorem sendRound_cut (h : 0 < s.buf.length) (h0 : took s.writes ≠ 0)
    (hlt : written took s.writes s.buf ≠ writeLen) :
    sendRound took s = .next
      { s with
        writes := s.writes + 1
        buf := sliceToLast (written took s.writes s.buf) s.buf
        sent := s.sent ++ s.buf.take (written took s.writes s.buf) } := by
  have hn : written took s.writes s.buf ≠ 0 := by
    rw [written]
    omega
  simp only [sendRound, if_pos h, if_neg hn, if_neg hlt]

theorem length_sliceToLast (n : Nat) (buf : List UInt8) :
    (sliceToLast n buf).length = min (buf.length - 1) buf.length - n := by
  rw [sliceToLast, List.length_drop, List.length_take]

/-! ## the invariant -/

/-- nothing has been lost so far: what was sent, the buffer and the unread rest make up the file, and
the buffer is the block to be sent next -/
def Whole (took : Nat → Nat) (content : List UInt8) (s : SendState) : Prop :=
  ∃ c, s.buf = c.take writeLen ∧ s.rest = c.drop writeLen ∧ s.sent ++ c = content ∧
    (TakesWhole took 0 content ↔ TakesWhole took s.writes c)

/-- something has been lost: the rest of a block is in the buffer, without its last byte -/
def Lossy (took : Nat → Nat) (content : List UInt8) (s : SendState) : Prop :=
  s.buf.length < writeLen ∧ s.sent.length + s.buf.length < content.length ∧
    ¬ TakesWhole took 0 content

theorem lossy_next (h : Lossy took content s) (hs : sendRound took s = .next s') :
    Lossy took content s' := by
  obtain ⟨h1, h2, h3⟩ := h
  by_cases hpos : 0 < s.buf.length
  · by_cases h0 : took s.writes = 0
    · rw [sendRound_zero hpos h0] at hs
      cases hs
      exact ⟨h1, h2, h3⟩
    · have hle : written took s.writes s.buf ≤ s.buf.length := Nat.min_le_right _ _
      rw [sendRound_cut hpos h0 (by omega)] at hs
      cases hs
      refine ⟨?_, ?_, h3⟩
      · show (sliceToLast _ s.buf).length < writeLen
        rw [length_sliceToLast]
        omega
      · show (s.sent ++ s.buf.take _).length + (sliceToLast _ s.buf).length < content.length
        rw [length_sliceToLast, List.length_append, List.length_take]
        omega
  · rw [sendRound_stop (List.length_eq_zero_iff.mp (by omega))] at hs
    cases hs

theorem whole_next (h : Whole took content s) (hs : sendRound took s = .next s') :
    Whole took content s' ∨ Lossy took content s' := by
  obtain ⟨c, hb, hr, hc, hiff⟩ := h
  by_cases hpos : 0 < s.buf.length
  · have hne : c ≠ [] := by
      rintro rfl
      rw [hb, List.take_nil] at hpos
      exact absurd hpos (Nat.lt_irrefl 0)
    by_cases h0 : took s.writes = 0
    · rw [sendRound_zero hpos h0] at hs
      cases hs
      exact Or.inl ⟨c, hb, hr, hc, hiff.trans (takesWhole_wait hne h0)⟩
    · by_cases hall : s.buf.length ≤ took s.writes
      · -- the whole block was taken
        have hblock := takesWhole_block (i := s.writes) hne (hb ▸ hall)
        have hsent : s.sent ++ s.buf ++ c.drop writeLen = content := by
          rw [hb, List.append_assoc, List.take_append_drop, hc]
        have hw : written took s.writes s.buf = s.buf.length := Nat.min_eq_right hall
        left
        by_cases hfull : s.buf.length = writeLen
        · rw [sendRound_full hpos (hw.trans hfull), ← hfull, List.take_length, hfull] at hs
          cases hs
          exact ⟨c.drop writeLen, by rw [hr], by rw [hr], hsent, hiff.trans hblock⟩
        · -- a short block is the last one
          have hlast : c.drop writeLen = [] := by
            have h1 : c.length < writeLen := by
              by_contra h2
              apply hfull
              rw [hb, List.length_take]
              omega
            exact List.drop_eq_nil_of_le (Nat.le_of_lt h1)
          rw [sendRound_cut hpos h0 (by rw [hw]; exact hfull), hw] at hs
          cases hs
          refine ⟨[], ?_, ?_, ?_, ?_⟩
          · apply List.length_eq_zero_iff.mp
            show (sliceToLast _ s.buf).length = 0
            rw [length_sliceToLast]
            omega
          · rw [hr, hlast]
            rfl
          · show s.sent ++ s.buf.take s.buf.length ++ [] = content
            rw [List.take_length, ← hlast]
            exact hsent
          · rw [hlast] at hblock
            exact hiff.trans hblock
      · -- a part was taken
        right
        have hw : written took s.writes s.buf = took s.writes := Nat.min_eq_left (by omega)
        have hle : s.buf.length ≤ writeLen := by
          rw [hb]
          exact List.length_take_le _ _
        rw [sendRound_cut hpos h0 (by omega), hw] at hs
        cases hs
        have hlen : s.sent.length + s.buf.length ≤ content.length := by
          rw [← hc, hb, List.length_append, List.length_take]
          omega
        refine ⟨?_, ?_, fun h1 => not_takesWhole h0 ?_ (hiff.mp h1)⟩
        · show (sliceToLast _ s.buf).length < writeLen
          rw [length_sliceToLast]
          omega
        · show (s.sent ++ s.buf.take _).length + (sliceToLast _ s.buf).length < content.length
          rw [length_sliceToLast, List.length_append, List.length_take]
          omega
        · rw [← hb]
          omega
  · rw [sendRound_stop (List.length_eq_zero_iff.mp (by omega))] at hs
    cases hs

theorem whole_start : Whole took content (sendStart content) :=
  ⟨content, rfl, rfl, rfl, Iff.rfl⟩

/-- the buffer and the unread rest shrink with every write that takes something -/
theorem sendRound_measure (hs : sendRound took s = .next s') :
    s'.writes = s.writes + 1 ∧
    s'.buf.length + s'.rest.length ≤ s.buf.length + s.rest.length ∧
    (0 < took s.writes → s'.buf.length + s'.rest.length < s.buf.length + s.rest.length) := by
  by_cases hpos : 0 < s.buf.length
  · by_cases h0 : took s.writes = 0
    · rw [sendRound_zero hpos h0] at hs
      cases hs
      exact ⟨rfl, Nat.le_refl _, fun h1 => by omega⟩
    · have hle : written took s.writes s.buf ≤ s.buf.length := Nat.min_le_right _ _
      have hn : 0 < written took s.writes s.buf := by
        rw [written]
        omega
      by_cases hfull : written took s.writes s.buf = writeLen
      · rw [sendRound_full hpos hfull] at hs
        cases hs
        have hlen : (s.rest.take writeLen).length + (s.rest.drop writeLen).length = s.rest.length := by
          rw [← List.length_append, List.take_append_drop]
        refine ⟨rfl, ?_, fun _ => ?_⟩
        · show (s.rest.take writeLen).length + (s.rest.drop writeLen).length ≤ _
          omega
        · show (s.rest.take writeLen).length + (s.rest.drop writeLen).length < _
          omega
      · rw [sendRound_cut hpos h0 hfull] at hs
        cases hs
        have hlen := length_sliceToLast (written took s.writes s.buf) s.buf
        refine ⟨rfl, ?_, fun _ => ?_⟩
        · show (sliceToLast _ s.buf).length + s.rest.length ≤ _
          omega
        · show (sliceToLast _ s.buf).length + s.rest.length < _
          omega
  · rw [sendRound_stop (List.length_eq_zero_iff.mp (by omega))] at hs
    cases hs

theorem sendLoop_halts (hfair : ∀ i, ∃ j, i ≤ j ∧ 0 < took j) (content : List UInt8) :
    ∃ sent, Halts (sendRound took) (sendStart content) sent :=
  halts_of_ready (fun s => s.buf.length + s.rest.length) SendState.writes (fun j => 0 < took j) hfair
    (fun _ => True) (fun s s' _ hs => ⟨trivial, sendRound_measure hs⟩) trivial

theorem sendLoop_result {sent : List UInt8} (h : Halts (sendRound took) (sendStart content) sent) :
    sent = content ↔ TakesWhole took 0 content := by
  refine Halts.inv (fun s => Whole took content s ∨ Lossy took content s)
    (fun sent => sent = content ↔ TakesWhole took 0 content) ?_ ?_ (Or.inl whole_start) h
  · rintro s s' (hI | hI) hs
    · exact whole_next hI hs
    · exact Or.inr (lossy_next hI hs)
  · intro s r hI hs
    have hbuf : s.buf = [] := by
      by_contra hne
      have hpos := List.length_pos_iff.mpr hne
      rw [sendRound, if_pos hpos] at hs
      simp only at hs
      split at hs
      · cases hs
      · split at hs <;> cases hs
    rw [sendRound_stop hbuf] at hs
    cases hs
    rcases hI with ⟨c, hb, _, hc, hiff⟩ | ⟨_, h2, h3⟩
    · have hnil : c = [] := by
        by_contra hne
        have := length_take_pos hne
        rw [← hb, hbuf] at this
        exact absurd this (Nat.lt_irrefl 0)
      rw [hnil, List.append_nil] at hc
      rw [hiff, hnil]
      exact ⟨fun _ => TakesWhole.done _, fun _ => hc⟩
    · refine ⟨fun h4 => ?_, fun h4 => absurd h4 h3⟩
      rw [h4] at h2
      omega

/-- **The send loop.**  It ends whatever the channel takes, and the channel has taken the file exactly
if every block was taken whole. -/
theorem sendLoop_spec (hfair : ∀ i, ∃ j, i ≤ j ∧ 0 < took j) (content : List UInt8) :
    ∃ sent, Halts (sendRound took) (sendStart content) sent ∧
      ((sent = content ∧ sent.length = announced content) ↔ TakesWhole took 0 content) := by
  obtain ⟨sent, h⟩ := sendLoop_halts hfair content
  refine ⟨sent, h, ?_⟩
  rw [← sendLoop_result h]
  exact ⟨fun h1 => h1.1, fun h1 => ⟨h1, congrArg List.length h1⟩⟩

/-- two bytes, of which libssh2 takes one at a time -/
theorem sendLoop_spec_two : ∃ sent, Halts (sendRound fun _ => 1) (sendStart [7, 8]) sent ∧
    ((sent = [7, 8] ∧ sent.length = announced [7, 8]) ↔ TakesWhole (fun _ => 1) 0 [7, 8]) :=
  sendLoop_spec (fun i => ⟨i, Nat.le_refl i, Nat.zero_lt_one⟩) [7, 8]

/-- the second byte is lost -/
theorem sendLoop_loses : ¬ ∀ (took : Nat → Nat) (content : List UInt8),
    (∀ i, ∃ j, i ≤ j ∧ 0 < took j) →
    ∃ sent, Halts (sendRound took) (sendStart content) sent ∧ sent = content := by
  intro hall
  obtain ⟨sent, h, hsent⟩ := hall (fun _ => 1) [7, 8] fun i => ⟨i, Nat.le_refl i, Nat.zero_lt_one⟩
  have h1 : Halts (sendRound fun _ => 1) (sendStart [7, 8]) [7] := ⟨2, by decide⟩
  rw [hsent] at h
  exact absurd (h.unique h1) (by decide)

end PyLibssh2.Scp

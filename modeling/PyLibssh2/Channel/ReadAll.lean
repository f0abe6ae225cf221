import PyLibssh2.Base.Pieces
import PyLibssh2.Channel.Read

/-!
# Reading to the end

`Channel.read(-1)` and `SftpFile.read(-1)` read until a read gives nothing.  An exception and `None` are
nothing too, so neither method raises.

* `channelReadRound`      one round of `while True` in `Channel.read`; `readRound` is the one in
  `SftpFile.read`;
* `readAll_complete_iff`  when they return the whole stream.
-/

set_option linter.unusedSectionVars false
set_option linter.unusedVariables false

namespace PyLibssh2.Remote

open Loop Pieces

/-! ## the remote side of a channel -/

inductive ReadReply
  /-- up to `m + 1` bytes, and none only at the end of the stream -/
  | data (m : Nat)
  /-- the code `-(k + 1)` -/
  | fails (k : Nat)
  deriving DecidableEq

def ReadReply.offers : ReadReply → Nat
  | .data m => m + 1
  | .fails _ => 0

/-- what libssh2 answers to the reads of a channel: `flag i` is the value of `libssh2_channel_eof` before
the read number `i` if nothing is left of the stream -/
structure Peer where
  flag : Nat → Int
  reply : Nat → ReadReply
  lastError : Nat → Int × String

/-- the channel at the read number `i`, with `rest` left of the stream -/
def Peer.source (peer : Peer) (i : Nat) (rest : List UInt8) : Source where
  eof := if rest = [] then peer.flag i else 0
  read _ size :=
    match peer.reply i with
    | .data m => .data (rest.take (min (m + 1) size))
    | .fails k => .fails k
  fits stream size := by
    cases peer.reply i with
    | data m =>
      show (rest.take (min (m + 1) size)).length ≤ size
      rw [List.length_take]
      omega
    | fails k => exact Nat.zero_le _
  lastError := peer.lastError i

/-! ## the loop -/

def bufferSize : Nat := 1024

/-- one round of `while True` in `Channel.read` -/
def channelReadRound (peer : Peer) (st : ReadState) : Round ReadState (List UInt8) :=
  let newBuf := match channelRead true (peer.source st.reads st.rest) bufferSize with
    | .ok v => v.bytes
    | .error _ => []
  if 0 < newBuf.length then
    .next ⟨st.reads + 1, st.buf ++ newBuf, st.rest.drop newBuf.length⟩
  else .stop st.buf

variable {peer : Peer} {answer : Nat → Option Nat} {content rest : List UInt8} {i : Nat}

/-- the variables of either loop as those of a reader of a stream -/
def ReadState.view (st : ReadState) : State UInt8 := ⟨st.reads, st.buf, st.rest⟩

theorem newBuf_eq (peer : Peer) (i : Nat) (rest : List UInt8) :
    (match channelRead true (peer.source i rest) bufferSize with
      | .ok v => v.bytes
      | .error _ => []) =
    rest.take (count bufferSize (peer.reply i).offers rest.length) := by
  have hs : ¬ INT_MAX < bufferSize := by decide
  by_cases heof : (peer.source i rest).eof = 1
  · -- the flag is only looked at when nothing is left
    have hrest : rest = [] := by
      by_contra hne
      have h1 : (if rest = [] then peer.flag i else 0) = 1 := heof
      rw [if_neg hne] at h1
      exact absurd h1 (by decide)
    rw [channelRead_eof hs heof, hrest, List.take_nil]
    rfl
  · rw [channelRead_read hs heof]
    cases hr : peer.reply i with
    | data m =>
      have hread : (peer.source i rest).read 0 bufferSize =
          .data (rest.take (min (m + 1) bufferSize)) := by simp only [Peer.source, hr]
      have hrc : 0 ≤ (Received.data (rest.take (min (m + 1) bufferSize))).rc := Int.natCast_nonneg _
      rw [hread, if_pos hrc]
      apply List.take_eq_take_iff.mpr
      show min (min (m + 1) bufferSize) rest.length =
        min (min (m + 1) (min bufferSize rest.length)) rest.length
      omega
    | fails k =>
      have hread : (peer.source i rest).read 0 bufferSize = .fails k := by
        simp only [Peer.source, hr]
      have hrc : ¬ 0 ≤ (Received.fails k).rc := by
        show ¬ (0 : Int) ≤ -(k + 1)
        omega
      have h0 : count bufferSize (ReadReply.fails k).offers rest.length = 0 := Nat.zero_min _
      rw [hread, if_neg hrc, h0, List.take_zero]

theorem channelReadRound_eq (peer : Peer) (i : Nat) (buf rest : List UInt8) :
    channelReadRound peer ⟨i, buf, rest⟩ =
      if 0 < count bufferSize (peer.reply i).offers rest.length then
        .next ⟨i + 1, buf ++ rest.take (count bufferSize (peer.reply i).offers rest.length),
          rest.drop (count bufferSize (peer.reply i).offers rest.length)⟩
      else .stop buf := by
  have hlen : (rest.take (count bufferSize (peer.reply i).offers rest.length)).length =
      count bufferSize (peer.reply i).offers rest.length := by
    rw [List.length_take]
    exact min_eq_left (count_le _ _ _).2
  simp only [channelReadRound, newBuf_eq, hlen]

theorem drains_channelRead (peer : Peer) : Drains (fun i => (peer.reply i).offers) bufferSize
    (channelReadRound peer) ReadState.view id := by
  constructor
  · intro st h0
    have h : count bufferSize (peer.reply st.reads).offers st.rest.length = 0 := h0
    exact ⟨st.buf, by rw [channelReadRound_eq, if_neg (by omega)], rfl⟩
  · intro st hpos
    have h : 0 < count bufferSize (peer.reply st.reads).offers st.rest.length := hpos
    exact ⟨_, by rw [channelReadRound_eq, if_pos h], rfl⟩

theorem drains_fileRead (answer : Nat → Option Nat) :
    Drains (fun i => (answer i).getD 0) bufferMaxlen (readRound answer) ReadState.view id := by
  constructor
  · intro st h0
    have h : readLen answer st.reads st.rest.length = 0 := h0
    exact ⟨st.buf, by rw [readRound_eq, if_pos h], rfl⟩
  · intro st hpos
    have h : 0 < readLen answer st.reads st.rest.length := hpos
    exact ⟨_, by rw [readRound_eq, if_neg (by omega)], rfl⟩

/-! ## the result -/

theorem offers_pos {r : ReadReply} : 0 < r.offers ↔ ∃ m, r = .data m := by
  cases r with
  | data m => exact ⟨fun _ => ⟨m, rfl⟩, fun _ => Nat.succ_pos m⟩
  | fails k =>
    constructor
    · intro h
      exact absurd h (Nat.lt_irrefl 0)
    · rintro ⟨m, hm⟩
      cases hm

theorem getD_pos {o : Option Nat} : 0 < o.getD 0 ↔ ∃ m, o = some (m + 1) := by
  cases o with
  | none =>
    constructor
    · intro h
      exact absurd h (Nat.lt_irrefl 0)
    · rintro ⟨m, hm⟩
      cases hm
  | some n =>
    constructor
    · intro h
      exact ⟨n - 1, congrArg some (Nat.succ_pred_eq_of_pos h).symm⟩
    · rintro ⟨m, hm⟩
      rw [hm]
      exact Nat.succ_pos m

/-- **When reading to the end gives the whole stream.**  Both methods return whatever the answers are;
what they return is the stream exactly if no read that is made before its end fails. -/
theorem readAll_complete_iff (peer : Peer) (answer : Nat → Option Nat) (content : List UInt8) :
    ((∃ b, Halts (channelReadRound peer) ⟨0, [], content⟩ b) ∧
      ∀ b, Halts (channelReadRound peer) ⟨0, [], content⟩ b →
        (b = content ↔ ∀ j, pos (fun i => (peer.reply i).offers) bufferSize content.length j <
          content.length → ∃ m, peer.reply j = .data m)) ∧
    ((∃ b, Halts (readRound answer) ⟨0, [], content⟩ b) ∧
      ∀ b, Halts (readRound answer) ⟨0, [], content⟩ b →
        (b = content ↔ ∀ j, pos (fun i => (answer i).getD 0) bufferMaxlen content.length j <
          content.length → ∃ m, answer j = some (m + 1))) := by
  let start : ReadState := ⟨0, [], content⟩
  have hview : start.view = ⟨0, [], content⟩ := rfl
  obtain ⟨h1, h2⟩ := (drains_channelRead peer).result (by decide) hview
  obtain ⟨h3, h4⟩ := (drains_fileRead answer).result (by decide) hview
  simp only [offers_pos] at h2
  simp only [getD_pos] at h4
  exact ⟨⟨h1, h2⟩, h3, h4⟩

def broken : Peer where
  flag _ := 0
  reply i := if i = 0 then .data 0 else .fails 42
  lastError _ := (-43, "")

/-- the first byte of two is returned as if it were all -/
theorem readAll_truncates :
    (¬ ∀ (peer : Peer) (content b : List UInt8),
      Halts (channelReadRound peer) ⟨0, [], content⟩ b → b = content) ∧
    ¬ ∀ (answer : Nat → Option Nat) (content b : List UInt8), (∀ i m, answer i = some m → 1 ≤ m) →
      Halts (readRound answer) ⟨0, [], content⟩ b → b = content := by
  constructor
  · intro hall
    have h := hall broken [1, 2] [1] ⟨2, by decide⟩
    exact absurd h (by decide)
  · intro hall
    have h := hall (fun i => if i = 0 then some 1 else none) [1, 2] [1] (fun i m hm => ?_)
      ⟨2, by decide⟩
    · exact absurd h (by decide)
    · by_cases hi : i = 0
      · rw [if_pos hi] at hm
        exact Nat.le_of_eq (Option.some.inj hm)
      · rw [if_neg hi] at hm
        cases hm

end PyLibssh2.Remote

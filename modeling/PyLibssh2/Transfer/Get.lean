import PyLibssh2.Channel.ReadAll
import PyLibssh2.Ext.Own
import PyLibssh2.Transfer.Opened

/-!
# `Sftp.get`

The helper opens the remote file, then the local one, and copies blocks of 4096 bytes until a read gives
nothing.  `Sftpfile.read` returns `None` when libssh2 reports an error.

* `getRound`          one round: the opens, one pass of `while read_buffer`, or the closes;
* `GetEnds`           the ways the helper ends, with what it leaves open and what it has written;
* `get_complete_iff`  when a `get` that returns has the whole file: an error of a read ends it like the
  end of the file.
-/

set_option linter.unusedSectionVars false
set_option linter.unusedVariables false

namespace PyLibssh2.Transfer

open Loop Pieces World Remote

/-! ## the helper -/

def BUFFER_SIZE : Nat := 4096

/-- what `libssh2_sftp_read` returns -/
def readRc (r : ReadReply) (size : Nat) (left : List UInt8) : Int :=
  match r with
  | .data m => count size (m + 1) left.length
  | .fails k => -(k + 1)

/-- what the calls of `get` meet: which of those on the local file succeed, and the answers of libssh2 -/
structure GetEnv where
  openSrc : Answer
  openDst : Bool
  read : Nat → ReadReply
  write : Nat → Bool
  closeDst : Bool

/-- the variables of the loop: the extension module, `src_file`, the reads and the writes so far,
`read_buffer`, the local file, and what has not been read of the remote one -/
structure GetVars where
  world : World
  src : Ref
  reads : Nat
  writes : Nat
  readBuffer : Option (List UInt8)
  file : List UInt8
  left : List UInt8

inductive GetState
  | entry (W : World)
  | loop (v : GetVars)

structure GetEnd where
  world : World
  raised : Option Raised
  file : List UInt8

/-- the variables after a read; a negative code gives `None` -/
def GetVars.fetched (env : GetEnv) (v : GetVars) (W : World) : GetVars :=
  let rc := readRc (env.read v.reads) BUFFER_SIZE v.left
  { v with
    world := W
    reads := v.reads + 1
    readBuffer := if 0 ≤ rc then some (v.left.take rc.toNat) else none
    left := v.left.drop rc.toNat }

/-- `read_buffer = src_file.read(BUFFER_SIZE)` -/
def getRead (env : GetEnv) (v : GetVars) : Round GetState GetEnd :=
  match Sftpfile.read v.src (readRc (env.read v.reads) BUFFER_SIZE v.left) v.world with
  | (W, .raised e) => .stop ⟨leave v.src W, some (.module e), v.file⟩
  | (W, _) => .next (.loop (v.fetched env W))

/-- the bytes of `read_buffer`; it is true if there are any -/
def GetVars.buffer (v : GetVars) : List UInt8 := v.readBuffer.getD []

/-- `Sftp.get`, on a remote file that holds `content` -/
def getRound (f : Ref) (env : GetEnv) (content : List UInt8) : GetState → Round GetState GetEnd
  | .entry W =>
    match Sftp.openFile f env.openSrc W with
    | (W, .obj x) =>
      if env.openDst then getRead env ⟨W, x, 0, 0, none, [], content⟩
      else .stop ⟨leave x W, some .environment, []⟩
    | (W, r) => .stop ⟨W, raisedBy r, []⟩
  | .loop v =>
    if v.buffer ≠ [] then
      -- `dst_file.write(read_buffer)`
      if env.write v.writes then
        getRead env { v with writes := v.writes + 1, file := v.file ++ v.buffer }
      else .stop ⟨leave v.src v.world, some .environment, v.file⟩
    else
      -- `dst_file.close()`
      if env.closeDst then
        match Sftp.closeFile f v.src v.world with
        | (W, r) => .stop ⟨leave v.src W, raisedBy r, v.file⟩
      else .stop ⟨leave v.src v.world, some .environment, v.file⟩

variable {f : Ref} {env : GetEnv} {content : List UInt8} {W V : World} {v : GetVars} {r : GetEnd}
  {st : GetState} {i j : Nat}

/-! ## the reads -/

def GetEnv.give (env : GetEnv) (i : Nat) : Nat := (env.read i).offers

def GetEnv.pos (env : GetEnv) (total i : Nat) : Nat := Pieces.pos env.give BUFFER_SIZE total i

def GetEnv.given (env : GetEnv) (total i : Nat) : Nat :=
  count BUFFER_SIZE (env.give i) (total - env.pos total i)

theorem GetEnv.pos_succ (env : GetEnv) (total i : Nat) :
    env.pos total (i + 1) = env.pos total i + env.given total i := rfl

theorem readRc_toNat (r : ReadReply) (size : Nat) (left : List UInt8) :
    (readRc r size left).toNat = count size r.offers left.length := by
  cases r with
  | data m => exact Int.toNat_natCast _
  | fails k =>
    have h1 : (readRc (.fails k) size left).toNat = 0 := by
      show (-((k : Int) + 1)).toNat = 0
      omega
    rw [h1]
    exact (Nat.zero_min _).symm

theorem getRead_next {pre post : PySet} (env : GetEnv) (h : Holding f .file v.src pre post v.world) :
    ∃ W', OnlyCalls v.world W' ∧ getRead env v = .next (.loop (v.fetched env W')) := by
  obtain ⟨W', hw, hread⟩ := h.sftpRead (readRc (env.read v.reads) BUFFER_SIZE v.left)
  exact ⟨W', hw, by rw [getRead, hread]⟩

theorem fetched_left (hleft : v.left = content.drop (env.pos content.length v.reads)) :
    (v.fetched env V).left = content.drop (env.pos content.length (v.reads + 1)) := by
  show v.left.drop (readRc (env.read v.reads) BUFFER_SIZE v.left).toNat = _
  rw [readRc_toNat, hleft, List.drop_drop, List.length_drop]
  rfl

theorem fetched_buffer (hleft : v.left = content.drop (env.pos content.length v.reads)) :
    (v.fetched env V).buffer = (content.drop (env.pos content.length v.reads)).take
      (env.given content.length v.reads) := by
  have hlen : (readRc (env.read v.reads) BUFFER_SIZE v.left).toNat =
      env.given content.length v.reads := by
    rw [readRc_toNat, hleft, List.length_drop]
    rfl
  show (if 0 ≤ readRc (env.read v.reads) BUFFER_SIZE v.left then
    some (v.left.take (readRc (env.read v.reads) BUFFER_SIZE v.left).toNat) else none).getD [] = _
  rw [hlen, hleft]
  by_cases h : 0 ≤ readRc (env.read v.reads) BUFFER_SIZE v.left
  · rw [← hleft, if_pos h]
    rfl
  · have h0 : env.given content.length v.reads = 0 := by omega
    rw [← hleft, if_neg h, h0, List.take_zero]
    rfl

/-! ## the invariant -/

/-- what holds while `get` works: one block has been read that is not written yet -/
structure Getting (f : Ref) (env : GetEnv) (content : List UInt8) (W : World) (v : GetVars) : Prop where
  work : Working f v.src W v.world
  reads : v.reads = v.writes + 1
  written : ∀ j < v.writes, 0 < env.given content.length j ∧ env.write j = true
  file : v.file = content.take (env.pos content.length v.writes)
  buffer : v.buffer = (content.drop (env.pos content.length v.writes)).take
    (env.given content.length v.writes)
  left : v.left = content.drop (env.pos content.length v.reads)

theorem Getting.length_buffer (h : Getting f env content W v) :
    v.buffer.length = env.given content.length v.writes := by
  rw [h.buffer, List.length_take, List.length_drop]
  exact min_eq_left (count_le _ _ _).2

theorem Getting.buffer_ne_nil (h : Getting f env content W v) :
    v.buffer ≠ [] ↔ 0 < env.given content.length v.writes := by
  rw [← h.length_buffer, List.length_pos_iff]

inductive GetEnds (f : Ref) (env : GetEnv) (content : List UInt8) (W : World) (r : GetEnd) : Prop
  | refused : FileRefused f env.openSrc W → r.raised ≠ none → r.world.reg = W.reg →
      GetEnds f env content W r
  | noLocal : ¬ FileRefused f env.openSrc W → env.openDst = false → r.raised ≠ none →
      Leaked f .file W r.world → GetEnds f env content W r
  | failed (i : Nat) : ¬ FileRefused f env.openSrc W → env.openDst = true →
      Flows env.give BUFFER_SIZE content.length i → env.write i = false → r.raised ≠ none →
      Leaked f .file W r.world → GetEnds f env content W r
  | unclosed : ¬ FileRefused f env.openSrc W → env.openDst = true → env.closeDst = false →
      r.raised ≠ none → Leaked f .file W r.world → GetEnds f env content W r
  | done (i : Nat) : ¬ FileRefused f env.openSrc W → env.openDst = true →
      env.closeDst = true → (∀ j < i, 0 < env.given content.length j ∧ env.write j = true) →
      env.given content.length i = 0 → r.raised = none →
      r.file = content.take (env.pos content.length i) → r.world.reg = W.reg →
      GetEnds f env content W r

def GetInv (f : Ref) (env : GetEnv) (content : List UInt8) (W : World) : GetState → Prop
  | .entry V => V = W
  | .loop v => ¬ FileRefused f env.openSrc W ∧ env.openDst = true ∧
      Getting f env content W v

/-- the bytes that have been read or are still to be read and are not written yet -/
def GetState.rest (content : List UInt8) : GetState → Nat
  | .entry _ => content.length + 1
  | .loop v => v.buffer.length + v.left.length

/-! ## one round -/

theorem getting_fetched (env : GetEnv) (content : List UInt8)
    (hwork : Working f v.src W v.world) (hreads : v.reads = v.writes)
    (hwritten : ∀ j < v.writes, 0 < env.given content.length j ∧ env.write j = true)
    (hfile : v.file = content.take (env.pos content.length v.writes))
    (hleft : v.left = content.drop (env.pos content.length v.reads)) :
    ∃ v', getRead env v = .next (.loop v') ∧ Getting f env content W v' ∧
      v'.buffer.length + v'.left.length = v.left.length := by
  obtain ⟨V, hw, hread⟩ := getRead_next env hwork.added.held
  have hbuf := fetched_buffer (V := V) hleft
  have hl := fetched_left (V := V) hleft
  refine ⟨_, hread, ⟨hwork.calls hw, ?_, hwritten, hfile, ?_, hl⟩, ?_⟩
  · show v.reads + 1 = v.writes + 1
    rw [hreads]
  · rw [hbuf, hreads]
    rfl
  · rw [hbuf, hl, hleft, List.length_take, List.length_drop, List.length_drop, env.pos_succ]
    have hle := (count_le BUFFER_SIZE (env.give v.reads)
      (content.length - env.pos content.length v.reads)).2
    have hg : env.given content.length v.reads ≤ content.length - env.pos content.length v.reads := hle
    omega

theorem get_entry (hy : Young W) :
    (∃ st, getRound f env content (.entry W) = .next st ∧ GetInv f env content W st ∧
      st.rest content < (GetState.entry W).rest content) ∨
    ∃ r, getRound f env content (.entry W) = .stop r ∧ GetEnds f env content W r := by
  rcases openFile_cases hy f env.openSrc with ⟨W', e, h1, h2, hr⟩ | ⟨W', x, h1, h2, hno⟩
  · refine Or.inr ⟨⟨W', some (.module e), []⟩, by simp only [getRound, h1]; rfl, ?_⟩
    exact .refused hr (Option.some_ne_none _) h2.reg
  · have hsftp := sftp_of_not_refused hno
    cases hd : env.openDst with
    | false =>
      refine Or.inr ⟨⟨leave x W', some .environment, []⟩, by simp only [getRound, h1, hd]; rfl, ?_⟩
      exact .noLocal hno hd (Option.some_ne_none _)
        (Working.of_open h2 hsftp).leaked
    | true =>
      obtain ⟨v', hr, hv', hlen⟩ := getting_fetched (v := ⟨W', x, 0, 0, none, [], content⟩) env content
        (Working.of_open h2 hsftp) rfl (fun j hj => absurd hj (Nat.not_lt_zero j)) rfl rfl
      have hI : GetInv f env content W (.loop v') := ⟨hno, hd, hv'⟩
      refine Or.inl ⟨_, ?_, hI, ?_⟩
      · simp only [getRound, h1, hd, if_true]
        exact hr
      · show v'.buffer.length + v'.left.length < content.length + 1
        rw [hlen]
        exact Nat.lt_succ_self _

theorem get_loop (hno : ¬ FileRefused f env.openSrc W) (hd : env.openDst = true)
    (h : Getting f env content W v) :
    (∃ st, getRound f env content (.loop v) = .next st ∧ GetInv f env content W st ∧
      st.rest content < (GetState.loop v).rest content) ∨
    ∃ r, getRound f env content (.loop v) = .stop r ∧ GetEnds f env content W r := by
  have hleak := h.work.leaked
  by_cases hbuf : v.buffer ≠ []
  · have hpos := h.buffer_ne_nil.mp hbuf
    cases hwr : env.write v.writes with
    | false =>
      refine Or.inr ⟨⟨leave v.src v.world, some .environment, v.file⟩, ?_, ?_⟩
      · simp only [getRound, if_pos hbuf, hwr]
        rfl
      · refine .failed v.writes hno hd (fun j hj => ?_) hwr (Option.some_ne_none _) hleak
        rcases Nat.lt_or_eq_of_le hj with h1 | h1
        · exact (h.written j h1).1
        · rw [h1]
          exact hpos
    | true =>
      have hwritten : ∀ j < v.writes + 1, 0 < env.given content.length j ∧ env.write j = true := by
        intro j hj
        rcases Nat.lt_succ_iff_lt_or_eq.mp hj with h1 | h1
        · exact h.written j h1
        · rw [h1]
          exact ⟨hpos, hwr⟩
      have hfile : v.file ++ v.buffer = content.take (env.pos content.length (v.writes + 1)) := by
        rw [h.file, h.buffer, env.pos_succ, List.take_add]
      obtain ⟨v', hr, hv', hlen⟩ := getting_fetched
        (v := { v with writes := v.writes + 1, file := v.file ++ v.buffer }) env content
        h.work h.reads hwritten hfile h.left
      have hI : GetInv f env content W (.loop v') := ⟨hno, hd, hv'⟩
      refine Or.inl ⟨_, ?_, hI, ?_⟩
      · simp only [getRound, if_pos hbuf, hwr, if_true]
        exact hr
      · have := List.length_pos_iff.mpr hbuf
        show v'.buffer.length + v'.left.length < v.buffer.length + v.left.length
        rw [hlen]
        show v.left.length < v.buffer.length + v.left.length
        omega
  · have h0 : env.given content.length v.writes = 0 := by
      have := mt h.buffer_ne_nil.mpr hbuf
      omega
    cases hcl : env.closeDst with
    | false =>
      refine Or.inr ⟨⟨leave v.src v.world, some .environment, v.file⟩, ?_, ?_⟩
      · simp only [getRound, if_neg hbuf, hcl]
        rfl
      · exact .unclosed hno hd hcl (Option.some_ne_none _) hleak
    | true =>
      obtain ⟨W', hclose, hreg⟩ := h.work.close
      refine Or.inr ⟨⟨leave v.src W', none, v.file⟩, ?_, ?_⟩
      · simp only [getRound, if_neg hbuf, hcl, if_true, hclose]
        rfl
      · exact .done v.writes hno hd hcl h.written h0 rfl h.file hreg

theorem get_round (hy : Young W) (h : GetInv f env content W st) :
    (∃ st', getRound f env content st = .next st' ∧ GetInv f env content W st' ∧
      st'.rest content < st.rest content) ∨
    ∃ r, getRound f env content st = .stop r ∧ GetEnds f env content W r := by
  cases st with
  | entry V =>
    have hV : V = W := h
    rw [hV]
    exact get_entry hy
  | loop v => exact get_loop h.1 h.2.1 h.2.2

theorem get_ends (hy : Young W) (f : Ref) (env : GetEnv) (content : List UInt8) :
    (∃ r, Halts (getRound f env content) (.entry W) r) ∧
    ∀ r, Halts (getRound f env content) (.entry W) r → GetEnds f env content W r := by
  have h0 : GetInv f env content W (.entry W) := rfl
  exact halts_of_rounds (GetState.rest content) (GetInv f env content W) (GetEnds f env content W)
    (fun s hI => get_round hy hI) h0

/-! ## what it leaves -/

/-- a write that is made fails: the write number `i` is made if all reads up to this number give data
before the end of the file -/
def GetEnv.WriteFails (env : GetEnv) (total : Nat) : Prop :=
  ∃ i, env.pos total i < total ∧ (∀ j ≤ i, ∃ m, env.read j = .data m) ∧ env.write i = false

theorem writeFails_iff {total : Nat} : env.WriteFails total ↔
    ∃ i, Flows env.give BUFFER_SIZE total i ∧ env.write i = false := by
  unfold GetEnv.WriteFails
  apply exists_congr
  intro i
  rw [flows_iff (by decide), and_assoc]
  have hgive : ∀ j, 0 < env.give j ↔ ∃ m, env.read j = .data m := fun j => offers_pos
  simp only [hgive]
  rfl

theorem not_writeFails {total : Nat}
    (hw : ∀ j < i, 0 < env.given total j ∧ env.write j = true) (h0 : env.given total i = 0) :
    ¬ env.WriteFails total := by
  intro hex
  obtain ⟨j, hj, hfail⟩ := writeFails_iff.mp hex
  rcases Nat.lt_or_ge j i with h1 | h1
  · rw [(hw j h1).2] at hfail
    cases hfail
  · have h2 : 0 < env.given total i := hj i h1
    omega

/-- the blocks written when the loop ends are the file exactly if no read failed before its end -/
theorem taken_eq_iff (hw : ∀ j < i, 0 < env.given content.length j ∧ env.write j = true)
    (h0 : env.given content.length i = 0) : content.take (env.pos content.length i) = content ↔
      ∀ j, env.pos content.length j < content.length → ∃ m, env.read j = .data m := by
  have hread : Reading env.give BUFFER_SIZE content
      ⟨i, content.take (env.pos content.length i), content.drop (env.pos content.length i)⟩ :=
    ⟨rfl, rfl, fun j hj => ((count_pos (by decide)).mp (hw j hj).1).1⟩
  have hiff := hread.complete_iff (by decide) (hread.next_eq.trans h0)
  rw [hiff]
  exact forall_congr' fun j => imp_congr_right fun _ => offers_pos

theorem GetEnds.complete_iff (h : GetEnds f env content W r) : (r.raised ≠ none ∨ r.file = content) ↔
    FileRefused f env.openSrc W ∨ env.openDst = false ∨ env.closeDst = false ∨
      env.WriteFails content.length ∨
      ∀ j, env.pos content.length j < content.length → ∃ m, env.read j = .data m := by
  cases h with
  | refused h1 h2 _ => exact ⟨fun _ => Or.inl h1, fun _ => Or.inl h2⟩
  | noLocal _ h1 h2 _ => exact ⟨fun _ => Or.inr (Or.inl h1), fun _ => Or.inl h2⟩
  | failed i _ _ h1 h2 h3 _ =>
    exact ⟨fun _ => Or.inr (Or.inr (Or.inr (Or.inl (writeFails_iff.mpr ⟨i, h1, h2⟩)))), fun _ => Or.inl h3⟩
  | unclosed _ _ h1 h2 _ => exact ⟨fun _ => Or.inr (Or.inr (Or.inl h1)), fun _ => Or.inl h2⟩
  | done i hno hd hcl hw h0 hret hfile _ =>
    rw [hret, hfile, taken_eq_iff hw h0]
    constructor
    · intro h
      exact Or.inr (Or.inr (Or.inr (Or.inr (h.resolve_left fun h1 => h1 rfl))))
    · intro hcase
      rcases hcase with h | h | h | h | h
      · exact absurd h hno
      · rw [hd] at h
        cases h
      · rw [hcl] at h
        cases h
      · exact absurd h (not_writeFails hw h0)
      · exact Or.inr h

theorem GetEnds.sets (h : GetEnds f env content W r) (s : Ref) : SameSets s f W r.world ↔
    FileRefused f env.openSrc W ∨
      (env.openDst = true ∧ env.closeDst = true ∧ ¬ env.WriteFails content.length) := by
  apply sameSets_iff (Or.inr ⟨rfl, rfl⟩)
  cases h with
  | refused h1 _ hreg => exact Or.inl ⟨hreg, Or.inl h1⟩
  | noLocal hno h1 _ hleak =>
    refine Or.inr ⟨hleak, fun h => ?_⟩
    rw [(h.resolve_left hno).1] at h1
    cases h1
  | failed i hno _ h1 h2 _ hleak =>
    exact Or.inr ⟨hleak, fun h => (h.resolve_left hno).2.2 (writeFails_iff.mpr ⟨i, h1, h2⟩)⟩
  | unclosed hno _ h1 _ hleak =>
    refine Or.inr ⟨hleak, fun h => ?_⟩
    rw [(h.resolve_left hno).2.1] at h1
    cases h1
  | done i hno hd hcl hw h0 _ _ hreg => exact Or.inl ⟨hreg, Or.inr ⟨hd, hcl, not_writeFails hw h0⟩⟩

/-- **When a download is complete or raises.**  A read that fails before the end of the file ends the
loop, and the helper returns. -/
theorem get_complete_iff {as : List Act} (hr : Trans.Run Step World.empty as W) (f : Ref) (env : GetEnv)
    (content : List UInt8) :
    (∃ r, Halts (getRound f env content) (.entry W) r) ∧
    ∀ r, Halts (getRound f env content) (.entry W) r →
      ((r.raised ≠ none ∨ r.file = content) ↔
        FileRefused f env.openSrc W ∨ env.openDst = false ∨ env.closeDst = false ∨
        env.WriteFails content.length ∨
        ∀ j, env.pos content.length j < content.length → ∃ m, env.read j = .data m) := by
  obtain ⟨h1, h2⟩ := get_ends (young_run hr) f env content
  exact ⟨h1, fun r h => (h2 r h).complete_iff⟩

/-! ### a file of two bytes -/

theorem withSftp_opens (n : Nat) : ¬ FileRefused 3 (answer n) withSftp := by
  intro h
  rcases h with h | h | h
  · cases h
  · cases h
  · cases h

def byteByByte : GetEnv := ⟨answer 2, true, fun _ => .data 0, fun _ => true, true⟩

theorem get_complete_iff_two : ∃ r, Halts (getRound 3 byteByByte [1, 2]) (.entry withSftp) r ∧
    (r.raised ≠ none ∨ r.file = [1, 2]) := by
  obtain ⟨as, hr⟩ := withSftp_run
  obtain ⟨⟨r, h1⟩, h2⟩ := get_complete_iff hr 3 byteByByte [1, 2]
  exact ⟨r, h1, (h2 r h1).mpr (Or.inr (Or.inr (Or.inr (Or.inr fun j _ => ⟨0, rfl⟩))))⟩

def lostAfterOne : GetEnv :=
  ⟨answer 2, true, fun i => if i = 0 then .data 0 else .fails 42, fun _ => true, true⟩

/-- the truncated file is reported as complete -/
theorem get_truncates : ¬ ∀ (as : List Act) (W : World) (f : Ref) (env : GetEnv)
    (content : List UInt8) (r : GetEnd), Trans.Run Step World.empty as W →
    Halts (getRound f env content) (.entry W) r → r.raised ≠ none ∨ r.file = content := by
  intro hall
  obtain ⟨as, hr⟩ := withSftp_run
  obtain ⟨⟨r, h1⟩, h2⟩ := get_ends (young_run hr) 3 lostAfterOne [1, 2]
  rcases (h2 r h1).complete_iff.mp
    (hall as withSftp 3 lostAfterOne [1, 2] r hr h1) with h | h | h | h | h
  · exact withSftp_opens 2 h
  · cases h
  · cases h
  · obtain ⟨i, _, _, hi⟩ := h
    cases hi
  · obtain ⟨m, hm⟩ := h 1 (by decide)
    cases hm

end PyLibssh2.Transfer

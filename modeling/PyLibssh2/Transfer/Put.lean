import PyLibssh2.Base.Blocks
import PyLibssh2.Sftp.Copy
import PyLibssh2.Transfer.Get

/-!
# `Sftp.put`

The helper opens the local file, then the remote one, and copies blocks of 4096 bytes.
`Sftpfile.write` returns how many bytes libssh2 accepted, which may be fewer than it was given.

* `putRound`          one round: the opens, one pass of `while read_buffer`, or the closes;
* `PutEnds`           the ways the helper ends, with what it leaves open and what has been accepted;
* `put_complete_iff`  when a `put` that returns has sent the whole file: the count that a write returns
  is dropped.
-/

set_option linter.unusedSectionVars false
set_option linter.unusedVariables false

namespace PyLibssh2.Transfer

open Loop World Remote

/-! ## the helper -/

inductive WriteReply
  /-- `libssh2_sftp_write` accepts up to `m + 1` bytes -/
  | accepts (m : Nat)
  /-- `libssh2_sftp_write` returns `-(k + 1)` -/
  | fails (k : Nat)

def WriteReply.took : WriteReply → Nat
  | .accepts m => m + 1
  | .fails _ => 0

/-- what `libssh2_sftp_write` returns -/
def writeRc (r : WriteReply) (buffer : List UInt8) : Int :=
  match r with
  | .accepts m => (min (m + 1) buffer.length : Nat)
  | .fails k => -(k + 1)

/-- what the calls of `put` meet -/
structure PutEnv where
  openSrc : Bool
  openDst : Answer
  read : Nat → Bool
  write : Nat → WriteReply
  closeSrc : Bool

/-- the variables of the loop: the extension module, `dst_file`, the reads and the writes so far,
`read_buffer`, what has not been read of the local file, and the remote files -/
structure PutVars where
  world : World
  dst : Ref
  reads : Nat
  writes : Nat
  readBuffer : List UInt8
  left : List UInt8
  files : Files

inductive PutState
  | entry (W : World)
  | loop (v : PutVars)

structure PutEnd where
  world : World
  raised : Option Raised
  files : Files

/-- the bytes that the server has accepted go to the end of the file -/
def appended (path : Path) (data : List UInt8) (fs : Files) : Files :=
  Function.update fs path (some ((fs path).getD [] ++ data))

/-- `read_buffer = src_file.read(BUFFER_SIZE)` -/
def putRead (env : PutEnv) (v : PutVars) : Round PutState PutEnd :=
  if env.read v.reads then
    .next (.loop { v with
      reads := v.reads + 1
      readBuffer := v.left.take BUFFER_SIZE
      left := v.left.drop BUFFER_SIZE })
  else .stop ⟨leave v.dst v.world, some .environment, v.files⟩

/-- `Sftp.put`, from a local file that holds `content` to the remote path `dst` -/
def putRound (f : Ref) (env : PutEnv) (dst : Path) (fs : Files) (content : List UInt8) :
    PutState → Round PutState PutEnd
  | .entry W =>
    if env.openSrc then
      match Sftp.openFile f env.openDst W with
      | (W, .obj x) => putRead env ⟨W, x, 0, 0, [], content, opened (getFlags ['w']) dst fs⟩
      | (W, r) => .stop ⟨W, raisedBy r, fs⟩
    else .stop ⟨W, some .environment, fs⟩
  | .loop v =>
    if v.readBuffer ≠ [] then
      -- `dst_file.write(read_buffer)`
      let rc := writeRc (env.write v.writes) v.readBuffer
      match Sftpfile.write v.dst rc v.world with
      | (W, .raised e) => .stop ⟨leave v.dst W, some (.module e), v.files⟩
      | (W, _) => putRead env { v with
          world := W
          writes := v.writes + 1
          files := appended dst (v.readBuffer.take rc.toNat) v.files }
    else
      match Sftp.closeFile f v.dst v.world with
      | (W, .raised e) => .stop ⟨leave v.dst W, some (.module e), v.files⟩
      | (W, _) =>
        -- `src_file.close()`
        .stop ⟨leave v.dst W, if env.closeSrc then none else some .environment, v.files⟩

variable {f : Ref} {env : PutEnv} {dst : Path} {fs : Files} {content : List UInt8} {W V : World}
  {v : PutVars} {r : PutEnd} {st : PutState} {i j : Nat}

/-! ## blocks -/

def block (content : List UInt8) (i : Nat) : List UInt8 := Blocks.block BUFFER_SIZE content i

/-- what the server has of the first blocks -/
def PutEnv.accepted (env : PutEnv) (content : List UInt8) (i : Nat) : List UInt8 :=
  Blocks.through (fun j => (env.write j).took) BUFFER_SIZE content i

/-- a read that is made fails: the first one, or the one after a block -/
def PutEnv.ReadFails (env : PutEnv) (total : Nat) : Prop :=
  ∃ i, env.read i = false ∧ (i = 0 ∨ (i - 1) * BUFFER_SIZE < total)

/-- a write that is made fails -/
def PutEnv.WriteFails (env : PutEnv) (total : Nat) : Prop :=
  ∃ i, i * BUFFER_SIZE < total ∧ ∃ k, env.write i = .fails k

/-- every block is accepted whole -/
def PutEnv.AcceptsWhole (env : PutEnv) (content : List UInt8) : Prop :=
  ∀ i, i * BUFFER_SIZE < content.length → (block content i).length ≤ (env.write i).took

theorem writeRc_toNat (r : WriteReply) (buffer : List UInt8) :
    buffer.take (writeRc r buffer).toNat = buffer.take r.took := by
  cases r with
  | accepts m =>
    have h1 : (writeRc (.accepts m) buffer).toNat = min (m + 1) buffer.length := Int.toNat_natCast _
    rw [h1]
    exact List.take_eq_take_iff.mpr (by rw [WriteReply.took]; omega)
  | fails k =>
    have h1 : (writeRc (.fails k) buffer).toNat = 0 := by
      show (-((k : Int) + 1)).toNat = 0
      omega
    rw [h1]
    rfl

theorem writeRc_nonneg {r : WriteReply} {buffer : List UInt8} :
    0 ≤ writeRc r buffer ↔ ∃ m, r = .accepts m := by
  cases r with
  | accepts m => exact ⟨fun _ => ⟨m, rfl⟩, fun _ => Int.natCast_nonneg _⟩
  | fails k =>
    refine iff_of_false ?_ fun h => ?_
    · show ¬ (0 : Int) ≤ -((k : Int) + 1)
      omega
    · obtain ⟨m, hm⟩ := h
      cases hm

theorem not_accepts {r : WriteReply} (h : ¬ ∃ m, r = .accepts m) : ∃ k, r = .fails k := by
  cases r with
  | accepts m => exact absurd ⟨m, rfl⟩ h
  | fails k => exact ⟨k, rfl⟩

/-! ## the invariant -/

/-- what holds while `put` works: one block has been read that is not written yet -/
structure Putting (f : Ref) (env : PutEnv) (dst : Path) (content : List UInt8) (W : World)
    (v : PutVars) : Prop where
  work : Working f v.dst W v.world
  reads : v.reads = v.writes + 1
  read : ∀ j < v.reads, env.read j = true
  written : ∀ j < v.writes, ∀ k, env.write j ≠ .fails k
  buffer : v.readBuffer = block content v.writes
  left : v.left = content.drop (v.reads * BUFFER_SIZE)
  files : v.files dst = some (env.accepted content v.writes)

theorem Putting.buffer_ne_nil (h : Putting f env dst content W v) :
    v.readBuffer ≠ [] ↔ v.writes * BUFFER_SIZE < content.length := by
  rw [h.buffer]
  exact Blocks.block_ne_nil (by decide)

inductive PutEnds (f : Ref) (env : PutEnv) (dst : Path) (content : List UInt8) (W : World)
    (r : PutEnd) : Prop
  | noLocal : env.openSrc = false → r.raised ≠ none → r.world.reg = W.reg →
      PutEnds f env dst content W r
  | refused : env.openSrc = true → FileRefused f env.openDst W → r.raised ≠ none →
      r.world.reg = W.reg → PutEnds f env dst content W r
  | failed : env.openSrc = true → ¬ FileRefused f env.openDst W →
      (env.ReadFails content.length ∨ env.WriteFails content.length) → r.raised ≠ none →
      Leaked f .file W r.world → PutEnds f env dst content W r
  | done (i : Nat) : env.openSrc = true → ¬ FileRefused f env.openDst W →
      ¬ env.ReadFails content.length → ¬ env.WriteFails content.length →
      content.length ≤ i * BUFFER_SIZE → r.files dst = some (env.accepted content i) →
      (r.raised = none ↔ env.closeSrc = true) → r.world.reg = W.reg → PutEnds f env dst content W r

def PutInv (f : Ref) (env : PutEnv) (dst : Path) (content : List UInt8) (W : World) :
    PutState → Prop
  | .entry V => V = W
  | .loop v => env.openSrc = true ∧ ¬ FileRefused f env.openDst W ∧
      Putting f env dst content W v

/-- the bytes that are not written yet -/
def PutState.rest (content : List UInt8) : PutState → Nat
  | .entry _ => content.length + 1
  | .loop v => v.readBuffer.length + v.left.length

/-! ## one round -/

theorem putting_read (env : PutEnv) (content : List UInt8) (hwork : Working f v.dst W v.world)
    (hmade : v.reads = 0 ∨ (v.reads - 1) * BUFFER_SIZE < content.length) (hreads : v.reads = v.writes)
    (hread : ∀ j < v.reads, env.read j = true) (hwritten : ∀ j < v.writes, ∀ k, env.write j ≠ .fails k)
    (hleft : v.left = content.drop (v.reads * BUFFER_SIZE))
    (hfiles : v.files dst = some (env.accepted content v.writes)) :
    (∃ v', putRead env v = .next (.loop v') ∧ Putting f env dst content W v' ∧
      v'.readBuffer.length + v'.left.length = v.left.length) ∨
    ∃ r, putRead env v = .stop r ∧ env.ReadFails content.length ∧ r.raised ≠ none ∧
      Leaked f .file W r.world := by
  cases hr : env.read v.reads with
  | false =>
    refine Or.inr ⟨⟨leave v.dst v.world, some .environment, v.files⟩, ?_, ⟨v.reads, hr, hmade⟩,
      Option.some_ne_none _, hwork.leaked⟩
    rw [putRead, hr]
    rfl
  | true =>
    refine Or.inl ⟨{ v with
      reads := v.reads + 1
      readBuffer := v.left.take BUFFER_SIZE
      left := v.left.drop BUFFER_SIZE }, ?_, ⟨hwork, ?_, fun j hj => ?_, hwritten, ?_, ?_, hfiles⟩, ?_⟩
    · rw [putRead, if_pos hr]
    · show v.reads + 1 = v.writes + 1
      rw [hreads]
    · rcases Nat.lt_succ_iff_lt_or_eq.mp hj with h1 | h1
      · exact hread j h1
      · rw [h1]
        exact hr
    · show v.left.take BUFFER_SIZE = block content v.writes
      rw [hleft, hreads]
      rfl
    · show v.left.drop BUFFER_SIZE = content.drop ((v.reads + 1) * BUFFER_SIZE)
      rw [hleft, List.drop_drop, Nat.succ_mul]
    · show (v.left.take BUFFER_SIZE).length + (v.left.drop BUFFER_SIZE).length = v.left.length
      rw [← List.length_append, List.take_append_drop]

theorem put_entry (hy : Young W) :
    (∃ st, putRound f env dst fs content (.entry W) = .next st ∧ PutInv f env dst content W st ∧
      st.rest content < (PutState.entry W).rest content) ∨
    ∃ r, putRound f env dst fs content (.entry W) = .stop r ∧ PutEnds f env dst content W r := by
  cases hsrc : env.openSrc with
  | false =>
    refine Or.inr ⟨⟨W, some .environment, fs⟩, by simp only [putRound, hsrc]; rfl, ?_⟩
    exact .noLocal hsrc (Option.some_ne_none _) rfl
  | true =>
    rcases openFile_cases hy f env.openDst with ⟨W', e, h1, h2, hr⟩ | ⟨W', x, h1, h2, hno⟩
    · refine Or.inr ⟨⟨W', some (.module e), fs⟩, by simp only [putRound, hsrc, h1]; rfl, ?_⟩
      exact .refused hsrc hr (Option.some_ne_none _) h2.reg
    · have hsftp := sftp_of_not_refused hno
      have hfiles : opened (getFlags ['w']) dst fs dst = some (env.accepted content 0) := by
        rw [opened_w, Function.update_self]
        rfl
      have hrun : putRound f env dst fs content (.entry W) =
          putRead env ⟨W', x, 0, 0, [], content, opened (getFlags ['w']) dst fs⟩ := by
        simp only [putRound, hsrc, h1, if_true]
      rw [hrun]
      rcases putting_read (v := ⟨W', x, 0, 0, [], content, opened (getFlags ['w']) dst fs⟩) env content
        (Working.of_open h2 hsftp) (Or.inl rfl) rfl (fun j hj => absurd hj (Nat.not_lt_zero j))
        (fun j hj => absurd hj (Nat.not_lt_zero j)) (by rw [Nat.zero_mul]; rfl) hfiles with
        ⟨v', hr, hv', hlen⟩ | ⟨r, hr, hfail, hraised, hleak⟩
      · have hI : PutInv f env dst content W (.loop v') := ⟨hsrc, hno, hv'⟩
        refine Or.inl ⟨_, hr, hI, ?_⟩
        show v'.readBuffer.length + v'.left.length < content.length + 1
        rw [hlen]
        exact Nat.lt_succ_self _
      · exact Or.inr ⟨r, hr, .failed hsrc hno (Or.inl hfail) hraised hleak⟩

theorem Putting.end (h : Putting f env dst content W v) (hbuf : ¬ v.readBuffer ≠ []) :
    content.length ≤ v.writes * BUFFER_SIZE ∧ ¬ env.ReadFails content.length ∧
      ¬ env.WriteFails content.length := by
  have hle := Nat.le_of_not_lt (mt h.buffer_ne_nil.mpr hbuf)
  refine ⟨hle, ?_, ?_⟩
  · intro hex
    obtain ⟨i, hi, hmade⟩ := hex
    have hlt : i < v.reads := by
      rw [h.reads]
      rcases hmade with h1 | h1
      · rw [h1]
        exact Nat.succ_pos _
      · have h2 : i - 1 < v.writes := Nat.lt_of_mul_lt_mul_right (Nat.lt_of_lt_of_le h1 hle)
        omega
    rw [h.read i hlt] at hi
    cases hi
  · intro hex
    obtain ⟨i, hmade, k, hk⟩ := hex
    exact h.written i (Nat.lt_of_mul_lt_mul_right (Nat.lt_of_lt_of_le hmade hle)) k hk

theorem put_write (hsrc : env.openSrc = true) (hno : ¬ FileRefused f env.openDst W)
    (h : Putting f env dst content W v) (hbuf : v.readBuffer ≠ []) :
    (∃ st, putRound f env dst fs content (.loop v) = .next st ∧ PutInv f env dst content W st ∧
      st.rest content < (PutState.loop v).rest content) ∨
    ∃ r, putRound f env dst fs content (.loop v) = .stop r ∧ PutEnds f env dst content W r := by
  have hmade := h.buffer_ne_nil.mp hbuf
  obtain ⟨V, hw, ⟨h0, hres⟩ | ⟨h0, hres⟩⟩ := h.work.added.held.negative .sftpWrite false
    (writeRc (env.write v.writes) v.readBuffer)
  · obtain ⟨m, hreply⟩ := writeRc_nonneg.mp h0
    let v' : PutVars := { v with
      world := V
      writes := v.writes + 1
      files := appended dst (v.readBuffer.take (writeRc (env.write v.writes) v.readBuffer).toNat)
        v.files }
    have hrun : putRound f env dst fs content (.loop v) = putRead env v' := by
      simp only [putRound, if_pos hbuf, Sftpfile.write, hres]
      rfl
    have hwritten : ∀ j < v'.writes, ∀ k, env.write j ≠ .fails k := by
      intro j hj k
      rcases Nat.lt_succ_iff_lt_or_eq.mp hj with h1 | h1
      · exact h.written j h1 k
      · rw [h1, hreply]
        exact fun h2 => by cases h2
    have hfiles : v'.files dst = some (env.accepted content v'.writes) := by
      show appended dst _ v.files dst = _
      rw [appended, Function.update_self, h.files, writeRc_toNat, h.buffer]
      rfl
    rw [hrun]
    rcases putting_read (v := v') env content (h.work.calls hw) (Or.inr (by rw [h.reads]; exact hmade))
      h.reads h.read hwritten h.left hfiles with ⟨v'', hr, hv, hlen⟩ | ⟨r, hr, hfail, hraised, hleak⟩
    · have hI : PutInv f env dst content W (.loop v'') := ⟨hsrc, hno, hv⟩
      refine Or.inl ⟨_, hr, hI, ?_⟩
      have := List.length_pos_iff.mpr hbuf
      show v''.readBuffer.length + v''.left.length < v.readBuffer.length + v.left.length
      rw [hlen]
      show v.left.length < v.readBuffer.length + v.left.length
      omega
    · exact Or.inr ⟨r, hr, .failed hsrc hno (Or.inl hfail) hraised hleak⟩
  · refine Or.inr ⟨⟨leave v.dst V, some (.module .libssh2), v.files⟩, ?_, ?_⟩
    · simp only [putRound, if_pos hbuf, Sftpfile.write, hres]
    · exact .failed hsrc hno (Or.inr ⟨v.writes, hmade, not_accepts (mt writeRc_nonneg.mpr h0)⟩)
        (Option.some_ne_none _) (h.work.calls hw).leaked

theorem put_round (hy : Young W) (h : PutInv f env dst content W st) :
    (∃ st', putRound f env dst fs content st = .next st' ∧ PutInv f env dst content W st' ∧
      st'.rest content < st.rest content) ∨
    ∃ r, putRound f env dst fs content st = .stop r ∧ PutEnds f env dst content W r := by
  cases st with
  | entry V =>
    have hV : V = W := h
    rw [hV]
    exact put_entry hy
  | loop v =>
    obtain ⟨hsrc, hno, hput⟩ := h
    by_cases hbuf : v.readBuffer ≠ []
    · exact put_write hsrc hno hput hbuf
    · obtain ⟨V, hclose, hreg⟩ := hput.work.close
      obtain ⟨hle, hread, hwrite⟩ := hput.end hbuf
      refine Or.inr ⟨⟨leave v.dst V, if env.closeSrc then none else some .environment, v.files⟩, ?_, ?_⟩
      · simp only [putRound, if_neg hbuf, hclose]
      · refine .done v.writes hsrc hno hread hwrite hle hput.files ?_ hreg
        cases env.closeSrc with
        | false => exact iff_of_false (Option.some_ne_none _) Bool.false_ne_true
        | true => exact iff_of_true rfl rfl

theorem put_ends (hy : Young W) (f : Ref) (env : PutEnv) (dst : Path) (fs : Files)
    (content : List UInt8) : (∃ r, Halts (putRound f env dst fs content) (.entry W) r) ∧
    ∀ r, Halts (putRound f env dst fs content) (.entry W) r → PutEnds f env dst content W r := by
  have h0 : PutInv f env dst content W (.entry W) := rfl
  exact halts_of_rounds (PutState.rest content) (PutInv f env dst content W)
    (PutEnds f env dst content W) (fun s hI => put_round hy hI) h0

/-! ## what it leaves -/

theorem PutEnds.complete_iff (h : PutEnds f env dst content W r) :
    (r.raised ≠ none ∨ r.files dst = some content) ↔
      env.openSrc = false ∨ FileRefused f env.openDst W ∨ env.closeSrc = false ∨
      env.ReadFails content.length ∨ env.WriteFails content.length ∨ env.AcceptsWhole content := by
  cases h with
  | noLocal h1 h2 _ => exact ⟨fun _ => Or.inl h1, fun _ => Or.inl h2⟩
  | refused _ h1 h2 _ => exact ⟨fun _ => Or.inr (Or.inl h1), fun _ => Or.inl h2⟩
  | failed _ _ h1 h2 _ =>
    refine ⟨fun _ => Or.inr (Or.inr (Or.inr ?_)), fun _ => Or.inl h2⟩
    rcases h1 with h1 | h1
    · exact Or.inl h1
    · exact Or.inr (Or.inl h1)
  | done i hsrc hno hread hwrite hle hfiles hret _ =>
    have hwhole : env.accepted content i = content ↔ env.AcceptsWhole content :=
      Blocks.through_eq_iff (by decide) hle
    rw [hfiles, Option.some.injEq, hwhole]
    constructor
    · intro hcase
      rcases hcase with h | h
      · have hcl : env.closeSrc = false := by simpa using mt hret.mpr h
        exact Or.inr (Or.inr (Or.inl hcl))
      · exact Or.inr (Or.inr (Or.inr (Or.inr (Or.inr h))))
    · intro hcase
      rcases hcase with h | h | h | h | h | h
      · rw [hsrc] at h
        cases h
      · exact absurd h hno
      · apply Or.inl
        intro h1
        rw [hret.mp h1] at h
        cases h
      · exact absurd h hread
      · exact absurd h hwrite
      · exact Or.inr h

theorem PutEnds.sets (h : PutEnds f env dst content W r) (s : Ref) : SameSets s f W r.world ↔
    env.openSrc = false ∨ FileRefused f env.openDst W ∨
      (¬ env.ReadFails content.length ∧ ¬ env.WriteFails content.length) := by
  apply sameSets_iff (Or.inr ⟨rfl, rfl⟩)
  cases h with
  | noLocal h1 _ hreg => exact Or.inl ⟨hreg, Or.inl h1⟩
  | refused _ h1 _ hreg => exact Or.inl ⟨hreg, Or.inr (Or.inl h1)⟩
  | failed hsrc hno h1 _ hleak =>
    refine Or.inr ⟨hleak, fun h => ?_⟩
    rcases h with h | h | h
    · rw [hsrc] at h
      cases h
    · exact hno h
    · rcases h1 with h1 | h1
      · exact h.1 h1
      · exact h.2 h1
  | done i _ _ hread hwrite _ _ _ hreg => exact Or.inl ⟨hreg, Or.inr (Or.inr ⟨hread, hwrite⟩)⟩

/-- **When an upload is complete or raises.**  A write that accepts a part of a block goes unnoticed. -/
theorem put_complete_iff {as : List Act} (hr : Trans.Run Step World.empty as W) (f : Ref) (env : PutEnv)
    (dst : Path) (fs : Files) (content : List UInt8) :
    (∃ r, Halts (putRound f env dst fs content) (.entry W) r) ∧
    ∀ r, Halts (putRound f env dst fs content) (.entry W) r →
      ((r.raised ≠ none ∨ r.files dst = some content) ↔
        env.openSrc = false ∨ FileRefused f env.openDst W ∨ env.closeSrc = false ∨
        env.ReadFails content.length ∨ env.WriteFails content.length ∨ env.AcceptsWhole content) := by
  obtain ⟨h1, h2⟩ := put_ends (young_run hr) f env dst fs content
  exact ⟨h1, fun r h => (h2 r h).complete_iff⟩

/-! ### a file of two bytes -/

/-- the server accepts up to `m + 1` bytes at a time -/
def acceptsUpTo (m : Nat) : PutEnv := ⟨true, answer 2, fun _ => true, fun _ => .accepts m, true⟩

theorem put_complete_iff_two :
    ∃ r, Halts (putRound 3 (acceptsUpTo 1) "b" (fun _ => none) [1, 2]) (.entry withSftp) r ∧
      (r.raised ≠ none ∨ r.files "b" = some [1, 2]) := by
  obtain ⟨as, hr⟩ := withSftp_run
  obtain ⟨⟨r, h1⟩, h2⟩ := put_complete_iff hr 3 (acceptsUpTo 1) "b" (fun _ => none) [1, 2]
  refine ⟨r, h1, (h2 r h1).mpr (Or.inr (Or.inr (Or.inr (Or.inr (Or.inr fun i _ => ?_)))))⟩
  show (([1, 2].drop (i * 4096)).take 4096).length ≤ 2
  rw [List.length_take, List.length_drop]
  show min 4096 (2 - i * 4096) ≤ 2
  omega

/-- the server accepts the first byte only -/
theorem put_short : ¬ ∀ (as : List Act) (W : World) (f : Ref) (env : PutEnv) (dst : Path) (fs : Files)
    (content : List UInt8) (r : PutEnd), Trans.Run Step World.empty as W →
    Halts (putRound f env dst fs content) (.entry W) r →
    r.raised ≠ none ∨ r.files dst = some content := by
  intro hall
  obtain ⟨as, hr⟩ := withSftp_run
  obtain ⟨⟨r, h1⟩, h2⟩ := put_ends (young_run hr) 3 (acceptsUpTo 0) "b" (fun _ => none) [1, 2]
  rcases (h2 r h1).complete_iff.mp
    (hall as withSftp 3 (acceptsUpTo 0) "b" (fun _ => none) [1, 2] r hr h1) with h | h | h | h | h | h
  · cases h
  · exact withSftp_opens 2 h
  · cases h
  · obtain ⟨i, hi, _⟩ := h
    cases hi
  · obtain ⟨i, _, k, hk⟩ := h
    cases hk
  · exact absurd (h 0 (by decide)) (by decide)

end PyLibssh2.Transfer

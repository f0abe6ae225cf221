import Mathlib.Data.List.TakeDrop
import PyLibssh2.Base.Loop
import PyLibssh2.Sftp.Remote

/-!
# `Sftp.copy_file`

The facade opens the source for reading and the target for writing, reads the source to its end and
passes all of it to one write.

* `readAll`             `SftpFile.read(-1)`: reads until one gives nothing, whatever the reason;
* `delivered`           how many bytes the answers of the server make of a file;
* `copyFile_complete_iff`  when the copy is complete or an exception tells that it is not: a short
  write, a failed read and a target that is the source go unnoticed.
-/

set_option linter.unusedSectionVars false
set_option linter.unusedVariables false

namespace PyLibssh2.Remote

open Loop

/-! ## opening -/

def FXF_READ : Nat := 0x01
def FXF_WRITE : Nat := 0x02
def FXF_APPEND : Nat := 0x04
def FXF_CREAT : Nat := 0x08
def FXF_TRUNC : Nat := 0x10
def FXF_EXCL : Nat := 0x20

def modeflags : List (Char × Nat) :=
  [('a', FXF_APPEND),
   ('w', FXF_WRITE ||| FXF_TRUNC ||| FXF_CREAT),
   ('r', FXF_READ),
   ('+', FXF_READ ||| FXF_WRITE),
   ('x', FXF_WRITE ||| FXF_TRUNC ||| FXF_EXCL ||| FXF_CREAT)]

/-- `get_flags` -/
def getFlags (mode : List Char) : Nat :=
  modeflags.foldl (fun f m => if m.1 ∈ mode then f ||| m.2 else f) 0

/-- what a successful `libssh2_sftp_open` does to the remote files -/
def opened (flags : Nat) (path : Path) (fs : Files) : Files :=
  match fs path with
  | none => if flags &&& FXF_CREAT = 0 then fs else Function.update fs path (some [])
  | some _ => if flags &&& FXF_TRUNC = 0 then fs else Function.update fs path (some [])

/-- `PYLIBSSH2_Sftp_open_file` -/
def openFile (isOpen : Bool) (reply : Reply) (path : Path) (mode : List Char) (fs : Files) :
    Files × Except PyExc Unit :=
  if isOpen then
    match openError reply with
    | some e => (fs, .error e)
    | none => (opened (getFlags mode) path fs, .ok ())
  else (fs, .error closedError)

/-! ## reading -/

def bufferMaxlen : Nat := 1024

/-- the variables of the loop in `SftpFile.read`: the reads so far, `buf`, and the bytes after the
position of the handle -/
structure ReadState where
  reads : Nat
  buf : List UInt8
  rest : List UInt8

/-- one round of `while True`; the server answers read `i` with up to `m` bytes if `answer i` is
`some m`, and if it is `none` the read raises or returns `None` -/
def readRound (answer : Nat → Option Nat) (st : ReadState) : Round ReadState (List UInt8) :=
  let newBuf := match answer st.reads with
    | none => []
    | some m => st.rest.take (min m bufferMaxlen)
  if 0 < newBuf.length then
    .next ⟨st.reads + 1, st.buf ++ newBuf, st.rest.drop newBuf.length⟩
  else .stop st.buf

/-- `SftpFile.read(-1)` on a file that holds `content`; every round but the last takes a byte of it -/
def readAll (answer : Nat → Option Nat) (content : List UInt8) : List UInt8 :=
  (iter (readRound answer) (content.length + 1) ⟨0, [], content⟩).getD []

/-- how many of `left` bytes the answers from `i` on deliver before a read gives nothing -/
def delivered (answer : Nat → Option Nat) (i left : Nat) : Nat :=
  let l := min ((answer i).getD 0) (min bufferMaxlen left)
  if l = 0 then 0 else l + delivered answer (i + 1) (left - l)
termination_by left
decreasing_by omega

/-! ## writing -/

def INT_MAX : Nat := 2147483647

/-- what is in a file after `data` has been written at its start -/
def overwritten (data old : List UInt8) : List UInt8 := data ++ old.drop data.length

/-- `PYLIBSSH2_Sftpfile_write` at the start of `path`; the server accepts up to `k` bytes if the reply
is `some k` -/
def sftpfileWrite (reply : Option Nat) (buffer : List UInt8) (path : Path) (fs : Files) :
    Files × Except PyExc Nat :=
  -- the length has to fit into the `int` of `s#`
  if INT_MAX < buffer.length then (fs, .error (.overflowError "size does not fit in an int"))
  else
    match reply with
    | none => (fs, .error (.error "Unable to write sftp."))
    | some k =>
      let data := buffer.take k
      (Function.update fs path (some (overwritten data ((fs path).getD []))), .ok data.length)

/-- `Sftp.copy_file`; the two calls of `close_file` do nothing to the files -/
def copyFile (isOpen : Bool) (srcReply dstReply : Reply) (answer : Nat → Option Nat)
    (write : Option Nat) (src dst : Path) (fs : Files) : Files × Except PyExc Unit :=
  match openFile isOpen srcReply src ['r'] fs with
  | (fs, .error e) => (fs, .error e)
  | (fs, .ok ()) =>
    match openFile isOpen dstReply dst ['w'] fs with
    | (fs, .error e) => (fs, .error e)
    | (fs, .ok ()) =>
      match sftpfileWrite write (readAll answer ((fs src).getD [])) dst fs with
      | (fs, .error e) => (fs, .error e)
      | (fs, .ok _) => (fs, .ok ())

variable {isOpen : Bool} {r srcReply dstReply : Reply} {answer : Nat → Option Nat}
  {write : Option Nat} {src dst p : Path} {fs : Files} {content : List UInt8} {i : Nat}

/-! ## one open -/

theorem getFlags_r : getFlags ['r'] = FXF_READ := rfl

theorem getFlags_w : getFlags ['w'] = FXF_WRITE ||| FXF_TRUNC ||| FXF_CREAT := rfl

theorem opened_r : opened (getFlags ['r']) p fs = fs := by
  rw [getFlags_r]
  unfold opened
  cases fs p with
  | none => rfl
  | some c => rfl

theorem opened_w : opened (getFlags ['w']) p fs = Function.update fs p (some []) := by
  rw [getFlags_w]
  unfold opened
  cases fs p with
  | none => rfl
  | some c => rfl

theorem openFile_ok {mode : List Char} (ho : isOpen = true) :
    openFile isOpen .ok p mode fs = (opened (getFlags mode) p fs, .ok ()) := by
  rw [openFile, if_pos ho]
  rfl

theorem openFile_failed (p : Path) (mode : List Char) (fs : Files) (h : ¬ (isOpen = true ∧ r = .ok)) :
    ∃ e, openFile isOpen r p mode fs = (fs, .error e) := by
  unfold openFile
  by_cases ho : isOpen = true
  · rw [if_pos ho]
    cases hr : openError r with
    | none => exact absurd ⟨ho, openError_eq_none.mp hr⟩ h
    | some e => exact ⟨e, rfl⟩
  · rw [if_neg ho]
    exact ⟨closedError, rfl⟩

/-! ## the reads -/

/-- how many of `left` bytes the answer `i` gives -/
def readLen (answer : Nat → Option Nat) (i left : Nat) : Nat :=
  min ((answer i).getD 0) (min bufferMaxlen left)

theorem readLen_le (answer : Nat → Option Nat) (i left : Nat) : readLen answer i left ≤ left := by
  unfold readLen
  omega

theorem delivered_eq (answer : Nat → Option Nat) (i left : Nat) :
    delivered answer i left = if readLen answer i left = 0 then 0
      else readLen answer i left + delivered answer (i + 1) (left - readLen answer i left) := by
  rw [delivered]
  rfl

theorem readRound_eq (answer : Nat → Option Nat) (i : Nat) (buf rest : List UInt8) :
    readRound answer ⟨i, buf, rest⟩ = if readLen answer i rest.length = 0 then .stop buf
      else .next ⟨i + 1, buf ++ rest.take (readLen answer i rest.length),
        rest.drop (readLen answer i rest.length)⟩ := by
  have hbuf : (match answer i with
      | none => []
      | some m => rest.take (min m bufferMaxlen)) = rest.take (readLen answer i rest.length) := by
    unfold readLen
    cases answer i with
    | none => simp
    | some m =>
      exact List.take_eq_take_iff.mpr (by rw [Option.getD_some]; omega)
  have hlen : (rest.take (readLen answer i rest.length)).length = readLen answer i rest.length := by
    rw [List.length_take, min_eq_left (readLen_le _ _ _)]
  unfold readRound
  simp only [hbuf, hlen]
  by_cases h : readLen answer i rest.length = 0
  · rw [if_pos h, if_neg (by omega)]
  · rw [if_neg h, if_pos (by omega)]

theorem delivered_le (answer : Nat → Option Nat) (i left : Nat) : delivered answer i left ≤ left := by
  induction left using Nat.strong_induction_on generalizing i with
  | _ left ih =>
    rw [delivered_eq]
    by_cases h : readLen answer i left = 0
    · rw [if_pos h]
      exact Nat.zero_le _
    · rw [if_neg h]
      have hle := readLen_le answer i left
      have h1 := ih (left - readLen answer i left) (by omega) (i + 1)
      omega

/-- the loop stops with what has been delivered, after a round for each byte at the latest -/
theorem iter_readRound (answer : Nat → Option Nat) (n i : Nat) (buf rest : List UInt8)
    (hn : rest.length < n) : iter (readRound answer) n ⟨i, buf, rest⟩ =
      some (buf ++ rest.take (delivered answer i rest.length)) := by
  induction n generalizing i buf rest with
  | zero => exact absurd hn (Nat.not_lt_zero _)
  | succ n ih =>
    have hround := readRound_eq answer i buf rest
    rw [delivered_eq]
    by_cases h : readLen answer i rest.length = 0
    · rw [if_pos h] at hround ⊢
      rw [iter_succ_stop hround, List.take_zero, List.append_nil]
    · rw [if_neg h] at hround ⊢
      have hle := readLen_le answer i rest.length
      rw [iter_succ_next hround, ih _ _ _ (by rw [List.length_drop]; omega), List.length_drop,
        List.append_assoc, List.take_add]

theorem readAll_eq (answer : Nat → Option Nat) (content : List UInt8) :
    readAll answer content = content.take (delivered answer 0 content.length) := by
  rw [readAll, iter_readRound _ _ _ _ _ (Nat.lt_succ_self _)]
  rfl

theorem readAll_halts (answer : Nat → Option Nat) (content : List UInt8) :
    Halts (readRound answer) ⟨0, [], content⟩ (readAll answer content) := by
  refine ⟨content.length + 1, ?_⟩
  rw [readAll, iter_readRound _ _ _ _ _ (Nat.lt_succ_self _)]
  rfl

/-! ## the copy -/

/-- what is in the source when it is read: the target is open by then -/
def atRead (src dst : Path) (content : List UInt8) : List UInt8 := if src = dst then [] else content

theorem atRead_spec (hsrc : fs src = some content) :
    ((Function.update fs dst (some [])) src).getD [] = atRead src dst content := by
  unfold atRead
  by_cases h : src = dst
  · rw [if_pos h, h, Function.update_self]
    rfl
  · rw [if_neg h, Function.update_of_ne h, hsrc]
    rfl

theorem copyFile_notOpen (h : ¬ (isOpen = true ∧ srcReply = .ok ∧ dstReply = .ok)) :
    ∃ e, (copyFile isOpen srcReply dstReply answer write src dst fs).2 = .error e := by
  unfold copyFile
  by_cases h1 : isOpen = true ∧ srcReply = .ok
  · rw [h1.2, openFile_ok h1.1]
    obtain ⟨e, he⟩ := openFile_failed (r := dstReply) dst ['w']
      (opened (getFlags ['r']) src fs) fun h2 => h ⟨h1.1, h1.2, h2.2⟩
    refine ⟨e, ?_⟩
    simp only
    rw [he]
  · obtain ⟨e, he⟩ := openFile_failed src ['r'] fs h1
    exact ⟨e, by rw [he]⟩

theorem copyFile_open (ho : isOpen = true) (hsrc : fs src = some content) :
    copyFile isOpen .ok .ok answer write src dst fs =
      match sftpfileWrite write (readAll answer (atRead src dst content)) dst
        (Function.update fs dst (some [])) with
      | (fs, .error e) => (fs, .error e)
      | (fs, .ok _) => (fs, .ok ()) := by
  unfold copyFile
  simp only [openFile_ok ho, opened_r, opened_w, atRead_spec hsrc]

theorem sftpfileWrite_fails {buffer : List UInt8} (p : Path) (fs : Files)
    (h : INT_MAX < buffer.length ∨ write = none) :
    ∃ e, sftpfileWrite write buffer p fs = (fs, .error e) := by
  unfold sftpfileWrite
  by_cases hl : INT_MAX < buffer.length
  · rw [if_pos hl]
    exact ⟨_, rfl⟩
  · rw [if_neg hl, h.resolve_left hl]
    exact ⟨_, rfl⟩

theorem sftpfileWrite_some {buffer : List UInt8} (p : Path) (fs : Files) (k : Nat)
    (h : ¬ INT_MAX < buffer.length) :
    ∃ n, sftpfileWrite (some k) buffer p (Function.update fs p (some [])) =
      (Function.update fs p (some (buffer.take k)), .ok n) := by
  refine ⟨(buffer.take k).length, ?_⟩
  rw [sftpfileWrite, if_neg h]
  simp only [Function.update_self, Function.update_idem, overwritten, Option.getD_some,
    List.drop_nil, List.append_nil]

theorem take_readAll_iff {k : Nat} : (readAll answer (atRead src dst content)).take k = content ↔
    (src = dst → content = []) ∧ delivered answer 0 content.length = content.length ∧
      content.length ≤ k := by
  have hle := delivered_le answer 0 content.length
  rw [readAll_eq, List.take_take]
  unfold atRead
  by_cases h : src = dst
  · rw [if_pos h, List.take_nil]
    constructor
    · rintro rfl
      exact ⟨fun _ => rfl, Nat.le_zero.mp hle, Nat.zero_le k⟩
    · intro h1
      exact (h1.1 h).symm
  · rw [if_neg h, List.take_eq_self_iff]
    constructor
    · intro h1
      exact ⟨fun h2 => absurd h2 h, by omega, by omega⟩
    · rintro ⟨_, h1, h2⟩
      omega

/-- **When a copy is complete or raises.** -/
theorem copyFile_complete_iff (isOpen : Bool) (srcReply dstReply : Reply)
    (answer : Nat → Option Nat) (write : Option Nat) (src dst : Path) (fs : Files)
    (content : List UInt8) (hsrc : fs src = some content) :
    (∀ c, Halts (readRound answer) ⟨0, [], c⟩ (readAll answer c)) ∧
    (((∃ e, (copyFile isOpen srcReply dstReply answer write src dst fs).2 = .error e) ∨
      ((copyFile isOpen srcReply dstReply answer write src dst fs).2 = .ok () ∧
        (copyFile isOpen srcReply dstReply answer write src dst fs).1 dst = some content)) ↔
    (¬ (isOpen = true ∧ srcReply = .ok ∧ dstReply = .ok) ∨
      write = none ∨
      INT_MAX < delivered answer 0 (atRead src dst content).length ∨
      ((src = dst → content = []) ∧ delivered answer 0 content.length = content.length ∧
        ∃ k, write = some k ∧ content.length ≤ k))) := by
  refine ⟨readAll_halts answer, ?_⟩
  by_cases hopen : isOpen = true ∧ srcReply = .ok ∧ dstReply = .ok
  swap
  · exact ⟨fun _ => Or.inl hopen, fun _ => Or.inl (copyFile_notOpen hopen)⟩
  obtain ⟨ho, rfl, rfl⟩ := hopen
  have hlen : (readAll answer (atRead src dst content)).length =
      delivered answer 0 (atRead src dst content).length := by
    rw [readAll_eq, List.length_take, min_eq_left (delivered_le _ _ _)]
  rw [copyFile_open ho hsrc]
  by_cases hfail : INT_MAX < (readAll answer (atRead src dst content)).length ∨ write = none
  · obtain ⟨e, he⟩ := sftpfileWrite_fails dst (Function.update fs dst (some [])) hfail
    rw [he]
    refine ⟨fun _ => Or.inr ?_, fun _ => Or.inl ⟨e, rfl⟩⟩
    rcases hfail with h | h
    · exact Or.inr (Or.inl (hlen ▸ h))
    · exact Or.inl h
  · obtain ⟨hl, hw⟩ := not_or.mp hfail
    obtain ⟨k, rfl⟩ := Option.ne_none_iff_exists'.mp hw
    obtain ⟨n, hn⟩ := sftpfileWrite_some dst fs k hl
    rw [hn]
    simp only [Function.update_self, Option.some.injEq]
    rw [take_readAll_iff]
    constructor
    · rintro (⟨e, he⟩ | ⟨_, h1, h2, h3⟩)
      · cases he
      · exact Or.inr (Or.inr (Or.inr ⟨h1, h2, k, rfl, h3⟩))
    · rintro (h | h | h | ⟨h1, h2, _, rfl, h3⟩)
      · exact absurd ⟨ho, trivial, trivial⟩ h
      · exact absurd h hw
      · exact absurd (hlen ▸ h) hl
      · exact Or.inr ⟨trivial, h1, h2, h3⟩

def twoBytes : Files := fun p => if p = "a" then some [1, 2] else none

/-- the two bytes read one by one and accepted together -/
theorem copyFile_complete_iff_two :
    twoBytes "a" = some [1, 2] ∧
    ((∃ e, (copyFile true .ok .ok (fun _ => some 1) (some 2) "a" "b" twoBytes).2 = .error e) ∨
      ((copyFile true .ok .ok (fun _ => some 1) (some 2) "a" "b" twoBytes).2 = .ok () ∧
        (copyFile true .ok .ok (fun _ => some 1) (some 2) "a" "b" twoBytes).1 "b" = some [1, 2])) :=
  ⟨rfl, (copyFile_complete_iff true .ok .ok (fun _ => some 1) (some 2) "a" "b" twoBytes [1, 2] rfl).2.mpr
    (Or.inr (Or.inr (Or.inr ⟨fun h => absurd h (by decide), by simp [delivered, bufferMaxlen], 2, rfl,
      Nat.le_refl 2⟩)))⟩

/-- a write that accepts one of two bytes goes unnoticed -/
theorem copyFile_short : ¬ ∀ (answer : Nat → Option Nat) (k : Nat) (src dst : Path) (fs : Files)
    (content : List UInt8), fs src = some content → 1 ≤ k → (∀ i m, answer i = some m → 1 ≤ m) →
    (∃ e, (copyFile true .ok .ok answer (some k) src dst fs).2 = .error e) ∨
    ((copyFile true .ok .ok answer (some k) src dst fs).2 = .ok () ∧
      (copyFile true .ok .ok answer (some k) src dst fs).1 dst = some content) := by
  intro hall
  rcases hall (fun _ => some 1024) 1 "a" "b" twoBytes [1, 2] rfl
    (Nat.le_refl 1) (fun i m hm => by rw [← Option.some.inj hm]; decide) with ⟨e, he⟩ | ⟨_, h⟩
  · cases he
  · exact absurd h (by decide)

end PyLibssh2.Remote

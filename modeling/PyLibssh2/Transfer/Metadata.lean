import Mathlib.Data.List.AList
import Mathlib.Algebra.Order.Field.Rat
import Mathlib.Data.Int.Cast.Lemmas
import Mathlib.Tactic.NormNum
import PyLibssh2.Sftp.Copy
import PyLibssh2.Transfer.Recv

/-!
# The mode and the times of a downloaded file

`scp_recv` makes a dictionary of the `struct stat` that libssh2 fills in, and `scp_recv_file` gives the
local file the mode and the times of the dictionary.  A time is a number of seconds and a number of
nanoseconds, and a Python number in between; such numbers are exact here.

* `Downloads`       the helper ends without an exception, with these values for the local file;
* `downloads_eq`    the values: the two times are exchanged, and both have the nanoseconds of one;
* `downloads_iff`   they are the remote ones exactly if the two remote times are equal.
-/

namespace PyLibssh2.Transfer

open Loop World

/-! ## the dictionary -/

/-- `struct timespec` -/
@[ext] structure Timespec where
  tvSec : BitVec 64
  tvNsec : BitVec 64
  deriving DecidableEq

/-- the fields of a `struct stat` that the dictionary has -/
structure Stat where
  stSize : BitVec 64
  stUid : BitVec 32
  stGid : BitVec 32
  stMode : BitVec 32
  stAtim : Timespec
  stMtim : Timespec

/-- the factor `0.000000001` -/
def nano : ℚ := 1 / 1000000000

def Timespec.time (t : Timespec) : ℚ := t.tvSec.toInt + t.tvNsec.toInt * nano

inductive Number
  | long (n : Nat)
  | float (x : ℚ)
  deriving DecidableEq

def Number.value : Number → ℚ
  | .long n => n
  | .float x => x

abbrev FileInfo := AList fun _ : String => Number

/-- `stat_to_statdict`; the nanoseconds of `st_atime` are those of `st_mtim` -/
def statToStatdict (attr : Stat) : FileInfo :=
  let attrs : FileInfo := ∅
  let attrs := attrs.insert "st_size" (.long attr.stSize.toNat)
  let attrs := attrs.insert "st_uid" (.long attr.stUid.toNat)
  let attrs := attrs.insert "st_gid" (.long attr.stGid.toNat)
  let attrs := attrs.insert "st_mode" (.long attr.stMode.toNat)
  let attrs := attrs.insert "st_atime"
    (.float (attr.stAtim.tvSec.toInt + attr.stMtim.tvNsec.toInt * nano))
  attrs.insert "st_mtime" (.float (attr.stMtim.tvSec.toInt + attr.stMtim.tvNsec.toInt * nano))

/-! ## the local file -/

structure LocalFile where
  mode : Nat
  atime : ℚ
  mtime : ℚ
  deriving DecidableEq

/-- `os.chmod(path, mode)`, which wants an `int`; `none` if it raises -/
def osChmod (ok : Bool) (mode : Number) (file : LocalFile) : Option LocalFile :=
  match mode with
  | .long n => if ok = true ∧ n ≤ Remote.INT_MAX then some { file with mode := n } else none
  | .float _ => none

/-- `os.utime(path, (atime, mtime))` -/
def osUtime (ok : Bool) (times : Number × Number) (file : LocalFile) : Option LocalFile :=
  if ok then some { file with atime := times.1.value, mtime := times.2.value } else none

/-- the last two lines of `scp_recv_file` -/
def applyInfo (env : RecvFileEnv) (fileInfo : FileInfo) (file : LocalFile) : Option LocalFile := do
  let mode ← fileInfo.lookup "st_mode"
  let file ← osChmod env.chmod mode file
  let mtime ← fileInfo.lookup "st_mtime"
  let atime ← fileInfo.lookup "st_atime"
  osUtime env.utime (mtime, atime) file

/-- `Session.scp_recv_file` of a file with the status `attr` ends without an exception; `new` is the local
file as it was made, `file` what it is at the end -/
structure Downloads (s : Ref) (env : RecvFileEnv) (attr : Stat) (stream : List UInt8) (W : World)
    (new file : LocalFile) : Prop where
  size : (statToStatdict attr).lookup "st_size" = some (.long env.fileSize)
  ends : ∃ r, Halts (recvFileRound s env stream) (.entry W) r ∧ r.raised = none
  applied : applyInfo env (statToStatdict attr) new = some file

variable {s : Ref} {env : RecvFileEnv} {attr : Stat} {stream : List UInt8} {W : World}
  {new file : LocalFile} {mode : Number}

/-! ## what is applied -/

theorem lookup_size : (statToStatdict attr).lookup "st_size" = some (.long attr.stSize.toNat) := by
  unfold statToStatdict
  rw [AList.lookup_insert_ne (by decide), AList.lookup_insert_ne (by decide),
    AList.lookup_insert_ne (by decide), AList.lookup_insert_ne (by decide),
    AList.lookup_insert_ne (by decide), AList.lookup_insert]

theorem lookup_mode : (statToStatdict attr).lookup "st_mode" = some (.long attr.stMode.toNat) := by
  simp [statToStatdict, AList.lookup_insert_ne]

theorem lookup_atime : (statToStatdict attr).lookup "st_atime" =
    some (.float (attr.stAtim.tvSec.toInt + attr.stMtim.tvNsec.toInt * nano)) := by
  simp [statToStatdict, AList.lookup_insert_ne]

theorem lookup_mtime : (statToStatdict attr).lookup "st_mtime" = some (.float attr.stMtim.time) := by
  simp [statToStatdict, Timespec.time]

/-- the file that `os.chmod` and `os.utime` leave, if neither raises -/
def appliedFile (attr : Stat) : LocalFile where
  mode := attr.stMode.toNat
  atime := attr.stMtim.time
  mtime := attr.stAtim.tvSec.toInt + attr.stMtim.tvNsec.toInt * nano

theorem applyInfo_eq (env : RecvFileEnv) (attr : Stat) (new : LocalFile) :
    applyInfo env (statToStatdict attr) new =
      if (env.chmod = true ∧ attr.stMode.toNat ≤ Remote.INT_MAX) ∧ env.utime = true
      then some (appliedFile attr) else none := by
  unfold applyInfo
  rw [lookup_mode, lookup_mtime, lookup_atime]
  show (osChmod env.chmod (.long attr.stMode.toNat) new).bind _ = _
  unfold osChmod
  simp only
  by_cases hc : env.chmod = true ∧ attr.stMode.toNat ≤ Remote.INT_MAX
  · rw [if_pos hc, Option.bind_some]
    show osUtime env.utime _ _ = _
    unfold osUtime
    simp only [hc, and_self, true_and]
    rfl
  · rw [if_neg hc, if_neg fun h => hc h.1, Option.bind_none]

theorem downloads_eq (h : Downloads s env attr stream W new file) : file = appliedFile attr := by
  have happ := h.applied
  rw [applyInfo_eq] at happ
  split at happ
  · exact (Option.some.inj happ).symm
  · cases happ

/-! ## exact times -/

theorem nano_ne_zero : nano ≠ 0 := by
  unfold nano
  norm_num

theorem sec_inj {a b : BitVec 64} {x : ℚ} : (a.toInt : ℚ) + x = b.toInt + x ↔ a = b := by
  rw [add_left_inj, Int.cast_inj, BitVec.toInt_inj]

theorem nsec_inj {a b : BitVec 64} {x : ℚ} : x + a.toInt * nano = x + b.toInt * nano ↔ a = b := by
  rw [add_right_inj, mul_left_inj' nano_ne_zero, Int.cast_inj, BitVec.toInt_inj]

/-- **Metadata.**  After a download that succeeds the local file has the mode and the two times of the remote
one, exactly if the two times are the same. -/
theorem downloads_iff (h : Downloads s env attr stream W new file) :
    (file.mode = attr.stMode.toNat ∧ file.atime = attr.stAtim.time ∧ file.mtime = attr.stMtim.time) ↔
      attr.stAtim = attr.stMtim := by
  rw [downloads_eq h]
  constructor
  · intro hsame
    obtain ⟨_, hatime, hmtime⟩ := hsame
    have hsec : attr.stAtim.tvSec = attr.stMtim.tvSec := sec_inj.mp hmtime
    have hatime : attr.stMtim.time = attr.stAtim.time := hatime
    unfold Timespec.time at hatime
    rw [hsec] at hatime
    exact Timespec.ext hsec (nsec_inj.mp hatime).symm
  · intro heq
    refine ⟨rfl, ?_, ?_⟩
    · show attr.stMtim.time = attr.stAtim.time
      rw [heq]
    · show (attr.stAtim.tvSec.toInt : ℚ) + _ = attr.stMtim.time
      rw [heq]
      rfl

/-! ### two times -/

def oneByte : RecvFileEnv := ⟨answer 1, 1, true, fun _ => .data 1, fun _ => true, true, true, true, true⟩

/-- a readable file of one byte, read at one time and written at another -/
def statOf (atime mtime : BitVec 64) : Stat := ⟨1, 0, 0, 0o644, ⟨atime, 0⟩, ⟨mtime, 0⟩⟩

def newFile : LocalFile := ⟨0o600, 0, 0⟩

theorem oneByte_downloads (atime mtime : BitVec 64) :
    Downloads 1 oneByte (statOf atime mtime) [5] startedSession newFile
      (appliedFile (statOf atime mtime)) where
  size := lookup_size
  ends := ⟨_, ⟨3, rfl⟩, rfl⟩
  applied := by
    have hmode : (0o644 : BitVec 32).toNat ≤ Remote.INT_MAX := by decide
    rw [applyInfo_eq, if_pos ⟨⟨rfl, hmode⟩, rfl⟩]

theorem downloads_iff_equal :
    ((appliedFile (statOf 7 7)).mode = (statOf 7 7).stMode.toNat ∧
      (appliedFile (statOf 7 7)).atime = (statOf 7 7).stAtim.time ∧
      (appliedFile (statOf 7 7)).mtime = (statOf 7 7).stMtim.time) ↔
    (statOf 7 7).stAtim = (statOf 7 7).stMtim :=
  downloads_iff (oneByte_downloads 7 7)

/-- a file read one second after it was written gets its times the wrong way round -/
theorem downloads_swaps : ¬ ∀ s env attr stream W new file, Downloads s env attr stream W new file →
    file.mode = attr.stMode.toNat ∧ file.atime = attr.stAtim.time ∧ file.mtime = attr.stMtim.time := by
  intro h
  have h1 := (h _ _ _ _ _ _ _ (oneByte_downloads 2 1)).2.2
  have h2 : (2 : BitVec 64) = 1 := sec_inj.mp h1
  exact absurd h2 (by decide)

end PyLibssh2.Transfer

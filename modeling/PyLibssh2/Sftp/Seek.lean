import Mathlib.Data.Int.Basic

/-!
# Seeking in a remote file

`seek` takes an unsigned `long` and `tell` gives a signed one back; both have 64 bits.

* `toLong_mask`     reading the bits of an integer as a signed `long`;
* `seek_tell_iff`   `tell` returns what `seek` was given exactly for the values of a signed `long`.
-/

set_option linter.unusedSectionVars false

namespace PyLibssh2.Seek

inductive Arg
  | int (n : Int)
  | other

inductive Exc
  /-- `PYLIBSSH2_Error` with "Sftpfile object has been closed/shutdown." -/
  | closed
  | typeError
  deriving DecidableEq

/-- the offset that libssh2 keeps with a handle: `libssh2_sftp_seek64` stores it, `libssh2_sftp_tell64`
returns it -/
structure Libssh2 (η : Type*) where
  seek64 : η → BitVec 64 → η
  tell64 : η → BitVec 64
  tell_seek : ∀ handle offset, tell64 (seek64 handle offset) = offset

structure Sftpfile (η : Type*) where
  handle : Option η

variable {η : Type*}

/-- the format `k`: the value modulo the size of an `unsigned long`, without a check -/
def parseULong : Arg → Except Exc (BitVec 64)
  | .int n => .ok (BitVec.ofInt 64 n)
  | .other => .error .typeError

/-- `PyInt_FromLong` of a value converted to `long` -/
def fromLong (x : BitVec 64) : Int := x.toInt

/-- `PYLIBSSH2_Sftpfile_seek` -/
def seek (lib : Libssh2 η) (self : Sftpfile η) (args : Arg) : Except Exc (Sftpfile η) :=
  match self.handle with
  | none => .error .closed
  | some handle =>
    match parseULong args with
    | .error e => .error e
    | .ok offset => .ok { self with handle := some (lib.seek64 handle offset) }

/-- `PYLIBSSH2_Sftpfile_tell` -/
def tell (lib : Libssh2 η) (self : Sftpfile η) : Except Exc Int :=
  match self.handle with
  | none => .error .closed
  | some handle => .ok (fromLong (lib.tell64 handle))

/-- `LONG_MIN` and one more than `LONG_MAX` -/
def longMin : Int := -9223372036854775808
def longEnd : Int := 9223372036854775808

theorem toLong_mask (n : Int) : fromLong (BitVec.ofInt 64 n) = n ↔ longMin ≤ n ∧ n < longEnd := by
  unfold fromLong longMin longEnd
  rw [BitVec.toInt_ofInt]
  have hpow : (2 : Nat) ^ 64 = 18446744073709551616 := by decide
  rw [hpow, Int.bmod_def]
  split <;> omega

theorem seek_open (lib : Libssh2 η) (handle : η) (n : Int) :
    seek lib ⟨some handle⟩ (.int n) = .ok ⟨some (lib.seek64 handle (BitVec.ofInt 64 n))⟩ := rfl

theorem tell_seek (lib : Libssh2 η) (handle : η) (offset : BitVec 64) :
    tell lib ⟨some (lib.seek64 handle offset)⟩ = .ok (fromLong offset) := by
  show Except.ok (fromLong (lib.tell64 (lib.seek64 handle offset))) = _
  rw [lib.tell_seek]

/-- **Seek and tell.**  For every integer: if `seek` returns then `tell` returns the integer, exactly if
the file is closed, so that `seek` raises, or the integer is a value of a signed `long`. -/
theorem seek_tell_iff (lib : Libssh2 η) (self : Sftpfile η) (n : Int) :
    (∀ self', seek lib self (.int n) = .ok self' → tell lib self' = .ok n) ↔
      self.handle = none ∨ longMin ≤ n ∧ n < longEnd := by
  obtain ⟨_ | handle⟩ := self
  · refine ⟨fun _ => Or.inl rfl, fun _ self' h => ?_⟩
    cases h
  · constructor
    · intro h
      have h1 := h _ (seek_open lib handle n)
      rw [tell_seek] at h1
      exact Or.inr ((toLong_mask n).mp (Except.ok.inj h1))
    · intro h self' hs
      rw [seek_open] at hs
      cases hs
      rw [tell_seek]
      rcases h with h | h
      · cases h
      · rw [(toLong_mask n).mpr h]

def plainHandle : Libssh2 (BitVec 64) := ⟨fun _ offset => offset, id, fun _ _ => rfl⟩

theorem seek_wraps : ¬ ∀ (lib : Libssh2 (BitVec 64)) (self self' : Sftpfile (BitVec 64)) (n : Int),
    seek lib self (.int n) = .ok self' → tell lib self' = .ok n := by
  intro h
  have h1 := h plainHandle ⟨some 0⟩ _ longEnd (seek_open _ _ _)
  rw [tell_seek] at h1
  exact absurd ((toLong_mask longEnd).mp (Except.ok.inj h1)).2 (Int.lt_irrefl _)

end PyLibssh2.Seek

import PyLibssh2.Ext.Own

/-!
# Comparing wrappers

A `tp_compare` slot has to return `0` for equal objects and results of opposite sign for the two orders,
and objects that compare equal have to have one hash.  `PYLIBSSH2_Sftp_cmp` and `PYLIBSSH2_Session_cmp`
return the truth value of the equality instead: `1` for equal pointers, `0` for different ones.

The objects below are any two, from one state or from different ones, open or closed; pointers are
compared by their addresses, which libssh2 may reuse.
-/

set_option linter.unusedSectionVars false

namespace PyLibssh2

open World

variable {a b : Obj}

/-! ## sftps -/

theorem sftpCmp_same (h : SamePointers a b) : sftpCmp a b = 1 := if_pos h

theorem sftpCmp_other (h : ¬ SamePointers a b) : sftpCmp a b = 0 := if_neg h

theorem SamePointers.symm (h : SamePointers a b) : SamePointers b a := ⟨h.1.symm, h.2.symm⟩

theorem sftpCmp_zero_iff : sftpCmp a b = 0 ↔ ¬ SamePointers a b := by
  by_cases h : SamePointers a b
  · rw [sftpCmp_same h]
    exact ⟨fun h0 => absurd h0 (by decide), fun hn => absurd h hn⟩
  · exact ⟨fun _ => h, fun _ => sftpCmp_other h⟩

theorem sftpCmp_symm (a b : Obj) : sftpCmp a b = sftpCmp b a := by
  by_cases h : SamePointers a b
  · rw [sftpCmp_same h, sftpCmp_same h.symm]
  · rw [sftpCmp_other h, sftpCmp_other fun h1 => h h1.symm]

/-- what the sets of the extension rely on -/
structure SftpContract (a b : Obj) : Prop where
  zero : sftpCmp a b = 0 ↔ SamePointers a b
  sign : (sftpCmp a b).sign = -(sftpCmp b a).sign
  hash : sftpCmp a b = 0 → sftpHash a = sftpHash b

theorem not_zero_iff_same : ¬ (sftpCmp a b = 0 ↔ SamePointers a b) := by
  intro h
  by_cases hs : SamePointers a b
  · exact sftpCmp_zero_iff.mp (h.mpr hs) hs
  · exact hs (h.mp (sftpCmp_other hs))

theorem sign_iff : (sftpCmp a b).sign = -(sftpCmp b a).sign ↔ ¬ SamePointers a b := by
  rw [← sftpCmp_symm a b]
  by_cases h : SamePointers a b
  · rw [sftpCmp_same h]
    exact ⟨fun h1 => absurd h1 (by decide), fun hn => absurd h hn⟩
  · rw [sftpCmp_other h]
    exact ⟨fun _ => h, fun _ => by decide⟩

theorem hash_iff : (sftpCmp a b = 0 → sftpHash a = sftpHash b) ↔
    SamePointers a b ∨ sftpHash a = sftpHash b := by
  rw [sftpCmp_zero_iff]
  constructor
  · intro h
    by_cases hs : SamePointers a b
    · exact Or.inl hs
    · exact Or.inr (h hs)
  · intro h hs
    rcases h with h1 | h1
    · exact absurd h1 hs
    · exact h1

/-! ## sessions -/

/-- two sessions with one libssh2 session -/
def SameSession (o1 o2 : Obj) : Prop := o1.ptr.map Ptr.addr = o2.ptr.map Ptr.addr

instance (o1 o2 : Obj) : Decidable (SameSession o1 o2) := by
  unfold SameSession
  infer_instance

/-- `PYLIBSSH2_Session_cmp` -/
def sessionCmp (o1 o2 : Obj) : Int := if SameSession o1 o2 then 1 else 0

theorem not_session_zero_iff : ¬ (sessionCmp a b = 0 ↔ SameSession a b) := by
  intro h
  by_cases hs : SameSession a b
  · have h1 : sessionCmp a b = 1 := if_pos hs
    rw [h.mpr hs] at h1
    cases h1
  · exact hs (h.mp (if_neg hs))

/-- **Comparing.**  No two sftps meet the contract and no two sessions do: the result is `0` exactly for
different pointers.  The signs are opposite exactly for different pointers, and an equal result comes with
equal hashes exactly for the same pointers and for objects that hash alike anyway. -/
theorem cmp_contract_fails (a b : Obj) :
    (¬ SftpContract a b ∧ ¬ (sessionCmp a b = 0 ↔ SameSession a b)) ∧
      ((sftpCmp a b).sign = -(sftpCmp b a).sign ↔ ¬ SamePointers a b) ∧
      ((sftpCmp a b = 0 → sftpHash a = sftpHash b) ↔
        SamePointers a b ∨ sftpHash a = sftpHash b) :=
  ⟨⟨fun h => not_zero_iff_same h.zero, not_session_zero_iff⟩, sign_iff, hash_iff⟩

/-- an sftp is not equal to itself -/
theorem sftpCmp_irreflexive : ¬ ∀ as W x y a b, Trans.Run Step World.empty as W →
    W.heap x = some a → W.heap y = some b → a.kind = .sftp → b.kind = .sftp → SftpContract a b := by
  intro h
  obtain ⟨as, hr⟩ := withSftp_run
  have h3 := h as withSftp 3 3 _ _ hr rfl rfl rfl rfl
  exact not_zero_iff_same h3.zero

end PyLibssh2

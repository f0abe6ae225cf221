import Mathlib.Data.List.TakeWhile

/-!
# The digest of the host key

`Session.hostkey_hash` copies the digest that libssh2 holds into a buffer, ends it with a zero byte, and
makes a Python string of the buffer as C reads it.

* `fromString_eq_iff`   a C string is the buffer exactly if the buffer has no zero byte in it;
* `hostkeyHash_whole_iff`  digests come back whole, and differ when the digests do, exactly if neither has a
  zero byte.
-/

set_option linter.unusedSectionVars false

namespace PyLibssh2.Hostkey

/-- the hash types the facade documents -/
inductive HashType
  | md5 | sha1
  deriving DecidableEq

/-- `LIBSSH2_HOSTKEY_HASH_MD5` and `LIBSSH2_HOSTKEY_HASH_SHA1` -/
def HashType.code : HashType → Int
  | .md5 => 1
  | .sha1 => 2

def HashType.size : HashType → Nat
  | .md5 => 16
  | .sha1 => 20

structure Digest (t : HashType) where
  bytes : List UInt8
  len : bytes.length = t.size

/-- `libssh2_hostkey_hash` of a session: the bytes at the pointer it returns, `none` for `NULL` -/
abbrev HashFn := Int → Option (List UInt8)

/-- the length `PYLIBSSH2_Session_hostkey_hash` copies -/
def copied (hashtype : Int) : Nat :=
  if hashtype = 1 then 16
  else if hashtype = 2 then 20
  else 0

/-- `PyString_FromString`: up to the first zero byte -/
def fromString (buff : List UInt8) : List UInt8 := buff.takeWhile fun c => c ≠ 0

/-- `PYLIBSSH2_Session_hostkey_hash`; `none` is Python's `None` -/
def hostkeyHash (libssh2 : HashFn) (arg : Option Int) : Option (List UInt8) :=
  let hashtype := arg.getD 1
  match libssh2 hashtype with
  | none => none
  | some hash =>
    let buff := hash.take (copied hashtype) ++ [0]
    some (fromString buff)

/-- `Session.hostkey_hash` of the facade -/
def Session.hostkeyHash (libssh2 : HashFn) (hashtype : Int) : Option (List UInt8) :=
  Hostkey.hostkeyHash libssh2 (some hashtype)

variable {t : HashType} {libssh2 libssh2' : HashFn}

theorem copied_code (t : HashType) : copied t.code = t.size := by cases t <;> rfl

theorem fromString_end (bytes : List UInt8) : fromString (bytes ++ [0]) = fromString bytes := by
  induction bytes with
  | nil => rfl
  | cons c bytes ih =>
    unfold fromString at ih ⊢
    rw [List.cons_append, List.takeWhile_cons, List.takeWhile_cons, ih]

theorem zero_notMem_fromString (bytes : List UInt8) : 0 ∉ fromString bytes := by
  intro h
  have h1 := List.mem_takeWhile_imp (p := fun c : UInt8 => decide (c ≠ 0)) h
  exact absurd rfl (of_decide_eq_true h1)

theorem fromString_eq_iff (bytes : List UInt8) : fromString bytes = bytes ↔ 0 ∉ bytes := by
  constructor
  · intro h
    rw [← h]
    exact zero_notMem_fromString bytes
  · intro h
    refine List.takeWhile_eq_self_iff.mpr fun c hc => decide_eq_true ?_
    exact fun h0 => h (h0 ▸ hc)

theorem hostkeyHash_eq (d : Digest t) (hd : libssh2 t.code = some d.bytes) :
    Session.hostkeyHash libssh2 t.code = some (fromString d.bytes) := by
  have hall : d.bytes.take t.size = d.bytes := List.take_of_length_le (Nat.le_of_eq d.len)
  unfold Session.hostkeyHash hostkeyHash
  simp only [Option.getD_some, hd]
  rw [copied_code, hall, fromString_end]

/-- **Whole digests.**  For two host keys, both digests come back whole and differ if the digests do,
exactly if there is no zero byte in either. -/
theorem hostkeyHash_whole_iff (d e : Digest t) (hd : libssh2 t.code = some d.bytes)
    (he : libssh2' t.code = some e.bytes) :
    (Session.hostkeyHash libssh2 t.code = some d.bytes ∧
      Session.hostkeyHash libssh2' t.code = some e.bytes ∧
      (d.bytes ≠ e.bytes →
        Session.hostkeyHash libssh2 t.code ≠ Session.hostkeyHash libssh2' t.code)) ↔
    0 ∉ d.bytes ∧ 0 ∉ e.bytes := by
  rw [hostkeyHash_eq d hd, hostkeyHash_eq e he, Option.some.injEq, Option.some.injEq,
    fromString_eq_iff, fromString_eq_iff]
  constructor
  · intro h
    exact ⟨h.1, h.2.1⟩
  · intro h
    refine ⟨h.1, h.2, fun hne heq => hne ?_⟩
    have h1 := (fromString_eq_iff d.bytes).mpr h.1
    have h2 := (fromString_eq_iff e.bytes).mpr h.2
    rw [← h1, ← h2]
    exact Option.some.inj heq

/-! ### two keys -/

/-- the digest of sixteen bytes with the first byte `c` -/
def digestOf (c x : UInt8) : Digest .md5 := ⟨c :: List.replicate 15 x, rfl⟩

/-- a session whose host key has the digest `d` -/
def holding (d : Digest .md5) : HashFn := fun hashtype => if hashtype = 1 then some d.bytes else none

theorem hostkeyHash_whole_iff_ones :
    (Session.hostkeyHash (holding (digestOf 1 1)) 1 = some (digestOf 1 1).bytes ∧
      Session.hostkeyHash (holding (digestOf 2 1)) 1 = some (digestOf 2 1).bytes ∧
      ((digestOf 1 1).bytes ≠ (digestOf 2 1).bytes →
        Session.hostkeyHash (holding (digestOf 1 1)) 1 ≠
          Session.hostkeyHash (holding (digestOf 2 1)) 1)) ↔
    0 ∉ (digestOf 1 1).bytes ∧ 0 ∉ (digestOf 2 1).bytes :=
  hostkeyHash_whole_iff (digestOf 1 1) (digestOf 2 1) rfl rfl

/-- two keys with digests that begin with a zero byte both give the empty string -/
theorem hostkeyHash_truncates : ¬ ∀ (t : HashType) (libssh2 libssh2' : HashFn) (d e : Digest t),
    libssh2 t.code = some d.bytes → libssh2' t.code = some e.bytes →
    Session.hostkeyHash libssh2 t.code = some d.bytes ∧
      Session.hostkeyHash libssh2' t.code = some e.bytes ∧
      (d.bytes ≠ e.bytes →
        Session.hostkeyHash libssh2 t.code ≠ Session.hostkeyHash libssh2' t.code) := by
  intro h
  refine (h .md5 (holding (digestOf 0 1)) (holding (digestOf 0 2)) (digestOf 0 1) (digestOf 0 2)
    rfl rfl).2.2 (by decide) ?_
  rfl

end PyLibssh2.Hostkey

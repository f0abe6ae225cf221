import Mathlib.Data.List.AList
import PyLibssh2.Sftp.Remote

/-!
# File attributes

`get_stat` turns the record libssh2 fills in into a dictionary, `set_stat` turns a dictionary into the
record libssh2 sends.

* `sftpAttrsToStatdict`  a dictionary with all keys, whatever the flags of the record say;
* `setStatAttrs`         the variable `attr` of `PYLIBSSH2_Sftp_set_stat` when libssh2 is called: a group
  of fields is sent if its keys are there, but only `permissions` and `uid` are ever written;
* `setStat_encodes_iff`  when the record says what the dictionary says;
* `setStat_getStat_iff`  when writing back what was read sends no group that was not reported.
-/

set_option linter.unusedSectionVars false
set_option linter.unusedVariables false

namespace PyLibssh2.Remote

/-! ## records and dictionaries -/

/-- `LIBSSH2_SFTP_ATTRIBUTES`; `ν` is what is known of a field besides the flags -/
structure Attributes (ν : Type) where
  flags : BitVec 64
  filesize : ν
  uid : ν
  gid : ν
  permissions : ν
  atime : ν
  mtime : ν
  deriving DecidableEq

/-- a record that libssh2 has filled in -/
abbrev Record := Attributes (BitVec 64)

/-- a record on the C stack: `none` is a field that has not been written -/
abbrev Variable := Attributes (Option (BitVec 64))

def attrUidgid : BitVec 64 := 0x2
def attrPermissions : BitVec 64 := 0x4
def attrAcmodtime : BitVec 64 := 0x8

/-- a dictionary of integers, none of them negative -/
abbrev StatDict := AList fun _ : String => Nat

/-- `sftp_attrs_to_statdict` -/
def sftpAttrsToStatdict (attr : Record) : StatDict :=
  let attrs : StatDict := ∅
  let attrs := attrs.insert "st_size" attr.filesize.toNat
  let attrs := attrs.insert "st_uid" attr.uid.toNat
  let attrs := attrs.insert "st_gid" attr.gid.toNat
  let attrs := attrs.insert "st_mode" attr.permissions.toNat
  let attrs := attrs.insert "st_atime" attr.atime.toNat
  let attrs := attrs.insert "st_mtime" attr.mtime.toNat
  attrs.insert "st_flags" attr.flags.toNat

def LONG_MAX : Nat := 9223372036854775807
def ULONG_MAX : Nat := 18446744073709551615

/-- `PyLong_AsLong` stored in an `unsigned long`: a number that is no `long` gives `-1` -/
def asLong (v : Nat) : BitVec 64 := if v ≤ LONG_MAX then BitVec.ofNat 64 v else -1

/-- `PyMapping_HasKeyString` -/
def hasKeyString (attrs : StatDict) (key : String) : Bool := (attrs.lookup key).isSome

/-- `PyLong_AsLong(PyDict_GetItemString(attrs, key))` -/
def getLong (attrs : StatDict) (key : String) : Option (BitVec 64) := (attrs.lookup key).map asLong

/-- `attr.flags = 0` -/
def Variable.start : Variable := ⟨0, none, none, none, none, none, none⟩

/-- the block of `st_mode` -/
def putMode (attrs : StatDict) (attr : Variable) : Variable :=
  if hasKeyString attrs "st_mode" then
    { attr with flags := attr.flags ||| attrPermissions, permissions := getLong attrs "st_mode" }
  else attr

/-- the block of two keys that are sent together; both assignments are to `attr.uid` -/
def putPair (flag : BitVec 64) (key1 key2 : String) (attrs : StatDict) (attr : Variable) : Variable :=
  if hasKeyString attrs key1 && hasKeyString attrs key2 then
    let attr :=
      if hasKeyString attrs key1 then
        { attr with flags := attr.flags ||| flag, uid := getLong attrs key1 }
      else attr
    if hasKeyString attrs key2 then
      { attr with flags := attr.flags ||| flag, uid := getLong attrs key2 }
    else attr
  else attr

/-- the block of `st_uid` and `st_gid` -/
def putUidgid : StatDict → Variable → Variable := putPair attrUidgid "st_uid" "st_gid"

/-- the block of `st_atime` and `st_mtime` -/
def putAcmodtime : StatDict → Variable → Variable := putPair attrAcmodtime "st_atime" "st_mtime"

/-- `attr` when `PYLIBSSH2_Sftp_set_stat` passes it to `libssh2_sftp_setstat` -/
def setStatAttrs (attrs : StatDict) : Variable :=
  let attr := Variable.start
  let attr := putMode attrs attr
  let attr := putUidgid attrs attr
  putAcmodtime attrs attr

/-! ## the requests -/

/-- the `switch` of `PYLIBSSH2_Sftp_get_stat` and `PYLIBSSH2_Sftp_set_stat`; `what` names the request in
the default branch -/
def statError (what : String) : Reply → Option PyExc
  | .ok => none
  | .status code => some (errnoToException code)
  | .fault rc errmsg => some <| .error <|
    if rc = errorAlloc then "An internal memory allocation call failed: " ++ errmsg
    else if rc = errorSocketSend then "Unable to send data on socket: " ++ errmsg
    else if rc = errorSocketTimeout then "LIBSSH2_ERROR_SOCKET_TIMEOUT: " ++ errmsg
    else "Unable to " ++ what ++ " " ++ toString rc ++ ": " ++ errmsg

/-- `PYLIBSSH2_Sftp_get_stat`; libssh2 fills in `attr` if the reply is `ok` -/
def getStat (isOpen : Bool) (reply : Reply) (attr : Record) : Except PyExc StatDict :=
  if isOpen then
    match statError "get stat" reply with
    | some e => .error e
    | none => .ok (sftpAttrsToStatdict attr)
  else .error closedError

/-- `PYLIBSSH2_Sftp_set_stat`, with the record handed to libssh2; an `OverflowError` that `PyLong_AsLong` leaves
behind is not a result of this method -/
def setStat (isOpen : Bool) (reply : Reply) (attrs : StatDict) : Option Variable × Except PyExc Unit :=
  if isOpen then
    match statError "set file stat" reply with
    | some e => (some (setStatAttrs attrs), .error e)
    | none => (some (setStatAttrs attrs), .ok ())
  else (none, .error closedError)

variable {attrs : StatDict} {attr : Record} {key : String} {a b c : Bool}

/-! ## what is written -/

def hasPair (attrs : StatDict) (key1 key2 : String) : Bool :=
  hasKeyString attrs key1 && hasKeyString attrs key2

theorem putPair_eq (flag : BitVec 64) (key1 key2 : String) (attrs : StatDict) (attr : Variable) :
    putPair flag key1 key2 attrs attr =
      if hasPair attrs key1 key2 then
        { attr with flags := attr.flags ||| flag, uid := getLong attrs key2 }
      else attr := by
  unfold putPair hasPair
  cases h1 : hasKeyString attrs key1 with
  | false => rfl
  | true =>
    cases h2 : hasKeyString attrs key2 with
    | false => rfl
    | true =>
      simp only [Bool.and_self, if_true]
      rw [BitVec.or_assoc, BitVec.or_self]

theorem getLong_eq_none : getLong attrs key = none ↔ hasKeyString attrs key = false := by
  unfold getLong hasKeyString
  cases attrs.lookup key <;> simp

theorem putPair_flags (flag : BitVec 64) (key1 key2 : String) (attrs : StatDict) (attr : Variable) :
    (putPair flag key1 key2 attrs attr).flags =
      attr.flags ||| if hasPair attrs key1 key2 then flag else 0 := by
  rw [putPair_eq]
  cases hasPair attrs key1 key2 with
  | false => exact BitVec.or_zero.symm
  | true => rfl

theorem putMode_flags (attrs : StatDict) (attr : Variable) : (putMode attrs attr).flags =
    attr.flags ||| if hasKeyString attrs "st_mode" then attrPermissions else 0 := by
  unfold putMode
  cases hasKeyString attrs "st_mode" with
  | false => exact BitVec.or_zero.symm
  | true => rfl

def flagsOf (permissions uidgid acmodtime : Bool) : BitVec 64 :=
  0 ||| (if permissions then attrPermissions else 0) ||| (if uidgid then attrUidgid else 0) |||
    if acmodtime then attrAcmodtime else 0

theorem setStatAttrs_flags (attrs : StatDict) : (setStatAttrs attrs).flags =
    flagsOf (hasKeyString attrs "st_mode") (hasPair attrs "st_uid" "st_gid")
      (hasPair attrs "st_atime" "st_mtime") := by
  unfold setStatAttrs putAcmodtime putUidgid
  rw [putPair_flags, putPair_flags, putMode_flags]
  rfl

theorem setStatAttrs_permissions (attrs : StatDict) :
    (setStatAttrs attrs).permissions = getLong attrs "st_mode" := by
  have hmode : (putMode attrs Variable.start).permissions = getLong attrs "st_mode" := by
    unfold putMode
    cases h : hasKeyString attrs "st_mode" with
    | false => exact (getLong_eq_none.mpr h).symm
    | true => rfl
  unfold setStatAttrs putAcmodtime putUidgid
  simp only [putPair_eq]
  split_ifs <;> exact hmode

theorem setStatAttrs_unwritten (attrs : StatDict) : (setStatAttrs attrs).gid = none ∧
    (setStatAttrs attrs).atime = none ∧ (setStatAttrs attrs).mtime = none := by
  unfold setStatAttrs putAcmodtime putUidgid putMode
  simp only [putPair_eq]
  split_ifs <;> exact ⟨rfl, rfl, rfl⟩

/-! ## the groups of a record -/

/-- the record has the group of `flag` -/
def Attributes.Has {ν : Type} (attr : Attributes ν) (flag : BitVec 64) : Prop :=
  attr.flags &&& flag ≠ 0

theorem setStatAttrs_has (attrs : StatDict) :
    ((setStatAttrs attrs).Has attrPermissions ↔ hasKeyString attrs "st_mode" = true) ∧
    ((setStatAttrs attrs).Has attrUidgid ↔ hasPair attrs "st_uid" "st_gid" = true) ∧
    ((setStatAttrs attrs).Has attrAcmodtime ↔ hasPair attrs "st_atime" "st_mtime" = true) := by
  unfold Attributes.Has
  rw [setStatAttrs_flags]
  generalize hasKeyString attrs "st_mode" = a
  generalize hasPair attrs "st_uid" "st_gid" = b
  generalize hasPair attrs "st_atime" "st_mtime" = c
  revert a b c
  decide

/-- the field is what the dictionary has under `key` -/
def Carries (attrs : StatDict) (field : Option (BitVec 64)) (key : String) : Prop :=
  ∃ v, attrs.lookup key = some v ∧ ∃ w, field = some w ∧ w.toNat = v

structure Encodes (attrs : StatDict) (attr : Variable) : Prop where
  permissions : attr.Has attrPermissions ↔ hasKeyString attrs "st_mode" = true
  uidgid : attr.Has attrUidgid ↔ hasPair attrs "st_uid" "st_gid" = true
  acmodtime : attr.Has attrAcmodtime ↔ hasPair attrs "st_atime" "st_mtime" = true
  mode : attr.Has attrPermissions → Carries attrs attr.permissions "st_mode"
  owner : attr.Has attrUidgid → Carries attrs attr.uid "st_uid" ∧ Carries attrs attr.gid "st_gid"
  times : attr.Has attrAcmodtime →
    Carries attrs attr.atime "st_atime" ∧ Carries attrs attr.mtime "st_mtime"

theorem asLong_toNat {v : Nat} : (asLong v).toNat = v ↔ v ≤ LONG_MAX ∨ v = ULONG_MAX := by
  unfold asLong
  by_cases h : v ≤ LONG_MAX
  · rw [if_pos h, BitVec.toNat_ofNat]
    have h1 : v ≤ 9223372036854775807 := h
    exact ⟨fun _ => Or.inl h, fun _ => Nat.mod_eq_of_lt (by omega)⟩
  · rw [if_neg h]
    have h1 : (-1 : BitVec 64).toNat = ULONG_MAX := rfl
    rw [h1]
    constructor
    · exact fun h2 => Or.inr h2.symm
    · rintro (h2 | h2)
      · exact absurd h2 h
      · exact h2.symm

theorem carries_getLong : Carries attrs (getLong attrs key) key ↔
    ∃ v, attrs.lookup key = some v ∧ (v ≤ LONG_MAX ∨ v = ULONG_MAX) := by
  unfold Carries getLong
  constructor
  · rintro ⟨v, hv, w, hw, hwv⟩
    rw [hv, Option.map_some] at hw
    rw [← Option.some.inj hw] at hwv
    exact ⟨v, hv, asLong_toNat.mp hwv⟩
  · rintro ⟨v, hv, h⟩
    exact ⟨v, hv, asLong v, by rw [hv, Option.map_some], asLong_toNat.mpr h⟩

theorem not_carries_none : ¬ Carries attrs none key := by
  rintro ⟨v, _, w, hw, _⟩
  cases hw

theorem setStat_sent (reply : Reply) (attrs : StatDict) :
    (setStat true reply attrs).1 = some (setStatAttrs attrs) := by
  rw [setStat, if_pos rfl]
  cases statError "set file stat" reply <;> rfl

/-- **When `set_stat` sends what the dictionary says.**  Owners and times are never sent right: the
group id and both times stay unwritten. -/
theorem setStat_encodes_iff (reply : Reply) (attrs : StatDict) :
    (∃ attr, (setStat true reply attrs).1 = some attr ∧ Encodes attrs attr) ↔
      hasPair attrs "st_uid" "st_gid" = false ∧ hasPair attrs "st_atime" "st_mtime" = false ∧
      ∀ v, attrs.lookup "st_mode" = some v → v ≤ LONG_MAX ∨ v = ULONG_MAX := by
  have hsent := setStat_sent reply attrs
  obtain ⟨hmode, howner, htimes⟩ := setStatAttrs_has attrs
  obtain ⟨hgid, hatime, _⟩ := setStatAttrs_unwritten attrs
  constructor
  · rintro ⟨attr, hattr, h⟩
    rw [hsent] at hattr
    cases hattr
    refine ⟨?_, ?_, fun v hv => ?_⟩
    · by_contra hp
      have h1 := (h.owner (howner.mpr (by simpa using hp))).2
      rw [hgid] at h1
      exact not_carries_none h1
    · by_contra hp
      have h1 := (h.times (htimes.mpr (by simpa using hp))).1
      rw [hatime] at h1
      exact not_carries_none h1
    · have hkey : hasKeyString attrs "st_mode" = true := by rw [hasKeyString, hv]; rfl
      have h1 := h.mode (hmode.mpr hkey)
      rw [setStatAttrs_permissions] at h1
      obtain ⟨u, hu, h2⟩ := carries_getLong.mp h1
      rw [hv] at hu
      rwa [Option.some.inj hu]
  · rintro ⟨h1, h2, h3⟩
    refine ⟨_, hsent, hmode, howner, htimes, fun h4 => ?_, fun h4 => ?_, fun h4 => ?_⟩
    · rw [setStatAttrs_permissions]
      obtain ⟨v, hv⟩ := Option.isSome_iff_exists.mp (hmode.mp h4)
      exact carries_getLong.mpr ⟨v, hv, h3 v hv⟩
    · rw [howner.mp h4] at h1
      cases h1
    · rw [htimes.mp h4] at h2
      cases h2

/-- the group id of a dictionary with an owner is not sent -/
theorem setStat_loses_gid : ¬ ∀ (reply : Reply) (attrs : StatDict),
    (∀ key v, attrs.lookup key = some v → v ≤ LONG_MAX) →
    ∃ attr, (setStat true reply attrs).1 = some attr ∧ Encodes attrs attr := by
  intro hall
  let attrs : StatDict := ((∅ : StatDict).insert "st_uid" 500).insert "st_gid" 100
  have hfit : ∀ key v, attrs.lookup key = some v → v ≤ LONG_MAX := by
    intro key v hv
    by_cases h1 : key = "st_gid"
    · rw [h1, AList.lookup_insert] at hv
      rw [← Option.some.inj hv]
      decide
    · rw [AList.lookup_insert_ne h1] at hv
      by_cases h2 : key = "st_uid"
      · rw [h2, AList.lookup_insert] at hv
        rw [← Option.some.inj hv]
        decide
      · rw [AList.lookup_insert_ne h2] at hv
        cases hv
  obtain ⟨attr, hattr, h⟩ := hall .ok attrs hfit
  cases hattr
  have hpair : hasPair attrs "st_uid" "st_gid" = true := by decide
  obtain ⟨_, v, _, w, hw, _⟩ := h.owner (h.uidgid.mpr hpair)
  rw [(setStatAttrs_unwritten attrs).1] at hw
  cases hw

/-! ## writing back what was read -/

theorem sftpAttrsToStatdict_keys (attr : Record) :
    hasKeyString (sftpAttrsToStatdict attr) "st_mode" = true ∧
    hasPair (sftpAttrsToStatdict attr) "st_uid" "st_gid" = true ∧
    hasPair (sftpAttrsToStatdict attr) "st_atime" "st_mtime" = true := by
  unfold hasPair hasKeyString
  simp only [AList.lookup_isSome, Bool.and_eq_true]
  simp [sftpAttrsToStatdict, AList.mem_insert]

theorem setStatAttrs_statdict (attr : Record) : (setStatAttrs (sftpAttrsToStatdict attr)).flags =
    attrPermissions ||| attrUidgid ||| attrAcmodtime := by
  obtain ⟨h1, h2, h3⟩ := sftpAttrsToStatdict_keys attr
  rw [setStatAttrs_flags, h1, h2, h3]
  decide

theorem flags_subset (r : BitVec 64) :
    (attrPermissions ||| attrUidgid ||| attrAcmodtime) &&& r =
      attrPermissions ||| attrUidgid ||| attrAcmodtime ↔
    r &&& attrUidgid ≠ 0 ∧ r &&& attrPermissions ≠ 0 ∧ r &&& attrAcmodtime ≠ 0 := by
  have h1 : r &&& attrUidgid = if r.getLsbD 1 then attrUidgid else 0 := BitVec.and_twoPow r 1
  have h2 : r &&& attrPermissions = if r.getLsbD 2 then attrPermissions else 0 :=
    BitVec.and_twoPow r 2
  have h3 : r &&& attrAcmodtime = if r.getLsbD 3 then attrAcmodtime else 0 := BitVec.and_twoPow r 3
  rw [BitVec.and_comm, BitVec.and_or_distrib_left, BitVec.and_or_distrib_left, h1, h2, h3]
  generalize r.getLsbD 1 = a
  generalize r.getLsbD 2 = b
  generalize r.getLsbD 3 = c
  revert a b c
  decide

/-- **When writing back what was read asks for nothing that was not reported.**  All three groups are
sent whatever the server reported, so it must have reported all three. -/
theorem setStat_getStat_iff (reply : Reply) (attr : Record) :
    (∀ attrs, getStat true .ok attr = .ok attrs →
      ∃ sent, (setStat true reply attrs).1 = some sent ∧ sent.flags &&& attr.flags = sent.flags) ↔
    attr.Has attrUidgid ∧ attr.Has attrPermissions ∧ attr.Has attrAcmodtime := by
  have hget : getStat true .ok attr = .ok (sftpAttrsToStatdict attr) := rfl
  have hsent := setStat_sent reply (sftpAttrsToStatdict attr)
  constructor
  · intro h
    obtain ⟨sent, h1, h2⟩ := h _ hget
    rw [hsent] at h1
    cases h1
    rw [setStatAttrs_statdict] at h2
    exact (flags_subset attr.flags).mp h2
  · intro h attrs hattrs
    rw [hget] at hattrs
    cases hattrs
    refine ⟨_, hsent, ?_⟩
    rw [setStatAttrs_statdict]
    exact (flags_subset attr.flags).mpr h

/-- a server that reports permissions only is asked to set the owner to 0 and the times to the epoch -/
theorem setStat_adds_groups : ¬ ∀ (reply : Reply) (attr : Record),
    (¬ attr.Has attrUidgid → attr.uid = 0 ∧ attr.gid = 0) →
    (¬ attr.Has attrAcmodtime → attr.atime = 0 ∧ attr.mtime = 0) →
    ∀ attrs, getStat true .ok attr = .ok attrs →
      ∃ sent, (setStat true reply attrs).1 = some sent ∧
        sent.flags &&& attr.flags = sent.flags := by
  intro hall
  let attr : Record := ⟨attrPermissions, 0, 0, 0, 0o644, 0, 0⟩
  obtain ⟨sent, h1, h2⟩ := hall .ok attr (fun _ => ⟨rfl, rfl⟩) (fun _ => ⟨rfl, rfl⟩) _ rfl
  cases h1
  rw [setStatAttrs_statdict] at h2
  exact absurd h2 (by decide)

end PyLibssh2.Remote

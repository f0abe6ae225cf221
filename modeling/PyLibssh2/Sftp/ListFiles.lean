import PyLibssh2.Base.Loop
import PyLibssh2.Sftp.Stat

/-!
# Listing a directory

`PYLIBSSH2_Sftpdir_list_files` calls `libssh2_sftp_readdir` with a new buffer of 255 bytes until it
returns `0`, cuts the buffer to the length that is returned, and enters it in a dictionary.

* `listRound`       one round of `while (1)`; `-1` is the only error code it looks for, the others
  make `_PyString_Resize` fail, and then `None` is returned with the exception of that function set;
* `listFiles_iff`   the listing is right, or the method raises, exactly if the directory ends with `0`
  or `-1`.
-/

set_option linter.unusedSectionVars false
set_option linter.unusedVariables false

namespace PyLibssh2.Remote

open Loop

/-! ## the directory -/

/-- what one call of `libssh2_sftp_readdir` leaves: the code, the buffer, and the attributes -/
structure Readdir where
  rc : Int
  buffer : List UInt8
  attrs : Record

structure Entry where
  name : List UInt8
  attrs : Record

def longentryMaxlen : Nat := 255

/-- the buffer after a call that wrote `name` to it -/
def filled (name : List UInt8) : List UInt8 :=
  name ++ List.replicate (longentryMaxlen - name.length) 0

/-- the calls on a directory with these entries that ends with the code `final`; `junk` is what the
attributes are when there is no entry -/
def readdirOf (entries : List Entry) (final : Int) (junk : Record) (i : Nat) : Readdir :=
  match entries[i]? with
  | some e => ⟨e.name.length, filled e.name, e.attrs⟩
  | none => ⟨final, filled [], junk⟩

/-! ## the method -/

abbrev Listing := AList fun _ : List UInt8 => StatDict

/-- what a C function returns that is not `NULL` -/
inductive Listed
  | none
  | dict (d : Listing)

/-- the exception that is set -/
inductive Indicator
  | exc (e : PyExc)
  /-- `SystemError`, set by `_PyString_Resize` -/
  | internal
  deriving DecidableEq

/-- what a C function leaves: the value, `none` for `NULL`, and the exception that is set -/
structure ListEnd where
  value : Option Listed
  set : Option Indicator

/-- the number of calls so far, and `dict` -/
structure ListState where
  i : Nat
  dict : Listing

/-- `_PyString_Resize` refuses a negative length -/
def resizeFails (len : Int) : Bool := len < 0

/-- one round of `while (1)` -/
def listRound (readdir : Nat → Readdir) (st : ListState) : Round ListState ListEnd :=
  let r := readdir st.i
  if r.rc = 0 then .stop ⟨some (.dict st.dict), none⟩
  else if r.rc = -1 then .stop ⟨none, some (.exc (.error "Unable to listdir."))⟩
  else if r.rc ≠ longentryMaxlen ∧ resizeFails r.rc then .stop ⟨some .none, some .internal⟩
  else
    .next ⟨st.i + 1, st.dict.insert (r.buffer.take r.rc.toNat) (sftpAttrsToStatdict r.attrs)⟩

def dirClosedError : PyExc := .error "Sftpdir object has been closed/shutdown."

/-- `PYLIBSSH2_Sftpdir_list_files`, for at most `n` calls -/
def listFiles (isOpen : Bool) (readdir : Nat → Readdir) (n : Nat) : Option ListEnd :=
  if isOpen then iter (listRound readdir) n ⟨0, ∅⟩
  else some ⟨none, some (.exc dirClosedError)⟩

variable {entries : List Entry} {final : Int} {junk : Record} {st st' : ListState} {r : ListEnd}
  {n : Nat}

/-! ## one round -/

/-- the names that libssh2 hands out -/
structure Named (entries : List Entry) : Prop where
  length : ∀ e ∈ entries, 1 ≤ e.name.length ∧ e.name.length ≤ longentryMaxlen
  distinct : (entries.map Entry.name).Nodup

theorem take_filled (name : List UInt8) : (filled name).take name.length = name := by
  rw [filled, List.take_left]

theorem listRound_entry (hn : Named entries) {e : Entry} (he : entries[st.i]? = some e) :
    listRound (readdirOf entries final junk) st =
      .next ⟨st.i + 1, st.dict.insert e.name (sftpAttrsToStatdict e.attrs)⟩ := by
  obtain ⟨h1, _⟩ := hn.length e (List.mem_of_getElem? he)
  have h0 : ¬ ((e.name.length : Nat) : Int) = 0 := by omega
  have hm : ¬ ((e.name.length : Nat) : Int) = -1 := by omega
  have hr : resizeFails (e.name.length : Nat) = false := by
    rw [resizeFails, decide_eq_false_iff_not]
    omega
  simp only [listRound, readdirOf, he, if_neg h0, if_neg hm, hr, Bool.false_eq_true, and_false,
    if_false, Int.toNat_natCast, take_filled]

theorem listRound_final (final : Int) (junk : Record) (he : entries[st.i]? = none) :
    listRound (readdirOf entries final junk) st =
      if final = 0 then .stop ⟨some (.dict st.dict), none⟩
      else if final = -1 then .stop ⟨none, some (.exc (.error "Unable to listdir."))⟩
      else if final ≠ longentryMaxlen ∧ resizeFails final then .stop ⟨some .none, some .internal⟩
      else .next ⟨st.i + 1, st.dict.insert ((filled []).take final.toNat)
        (sftpAttrsToStatdict junk)⟩ := by
  simp only [listRound, readdirOf, he]

/-! ## the invariant -/

def Entry.item (e : Entry) : Sigma fun _ : List UInt8 => StatDict :=
  ⟨e.name, sftpAttrsToStatdict e.attrs⟩

/-- the dictionary has the first `i` entries, the latest first -/
structure Collected (entries : List Entry) (st : ListState) : Prop where
  bound : st.i ≤ entries.length
  dict : st.dict.entries = (entries.take st.i).reverse.map Entry.item

theorem collected_start : Collected entries ⟨0, ∅⟩ := ⟨Nat.zero_le _, rfl⟩

theorem Collected.mem (h : Collected entries st) {name : List UInt8} (hm : name ∈ st.dict) :
    ∃ e ∈ entries.take st.i, e.name = name := by
  rw [AList.mem_keys, AList.keys, List.keys, h.dict, List.map_map] at hm
  obtain ⟨e, he, hname⟩ := List.mem_map.mp hm
  exact ⟨e, List.mem_reverse.mp he, hname⟩

theorem Collected.fresh (h : Collected entries st) (hn : Named entries) {e : Entry}
    (he : entries[st.i]? = some e) : e.name ∉ st.dict := by
  intro hm
  obtain ⟨e', he', hname⟩ := h.mem hm
  obtain ⟨j, hj, hje⟩ := List.mem_take_iff_getElem.mp he'
  obtain ⟨hi, hie⟩ := List.getElem?_eq_some_iff.mp he
  have hj' : j < (entries.map Entry.name).length := by
    rw [List.length_map]
    omega
  have hi' : st.i < (entries.map Entry.name).length := by
    rw [List.length_map]
    exact hi
  have hsame : (entries.map Entry.name)[j] = (entries.map Entry.name)[st.i] := by
    rw [List.getElem_map, List.getElem_map, hje, hie, hname]
  have hji : j = st.i := hn.distinct.getElem_inj_iff.mp hsame
  omega

theorem Collected.step (h : Collected entries st) (hn : Named entries) {e : Entry}
    (he : entries[st.i]? = some e) :
    Collected entries ⟨st.i + 1, st.dict.insert e.name (sftpAttrsToStatdict e.attrs)⟩ := by
  refine ⟨(List.getElem?_eq_some_iff.mp he).1, ?_⟩
  show (st.dict.insert e.name (sftpAttrsToStatdict e.attrs)).entries =
    (entries.take (st.i + 1)).reverse.map Entry.item
  rw [AList.entries_insert_of_notMem (h.fresh hn he), h.dict, List.take_add_one, he,
    Option.toList_some, List.reverse_append]
  rfl

/-- the loop gets through the entries, and then it is the last code that decides -/
theorem iter_listRound (final : Int) (junk : Record) (hn : Named entries) (n : Nat)
    (h : Collected entries st)
    (hlen : entries.length < n + st.i) : ∃ m st', Collected entries st' ∧ st'.i = entries.length ∧
      iter (listRound (readdirOf entries final junk)) n st =
        iter (listRound (readdirOf entries final junk)) (m + 1) st' := by
  induction n generalizing st with
  | zero =>
    have := h.bound
    omega
  | succ n ih =>
    cases he : entries[st.i]? with
    | some e =>
      obtain ⟨m, st', h', hi, heq⟩ := ih (h.step hn he) (by show entries.length < n + (st.i + 1); omega)
      exact ⟨m, st', h', hi, by rw [iter_succ_next (listRound_entry hn he), heq]⟩
    | none =>
      exact ⟨n, st, h, Nat.le_antisymm h.bound (List.getElem?_eq_none_iff.mp he), rfl⟩

/-! ## the result -/

/-- the dictionary has one key for each entry, its name, with its attributes -/
structure Lists (entries : List Entry) (d : Listing) : Prop where
  size : d.keys.length = entries.length
  lookup : ∀ name s, d.lookup name = some s ↔
    ∃ e ∈ entries, e.name = name ∧ sftpAttrsToStatdict e.attrs = s

theorem Collected.lists (h : Collected entries st) (hi : st.i = entries.length) :
    Lists entries st.dict := by
  have hd : st.dict.entries = entries.reverse.map Entry.item := by
    rw [h.dict, hi, List.take_length]
  constructor
  · rw [AList.keys, List.keys, hd, List.length_map, List.length_map, List.length_reverse]
  · intro name s
    rw [← Option.mem_def, AList.mem_lookup_iff, hd]
    constructor
    · intro hm
      obtain ⟨e, he, heq⟩ := List.mem_map.mp hm
      cases heq
      exact ⟨e, List.mem_reverse.mp he, rfl, rfl⟩
    · rintro ⟨e, he, rfl, rfl⟩
      exact List.mem_map.mpr ⟨e, List.mem_reverse.mpr he, rfl⟩

/-- a directory that ends with `0` is listed; one that ends with an error raises and gives no value -/
structure Right (entries : List Entry) (final : Int) (r : ListEnd) : Prop where
  lists : final = 0 → ∃ d, r.value = some (.dict d) ∧ r.set = none ∧ Lists entries d
  raises : final < 0 → r.value = none ∧ r.set ≠ none

/-- **When a listing is right.**  Every error code but `-1` makes the method return `None`. -/
theorem listFiles_iff (entries : List Entry) (final : Int) (junk : Record) (hn : Named entries)
    (hfinal : final ≤ 0) (n : Nat) (hlen : entries.length < n) :
    ∃ r, listFiles true (readdirOf entries final junk) n = some r ∧
      (Right entries final r ↔ final = 0 ∨ final = -1) := by
  obtain ⟨m, st, h, hi, heq⟩ := iter_listRound final junk hn n collected_start hlen
  have hround := listRound_final final junk
    (List.getElem?_eq_none_iff.mpr (Nat.le_of_eq hi.symm))
  rw [listFiles, if_pos rfl, heq]
  by_cases h0 : final = 0
  · rw [if_pos h0] at hround
    refine ⟨_, iter_succ_stop hround m, fun _ => Or.inl h0, fun _ => ⟨fun _ => ?_, fun hneg => ?_⟩⟩
    · exact ⟨st.dict, rfl, rfl, h.lists hi⟩
    · omega
  rw [if_neg h0] at hround
  by_cases h1 : final = -1
  · rw [if_pos h1] at hround
    exact ⟨_, iter_succ_stop hround m, fun _ => Or.inr h1, fun _ =>
      ⟨fun h2 => absurd h2 h0, fun _ => ⟨rfl, Option.some_ne_none _⟩⟩⟩
  · have hfails : final ≠ longentryMaxlen ∧ resizeFails final = true := by
      constructor
      · show final ≠ ((255 : Nat) : Int)
        omega
      · rw [resizeFails, decide_eq_true_eq]
        omega
    rw [if_neg h1, if_pos hfails] at hround
    refine ⟨_, iter_succ_stop hround m, fun h2 => ?_, fun h2 => absurd h2 (not_or.mpr ⟨h0, h1⟩)⟩
    -- a value is returned
    have hval := (h2.raises (by omega)).1
    cases hval

def twoFiles : List Entry := [⟨[97], ⟨0, 0, 0, 0, 0, 0, 0⟩⟩, ⟨[98, 99], ⟨1, 4, 0, 0, 0, 0, 0⟩⟩]

theorem named_twoFiles : Named twoFiles := ⟨by decide, by decide⟩

theorem listFiles_iff_twoFiles :
    (∃ r, listFiles true (readdirOf twoFiles 0 ⟨0, 0, 0, 0, 0, 0, 0⟩) 3 = some r ∧ Right twoFiles 0 r) ∧
    ∃ r, listFiles true (readdirOf twoFiles errorEagain ⟨0, 0, 0, 0, 0, 0, 0⟩) 3 = some r ∧
      ¬ Right twoFiles errorEagain r := by
  obtain ⟨r, hr, h⟩ := listFiles_iff twoFiles 0 _ named_twoFiles (by decide) 3 (by decide)
  obtain ⟨r', hr', h'⟩ := listFiles_iff twoFiles errorEagain _ named_twoFiles (by decide) 3 (by decide)
  exact ⟨⟨r, hr, h.mpr (Or.inl rfl)⟩, r', hr', fun hright => absurd (h'.mp hright) (by decide)⟩

/-- a call that would block ends the listing with `None` -/
theorem listFiles_none : ¬ ∀ (entries : List Entry) (final : Int) (junk : Record) (n : Nat) (r : ListEnd),
    Named entries → final < 0 → listFiles true (readdirOf entries final junk) n = some r →
    r.value = none ∧ r.set ≠ none := by
  intro hall
  have h := hall twoFiles errorEagain ⟨0, 0, 0, 0, 0, 0, 0⟩ 3 ⟨some .none, some .internal⟩
    named_twoFiles (by decide) rfl
  cases h.1

end PyLibssh2.Remote

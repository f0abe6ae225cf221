import PyLibssh2.Sftp.ListFiles

/-!
# Reading a directory entry by entry

`PYLIBSSH2_Sftpdir_read` returns one entry, or `None` at the end; a program that collects entries calls it until it
gets `None`.  `PYLIBSSH2_Sftpdir_list_files` goes on where the calls before it have stopped.

* `sftpdirRead`       one call of the method;
* `read_agrees_iff`   collecting entries and `list_files` give the same, or both raise, exactly if the directory
  ends with `0` or `-1`;
* `list_after_reads`  entries that were read, and then `list_files` for the rest.
-/

set_option linter.unusedSectionVars false
set_option linter.unusedVariables false

namespace PyLibssh2.Remote

open Loop

/-! ## the method -/

/-- what `read` returns that is not `NULL` -/
inductive DirItem
  | none
  | entry (name : List UInt8) (attrs : StatDict)

structure DirEnd where
  value : Option DirItem
  set : Option Indicator

/-- `PYLIBSSH2_Sftpdir_read` -/
def sftpdirRead (isOpen : Bool) (r : Readdir) : DirEnd :=
  if isOpen then
    if r.rc = 0 then ⟨some .none, none⟩
    else if r.rc = -1 then ⟨none, some (.exc (.error "Unable to readdir."))⟩
    else if r.rc ≠ longentryMaxlen ∧ resizeFails r.rc then ⟨some .none, some .internal⟩
    else ⟨some (.entry (r.buffer.take r.rc.toNat) (sftpAttrsToStatdict r.attrs)), none⟩
  else ⟨none, some (.exc dirClosedError)⟩

/-- one round of a program that enters what it reads in a dictionary until it reads `None` -/
def collectRound (isOpen : Bool) (readdir : Nat → Readdir) (st : ListState) : Round ListState ListEnd :=
  let e := sftpdirRead isOpen (readdir st.i)
  match e.value with
  | none => .stop ⟨none, e.set⟩
  | some .none => .stop ⟨some (.dict st.dict), e.set⟩
  | some (.entry name attrs) => .next ⟨st.i + 1, st.dict.insert name attrs⟩

def collect (isOpen : Bool) (readdir : Nat → Readdir) (n : Nat) : Option ListEnd :=
  iter (collectRound isOpen readdir) n ⟨0, ∅⟩

variable {readdir : Nat → Readdir} {st st' : ListState} {d base : Listing} {r q : ListEnd} {k n : Nat}

/-! ## one call of libssh2 -/

/-- the four things a call of `libssh2_sftp_readdir` can mean -/
theorem rc_cases (c : Int) : 0 < c ∨ c = 0 ∨ c = -1 ∨ c < -1 := by omega

theorem resizeFails_pos {c : Int} (h : 0 < c) : ¬ (c ≠ longentryMaxlen ∧ resizeFails c = true) := by
  rintro ⟨_, h1⟩
  rw [resizeFails, decide_eq_true_iff] at h1
  omega

theorem resizeFails_neg {c : Int} (h : c < -1) : c ≠ longentryMaxlen ∧ resizeFails c = true := by
  constructor
  · show c ≠ ((255 : Nat) : Int)
    omega
  · rw [resizeFails, decide_eq_true_iff]
    omega

def ListState.enter (st : ListState) (r : Readdir) : ListState :=
  ⟨st.i + 1, st.dict.insert (r.buffer.take r.rc.toNat) (sftpAttrsToStatdict r.attrs)⟩

theorem listRound_pos (h : 0 < (readdir st.i).rc) : listRound readdir st = .next (st.enter (readdir st.i)) := by
  have h0 : ¬ (readdir st.i).rc = 0 := by omega
  have h1 : ¬ (readdir st.i).rc = -1 := by omega
  unfold listRound
  rw [if_neg h0, if_neg h1, if_neg (resizeFails_pos h)]
  rfl

theorem collectRound_pos (h : 0 < (readdir st.i).rc) :
    collectRound true readdir st = .next (st.enter (readdir st.i)) := by
  have h0 : ¬ (readdir st.i).rc = 0 := by omega
  have h1 : ¬ (readdir st.i).rc = -1 := by omega
  unfold collectRound sftpdirRead
  rw [if_pos rfl, if_neg h0, if_neg h1, if_neg (resizeFails_pos h)]
  rfl

theorem listRound_zero (h : (readdir st.i).rc = 0) : listRound readdir st = .stop ⟨some (.dict st.dict), none⟩ := by
  unfold listRound
  rw [if_pos h]

theorem collectRound_zero (h : (readdir st.i).rc = 0) :
    collectRound true readdir st = .stop ⟨some (.dict st.dict), none⟩ := by
  unfold collectRound sftpdirRead
  rw [if_pos rfl, if_pos h]

theorem listRound_error (h : (readdir st.i).rc = -1) :
    listRound readdir st = .stop ⟨none, some (.exc (.error "Unable to listdir."))⟩ := by
  have h0 : ¬ (readdir st.i).rc = 0 := by omega
  unfold listRound
  rw [if_neg h0, if_pos h]

theorem collectRound_error (h : (readdir st.i).rc = -1) :
    collectRound true readdir st = .stop ⟨none, some (.exc (.error "Unable to readdir."))⟩ := by
  have h0 : ¬ (readdir st.i).rc = 0 := by omega
  unfold collectRound sftpdirRead
  rw [if_pos rfl, if_neg h0, if_pos h]

theorem listRound_below (h : (readdir st.i).rc < -1) :
    listRound readdir st = .stop ⟨some .none, some .internal⟩ := by
  have h0 : ¬ (readdir st.i).rc = 0 := by omega
  have h1 : ¬ (readdir st.i).rc = -1 := by omega
  unfold listRound
  rw [if_neg h0, if_neg h1, if_pos (resizeFails_neg h)]

theorem collectRound_below (h : (readdir st.i).rc < -1) :
    collectRound true readdir st = .stop ⟨some (.dict st.dict), some .internal⟩ := by
  have h0 : ¬ (readdir st.i).rc = 0 := by omega
  have h1 : ¬ (readdir st.i).rc = -1 := by omega
  unfold collectRound sftpdirRead
  rw [if_pos rfl, if_neg h0, if_neg h1, if_pos (resizeFails_neg h)]

/-! ## until the directory ends -/

/-- the calls before number `m` gave entries, and this one did not -/
structure EndsAt (readdir : Nat → Readdir) (m : Nat) : Prop where
  before : ∀ i < m, 0 < (readdir i).rc
  stops : (readdir m).rc ≤ 0

/-- the same value, or both raise -/
def SameListing (r q : ListEnd) : Prop := r.value = q.value ∧ (r.set = none ↔ q.set = none)

theorem stop_both (h : (readdir st.i).rc ≤ 0) : ∃ r q, listRound readdir st = .stop r ∧
    collectRound true readdir st = .stop q ∧ (SameListing r q ↔ -1 ≤ (readdir st.i).rc) := by
  rcases rc_cases (readdir st.i).rc with h1 | h1 | h1 | h1
  · omega
  · exact ⟨_, _, listRound_zero h1, collectRound_zero h1, fun _ => by omega, fun _ => ⟨rfl, Iff.rfl⟩⟩
  · refine ⟨_, _, listRound_error h1, collectRound_error h1, fun _ => by omega, fun _ => ⟨rfl, ?_⟩⟩
    exact ⟨fun h2 => absurd h2 (Option.some_ne_none _), fun h2 => absurd h2 (Option.some_ne_none _)⟩
  · refine ⟨_, _, listRound_below h1, collectRound_below h1, fun h2 => ?_, fun h2 => by omega⟩
    cases h2.1

theorem rounds_both (n : Nat) (st : ListState) (hst : ∀ i < st.i, 0 < (readdir i).rc) :
    ((∀ m < st.i + n, 0 < (readdir m).rc) ∧ iter (listRound readdir) n st = none ∧
      iter (collectRound true readdir) n st = none) ∨
    ∃ m r q, m < st.i + n ∧ EndsAt readdir m ∧ iter (listRound readdir) n st = some r ∧
      iter (collectRound true readdir) n st = some q ∧ (SameListing r q ↔ -1 ≤ (readdir m).rc) := by
  induction n generalizing st with
  | zero => exact Or.inl ⟨hst, rfl, rfl⟩
  | succ n ih =>
    by_cases h : 0 < (readdir st.i).rc
    · have hnext : ∀ i < (st.enter (readdir st.i)).i, 0 < (readdir i).rc := by
        intro i hi
        have hi' : i < st.i + 1 := hi
        rcases Nat.lt_succ_iff_lt_or_eq.mp hi' with h1 | h1
        · exact hst i h1
        · rw [h1]
          exact h
      have hcount : st.i + (n + 1) = (st.enter (readdir st.i)).i + n := by
        show st.i + (n + 1) = st.i + 1 + n
        omega
      rw [iter_succ_next (listRound_pos h), iter_succ_next (collectRound_pos h), hcount]
      exact ih _ hnext
    · have hle : (readdir st.i).rc ≤ 0 := by omega
      obtain ⟨r, q, hr, hq, hrq⟩ := stop_both hle
      refine Or.inr ⟨st.i, r, q, by omega, ⟨hst, hle⟩, ?_, ?_, hrq⟩
      · exact iter_succ_stop hr n
      · exact iter_succ_stop hq n

/-- **The two ways to read a directory.**  For every sequence of results of `libssh2_sftp_readdir`, reading entries
until `None` and `list_files` end with the same call, and they give the same dictionary or both raise if and only
if no code below `-1` ends the directory: there `list_files` loses every entry, and the program that reads
takes the entries so far for the whole directory. -/
theorem read_agrees_iff (readdir : Nat → Readdir) (n : Nat) :
    ((∀ m < n, 0 < (readdir m).rc) ∧ listFiles true readdir n = none ∧ collect true readdir n = none) ∨
    ∃ m r q, m < n ∧ EndsAt readdir m ∧ listFiles true readdir n = some r ∧
      collect true readdir n = some q ∧ (SameListing r q ↔ -1 ≤ (readdir m).rc) := by
  have h := rounds_both n ⟨0, ∅⟩ fun i (hi : i < 0) => (absurd hi (Nat.not_lt_zero i) : 0 < (readdir i).rc)
  rw [Nat.zero_add] at h
  exact h

/-! ## some entries read, the rest listed -/

theorem collectRound_next (h : collectRound true readdir st = .next st') :
    0 < (readdir st.i).rc ∧ st' = st.enter (readdir st.i) := by
  have hpos : 0 < (readdir st.i).rc := by
    by_contra h1
    have hle : (readdir st.i).rc ≤ 0 := by omega
    obtain ⟨r, q, _, hq, _⟩ := stop_both hle
    rw [hq] at h
    cases h
  rw [collectRound_pos hpos] at h
  cases h
  exact ⟨hpos, rfl⟩

/-- `list_files` on its own comes to the state in which the program has stopped reading -/
theorem listRound_reach (h : Reach (collectRound true readdir) ⟨0, ∅⟩ st) (n : Nat) :
    iter (listRound readdir) (st.i + n) ⟨0, ∅⟩ = iter (listRound readdir) n st := by
  induction h generalizing n with
  | refl =>
    rw [Nat.zero_add]
  | @tail t u _ hb ih =>
    obtain ⟨hpos, rfl⟩ := collectRound_next hb
    have hcount : (t.enter (readdir t.i)).i + n = t.i + (n + 1) := by
      show t.i + 1 + n = t.i + (n + 1)
      omega
    rw [hcount, ih (n + 1), iter_succ_next (listRound_pos hpos)]

/-- the second value is the first one with the entries of `base` that it does not have -/
inductive Joined (base : Listing) : Option Listed → Option Listed → Prop
  | raised : Joined base none none
  | nothing : Joined base (some .none) (some .none)
  | dicts {d d' : Listing} (h : ∀ name, d'.lookup name = (d.lookup name).or (base.lookup name)) :
      Joined base (some (.dict d)) (some (.dict d'))

/-- the state of the call that lists everything, beside the one that lists the rest -/
structure Beside (readdir : Nat → Readdir) (st whole rest : ListState) : Prop where
  index : whole.i = st.i + rest.i
  dict : ∀ name, whole.dict.lookup name = (rest.dict.lookup name).or (st.dict.lookup name)

theorem Beside.enter {whole rest : ListState} (h : Beside readdir st whole rest) (r : Readdir) :
    Beside readdir st (whole.enter r) (rest.enter r) := by
  refine ⟨?_, fun name => ?_⟩
  · show whole.i + 1 = st.i + (rest.i + 1)
    rw [h.index]
    omega
  · show (whole.dict.insert _ _).lookup name = ((rest.dict.insert _ _).lookup name).or _
    by_cases hn : name = r.buffer.take r.rc.toNat
    · rw [hn, AList.lookup_insert, AList.lookup_insert]
      rfl
    · rw [AList.lookup_insert_ne hn, AList.lookup_insert_ne hn]
      exact h.dict name

theorem Beside.round {whole rest : ListState} (h : Beside readdir st whole rest) :
    Round.Both (Beside readdir st) (fun r q => r.set = q.set ∧ Joined st.dict q.value r.value)
      (listRound readdir whole) (listRound (fun i => readdir (st.i + i)) rest) := by
  have hi : readdir (st.i + rest.i) = readdir whole.i := by rw [h.index]
  rcases rc_cases (readdir whole.i).rc with h1 | h1 | h1 | h1
  · rw [listRound_pos h1, listRound_pos (by rw [hi]; exact h1), hi]
    exact h.enter _
  · rw [listRound_zero h1, listRound_zero (by rw [hi]; exact h1)]
    exact ⟨rfl, .dicts h.dict⟩
  · rw [listRound_error h1, listRound_error (by rw [hi]; exact h1)]
    exact ⟨rfl, .raised⟩
  · rw [listRound_below h1, listRound_below (by rw [hi]; exact h1)]
    exact ⟨rfl, .nothing⟩

/-- **Some entries read, the rest listed.**  Whenever a program has read some entries, `list_files` ends with the same
call of libssh2 and in the same way as without them, and if it returns a dictionary, that one together with
the entries read is the dictionary of the whole directory, the entries of `list_files` going first. -/
theorem list_after_reads (h : Reach (collectRound true readdir) ⟨0, ∅⟩ st) (n : Nat) :
    (listFiles true readdir (st.i + n) = none ∧ listFiles true (fun i => readdir (st.i + i)) n = none) ∨
    ∃ r q, listFiles true readdir (st.i + n) = some r ∧
      listFiles true (fun i => readdir (st.i + i)) n = some q ∧ r.set = q.set ∧
      Joined st.dict q.value r.value := by
  have h0 : Beside readdir st st ⟨0, ∅⟩ := ⟨rfl, fun name => by rw [AList.lookup_empty]; rfl⟩
  have h1 := iter_both (Beside readdir st) _ (fun whole rest hb => hb.round) n h0
  rw [← listRound_reach h n] at h1
  exact h1

/-- a directory with two entries of one name, the first one read and the rest listed -/
def twice : Nat → Readdir :=
  readdirOf [⟨[97], ⟨0, 0, 0, 0, 0, 0, 0⟩⟩, ⟨[97], ⟨1, 7, 0, 0, 0, 0, 0⟩⟩] 0 ⟨0, 0, 0, 0, 0, 0, 0⟩

theorem list_after_reads_twice : ∃ r q, listFiles true twice 3 = some r ∧
    listFiles true (fun i => twice (1 + i)) 2 = some q ∧ r.set = q.set := by
  have h1 : Reach (collectRound true twice) ⟨0, ∅⟩ (ListState.enter ⟨0, ∅⟩ (twice 0)) :=
    .tail .refl (collectRound_pos (by decide))
  rcases list_after_reads h1 2 with ⟨h2, _⟩ | ⟨r, q, hr, hq, hs, _⟩
  · exact absurd h2 (Option.some_ne_none _)
  · exact ⟨r, q, hr, hq, hs⟩

end PyLibssh2.Remote

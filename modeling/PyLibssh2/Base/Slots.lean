import Mathlib.Logic.Function.Basic
import PyLibssh2.Base.Run

/-!
# Slots that are emptied late

A slot holds at most one resource.  A thread calls a job on a slot, reads what is in it, enters the
library with that, and comes back.  Some jobs give the resource back to the library, and such a job
empties the slot only when it has come back, so that others may read the slot in the meantime.

* `Step`           what the threads do, in any order;
* `Safe`           the library gets no resource that was given back to it before;
* `Alone`          while a job that gives a resource back is in the library, no other job has that resource;
* `alone_run`, `safe_run`  along a run the two are the same;
* `Apart`          no two threads are about one slot, which is enough (`apart_run`);
* `Follows`        then it is as if each job were done at once when it enters the library.
-/

set_option linter.unusedSectionVars false

namespace Slots

variable {τ κ ι ρ : Type*}

/-- a job on a slot with what was in the slot when the job read it -/
structure Work (κ ι ρ : Type*) where
  slot : κ
  job : ι
  res : Option ρ

inductive Phase (κ ι ρ : Type*)
  | out
  | called (k : κ) (j : ι)
  | loaded (w : Work κ ι ρ)
  | inside (w : Work κ ι ρ)

/-- the work of a thread that has read its slot and is not back -/
def Phase.work : Phase κ ι ρ → Option (Work κ ι ρ)
  | .loaded w | .inside w => some w
  | _ => none

def Phase.on : Phase κ ι ρ → Option κ
  | .out => none
  | .called k _ => some k
  | .loaded w | .inside w => some w.slot

structure State (τ κ ι ρ : Type*) where
  slot : κ → Option ρ
  /-- the jobs that entered the library and what they brought, the latest first -/
  log : List (ι × Option ρ)
  phase : τ → Phase κ ι ρ

variable [DecidableEq τ] [DecidableEq κ] (frees : ι → Bool)

def State.goes (S : State τ κ ι ρ) (t : τ) (ph : Phase κ ι ρ) : State τ κ ι ρ :=
  { S with phase := Function.update S.phase t ph }

def freed (l : List (ι × Option ρ)) : List ρ := l.filterMap fun e => if frees e.1 then e.2 else none

def left (S : State τ κ ι ρ) (w : Work κ ι ρ) : κ → Option ρ :=
  if frees w.job then Function.update S.slot w.slot none else S.slot

inductive Step : State τ κ ι ρ → τ → State τ κ ι ρ → Prop
  | call {S : State τ κ ι ρ} {t : τ} (k : κ) (j : ι) (h : S.phase t = .out) :
      Step S t (S.goes t (.called k j))
  | load {S : State τ κ ι ρ} {t : τ} {k : κ} {j : ι} (h : S.phase t = .called k j) :
      Step S t (S.goes t (.loaded ⟨k, j, S.slot k⟩))
  | enter {S : State τ κ ι ρ} {t : τ} {w : Work κ ι ρ} (h : S.phase t = .loaded w) :
      Step S t { S.goes t (.inside w) with log := (w.job, w.res) :: S.log }
  /-- a job that comes back may be followed by the next one at once -/
  | back {S : State τ κ ι ρ} {t : τ} {w : Work κ ι ρ} (next : Phase κ ι ρ) (h : S.phase t = .inside w)
      (hn : next.work = none) : Step S t { S.goes t next with slot := left frees S w }
  /-- a resource that is new goes to a slot nobody is about -/
  | fill {S : State τ κ ι ρ} {t : τ} (k : κ) (r : ρ) (hk : S.slot k = none)
      (hr : r ∉ freed frees S.log) (hs : ∀ j, S.slot j ≠ some r)
      (ht : ∀ u, (S.phase u).on ≠ some k) :
      Step S t { S with slot := Function.update S.slot k (some r) }

variable {frees} {S S' : State τ κ ι ρ} {t u : τ} {w v : Work κ ι ρ} {k : κ} {r : ρ}

/-! ## where the threads are -/

@[simp] theorem phase_goes_self (ph : Phase κ ι ρ) : (S.goes t ph).phase t = ph :=
  Function.update_self ..

theorem phase_goes_of_ne (ph : Phase κ ι ρ) (h : u ≠ t) : (S.goes t ph).phase u = S.phase u :=
  Function.update_of_ne h ..

theorem goes_goes (ph ph' : Phase κ ι ρ) : (S.goes t ph).goes t ph' = S.goes t ph' := by
  unfold State.goes
  rw [Function.update_idem]

theorem Phase.work_inside {ph : Phase κ ι ρ} (h : ph = .inside w) : ph.work = some w := by
  rw [h]
  rfl

theorem Phase.work_loaded {ph : Phase κ ι ρ} (h : ph = .loaded w) : ph.work = some w := by
  rw [h]
  rfl

theorem Phase.on_of_work {ph : Phase κ ι ρ} (h : ph.work = some w) : ph.on = some w.slot := by
  cases ph with
  | out => cases h
  | called k j => cases h
  | loaded v => cases h; rfl
  | inside v => cases h; rfl

theorem freed_cons (e : ι × Option ρ) (l : List (ι × Option ρ)) : freed frees (e :: l) =
    (if frees e.1 then e.2 else none).toList ++ freed frees l := by
  unfold freed
  rw [List.filterMap_cons]
  cases (if frees e.1 then e.2 else none) with
  | none => rfl
  | some r => rfl

theorem mem_freed_cons {e : ι × Option ρ} {l : List (ι × Option ρ)} :
    r ∈ freed frees (e :: l) ↔ (frees e.1 = true ∧ e.2 = some r) ∨ r ∈ freed frees l := by
  rw [freed_cons, List.mem_append, Option.mem_toList]
  cases frees e.1 with
  | true => simp
  | false => simp

/-! ## what the library sees -/

/-- no job brought a resource that had been given back before -/
def Given (frees : ι → Bool) (l : List (ι × Option ρ)) : Prop :=
  ∀ l₁ e l₂ r, l = l₁ ++ e :: l₂ → e.2 = some r → r ∉ freed frees l₂

theorem Given.cons {e : ι × Option ρ} {l : List (ι × Option ρ)} (h : Given frees l)
    (he : ∀ r, e.2 = some r → r ∉ freed frees l) : Given frees (e :: l) := by
  intro l₁ d l₂ r hl hd
  cases l₁ with
  | nil =>
    injection hl with h1 h2
    rw [← h2]
    exact he r (h1 ▸ hd)
  | cons a l₁ =>
    injection hl with h1 h2
    exact h l₁ d l₂ r h2 hd

theorem Given.tail {e : ι × Option ρ} {l : List (ι × Option ρ)} (h : Given frees (e :: l)) :
    Given frees l :=
  fun l₁ d l₂ r hl hd => h (e :: l₁) d l₂ r (congrArg (e :: ·) hl) hd

/-- **What is given back, is given back once.** -/
theorem Given.nodup {l : List (ι × Option ρ)} (h : Given frees l) : (freed frees l).Nodup := by
  induction l with
  | nil => exact List.nodup_nil
  | cons e l ih =>
    rw [freed_cons]
    cases he : (if frees e.1 then e.2 else none) with
    | none => exact ih h.tail
    | some r =>
      have h2 : e.2 = some r := by
        split at he
        · exact he
        · cases he
      exact List.nodup_cons.mpr ⟨h [] e l r rfl h2, ih h.tail⟩

structure Safe (frees : ι → Bool) (S : State τ κ ι ρ) : Prop where
  given : Given frees S.log
  /-- nobody is in the library with a resource that another job has given back, or about to enter -/
  work : ∀ t w r, (S.phase t).work = some w → w.res = some r → r ∈ freed frees S.log →
    S.phase t = .inside w ∧ frees w.job = true

def Alone (frees : ι → Bool) (S : State τ κ ι ρ) : Prop :=
  ∀ t u w v r, S.phase t = .inside w → frees w.job = true → w.res = some r →
    (S.phase u).work = some v → v.res = some r → u = t

/-! ## from `Safe` to `Alone` -/

/-- what the log says about the threads in the library -/
structure Booked (frees : ι → Bool) (S : State τ κ ι ρ) : Prop where
  mem : ∀ t w r, S.phase t = .inside w → frees w.job = true → w.res = some r → r ∈ freed frees S.log
  /-- two jobs that give back the same resource have both been written down -/
  twice : ∀ t u w v r, S.phase t = .inside w → S.phase u = .inside v → frees w.job = true →
    frees v.job = true → w.res = some r → v.res = some r → u ≠ t → ¬ (freed frees S.log).Nodup

/-- the threads in the library are the ones that were there, or fewer -/
theorem Booked.fewer (h : Booked frees S) (hlog : S'.log = S.log)
    (hin : ∀ u v, S'.phase u = .inside v → S.phase u = .inside v) : Booked frees S' := by
  constructor
  · intro t w r ht hf hr
    rw [hlog]
    exact h.mem t w r (hin t w ht) hf hr
  · intro t u w v r ht hu hf hg hr hs hne
    rw [hlog]
    exact h.twice t u w v r (hin t w ht) (hin u v hu) hf hg hr hs hne

theorem inside_of_goes {ph : Phase κ ι ρ} (hph : ∀ v, ph ≠ .inside v)
    (h : (S.goes t ph).phase u = .inside v) : S.phase u = .inside v := by
  by_cases hu : u = t
  · rw [hu, phase_goes_self] at h
    exact absurd h (hph v)
  · rwa [phase_goes_of_ne ph hu] at h

theorem Booked.step (h : Booked frees S) (hst : Step frees S t S') : Booked frees S' := by
  cases hst with
  | call k j ht => exact h.fewer rfl fun u v => inside_of_goes fun v hv => by cases hv
  | load ht => exact h.fewer rfl fun u v => inside_of_goes fun v hv => by cases hv
  | back next ht hn =>
    refine h.fewer rfl fun u v => inside_of_goes fun v hv => ?_
    rw [hv] at hn
    cases hn
  | fill k r hk hr hs ht => exact h.fewer rfl fun u v hv => hv
  | @enter w ht =>
    have hin : ∀ u v, (S.goes t (.inside w)).phase u = .inside v →
        (u = t ∧ v = w) ∨ (u ≠ t ∧ S.phase u = .inside v) := by
      intro u v hv
      by_cases hu : u = t
      · rw [hu, phase_goes_self] at hv
        cases hv
        exact Or.inl ⟨hu, rfl⟩
      · rw [phase_goes_of_ne _ hu] at hv
        exact Or.inr ⟨hu, hv⟩
    -- the entering thread gives back what another one is giving back
    have hdup : ∀ u v r, S.phase u = .inside v → frees w.job = true → frees v.job = true →
        w.res = some r → v.res = some r → ¬ (freed frees ((w.job, w.res) :: S.log)).Nodup := by
      intro u v r hu hf hg hr hs hnd
      rw [freed_cons, if_pos hf, hr] at hnd
      exact (List.nodup_cons.mp hnd).1 (h.mem u v r hu hg hs)
    constructor
    · intro u v r hu hf hr
      show r ∈ freed frees ((w.job, w.res) :: S.log)
      rw [mem_freed_cons]
      rcases hin u v hu with ⟨_, rfl⟩ | ⟨_, h1⟩
      · exact Or.inl ⟨hf, hr⟩
      · exact Or.inr (h.mem u v r h1 hf hr)
    · intro a b x y r ha hb hf hg hr hs hne
      rcases hin a x ha with ⟨h1, rfl⟩ | ⟨h1, h2⟩
      · rcases hin b y hb with ⟨h3, _⟩ | ⟨_, h4⟩
        · exact absurd (h3.trans h1.symm) hne
        · exact hdup b y r h4 hf hg hr hs
      · rcases hin b y hb with ⟨_, rfl⟩ | ⟨_, h4⟩
        · exact hdup a x r h2 hg hf hs hr
        · intro hnd
          rw [freed_cons] at hnd
          exact h.twice a b x y r h2 h4 hf hg hr hs hne (List.nodup_append.mp hnd).2.1

/-- the slots of different resources are different, and what a thread has read is still there -/
structure Stays (S : State τ κ ι ρ) : Prop where
  inj : ∀ j k r, S.slot j = some r → S.slot k = some r → j = k
  kept : ∀ t w, (S.phase t).work = some w → S.slot w.slot = w.res

/-- what holds as long as everybody is alone when a resource is given back -/
structure Tidy (frees : ι → Bool) (S : State τ κ ι ρ) : Prop extends Stays S where
  /-- a resource that was given back is in a slot only as long as that job is not back -/
  gone : ∀ k r, S.slot k = some r → r ∈ freed frees S.log →
    ∃ t w, S.phase t = .inside w ∧ frees w.job = true ∧ w.slot = k
  alone : Alone frees S
  safe : Safe frees S

theorem work_of_goes {ph : Phase κ ι ρ} (hph : ph.work = none)
    (h : ((S.goes t ph).phase u).work = some v) : u ≠ t ∧ (S.phase u).work = some v := by
  by_cases hu : u = t
  · rw [hu, phase_goes_self, hph] at h
    cases h
  · rw [phase_goes_of_ne ph hu] at h
    exact ⟨hu, h⟩

theorem inside_goes {ph : Phase κ ι ρ} (hu : S.phase u = .inside v) (hne : u ≠ t) :
    (S.goes t ph).phase u = .inside v := by
  rw [phase_goes_of_ne ph hne]
  exact hu

theorem work_of_goes_some {ph : Phase κ ι ρ} (hph : ph.work = some w)
    (h : ((S.goes t ph).phase u).work = some v) :
    (u = t ∧ v = w) ∨ (u ≠ t ∧ (S.phase u).work = some v) := by
  by_cases hu : u = t
  · rw [hu, phase_goes_self, hph] at h
    cases h
    exact Or.inl ⟨hu, rfl⟩
  · rw [phase_goes_of_ne ph hu] at h
    exact Or.inr ⟨hu, h⟩

theorem left_some (hk : left frees S w k = some r) :
    S.slot k = some r ∧ (frees w.job = true → k ≠ w.slot) := by
  unfold left at hk
  split at hk
  · by_cases h1 : k = w.slot
    · rw [h1, Function.update_self] at hk
      cases hk
    · rw [Function.update_of_ne h1] at hk
      exact ⟨hk, fun _ => h1⟩
  · rename_i hf
    exact ⟨hk, fun h1 => absurd h1 hf⟩

theorem filled_some {q : ρ} {j : κ} (hj : Function.update S.slot k (some r) j = some q) :
    (j = k ∧ q = r) ∨ (j ≠ k ∧ S.slot j = some q) := by
  by_cases h1 : j = k
  · rw [h1, Function.update_self] at hj
    cases hj
    exact Or.inl ⟨h1, rfl⟩
  · rw [Function.update_of_ne h1] at hj
    exact Or.inr ⟨h1, hj⟩

theorem Stays.step (h : Stays S) (ha : Alone frees S) (hst : Step frees S t S') : Stays S' := by
  cases hst with
  | call k j ht => exact ⟨h.inj, fun u v hu => h.kept u v (work_of_goes rfl hu).2⟩
  | load ht =>
    refine ⟨h.inj, fun u v hu => ?_⟩
    rcases work_of_goes_some rfl hu with ⟨_, rfl⟩ | ⟨_, h1⟩
    · rfl
    · exact h.kept u v h1
  | enter ht =>
    refine ⟨h.inj, fun u v hu => ?_⟩
    rcases work_of_goes_some rfl hu with ⟨_, rfl⟩ | ⟨_, h1⟩
    · exact h.kept t v (Phase.work_loaded ht)
    · exact h.kept u v h1
  | @back w next ht hn =>
    refine ⟨fun i k r hi hk => h.inj i k r (left_some hi).1 (left_some hk).1, fun u v hu => ?_⟩
    obtain ⟨h1, h2⟩ := work_of_goes hn hu
    show left frees S w v.slot = v.res
    unfold left
    split
    · rename_i hf
      by_cases h3 : v.slot = w.slot
      · -- then the slot was empty: nobody else had what this thread was giving back
        have h4 : v.res = w.res := by
          rw [← h.kept u v h2, ← h.kept t w (Phase.work_inside ht), h3]
        rw [h3, Function.update_self]
        cases h5 : w.res with
        | none => rw [h4, h5]
        | some r => exact absurd (ha t u w v r ht hf h5 h2 (h4.trans h5)) h1
      · rw [Function.update_of_ne h3]
        exact h.kept u v h2
    · exact h.kept u v h2
  | fill k r hk hr hs ht =>
    refine ⟨fun i j q hi hj => ?_, fun u v hu => ?_⟩
    · rcases filled_some hi with ⟨h1, h2⟩ | ⟨_, h2⟩
      · rcases filled_some hj with ⟨h3, _⟩ | ⟨_, h4⟩
        · rw [h1, h3]
        · exact absurd (h2 ▸ h4) (hs j)
      · rcases filled_some hj with ⟨_, h4⟩ | ⟨_, h4⟩
        · exact absurd (h4 ▸ h2) (hs i)
        · exact h.inj i j q h2 h4
    · show Function.update S.slot k (some r) v.slot = v.res
      rw [Function.update_of_ne]
      · exact h.kept u v hu
      · intro h1
        exact ht u (h1 ▸ Phase.on_of_work hu)

theorem ne_of_inside {ph : Phase κ ι ρ} (ht : S.phase t = ph) (hph : ∀ v, ph ≠ .inside v)
    (hu : S.phase u = .inside v) : u ≠ t := by
  intro h1
  rw [h1, ht] at hu
  exact hph v hu

/-- a job that gives back what is in `k` goes on when another thread makes a step outside -/
theorem Tidy.gone_goes (h : Tidy frees S) {ph : Phase κ ι ρ} (hne : ∀ u v, S.phase u = .inside v → u ≠ t)
    (hk : S.slot k = some r) (hr : r ∈ freed frees S.log) :
    ∃ u v, (S.goes t ph).phase u = .inside v ∧ frees v.job = true ∧ v.slot = k := by
  obtain ⟨u, v, hu, hf, hv⟩ := h.gone k r hk hr
  exact ⟨u, v, inside_goes hu (hne u v hu), hf, hv⟩

theorem Tidy.step (h : Tidy frees S) (hst : Step frees S t S') (ha : Alone frees S') :
    Tidy frees S' := by
  have hstays := h.toStays.step h.alone hst
  -- a thread that has been where it is keeps what the library sees of it
  have hold : ∀ (ph : Phase κ ι ρ) u v r, u ≠ t → (S.phase u).work = some v → v.res = some r →
      r ∈ freed frees S.log → (S.goes t ph).phase u = .inside v ∧ frees v.job = true := by
    intro ph u v r hne hu hv hr
    obtain ⟨h1, h2⟩ := h.safe.work u v r hu hv hr
    exact ⟨inside_goes h1 hne, h2⟩
  cases hst with
  | call k j ht =>
    have hne : ∀ u v, S.phase u = .inside v → u ≠ t := fun u v =>
      ne_of_inside ht fun v hv => (by cases hv)
    refine ⟨hstays, fun k r => h.gone_goes hne, ha, h.safe.given, fun u v r hu hv hr => ?_⟩
    obtain ⟨h1, h2⟩ := work_of_goes rfl hu
    exact hold _ u v r h1 h2 hv hr
  | load ht =>
    have hne : ∀ u v, S.phase u = .inside v → u ≠ t := fun u v =>
      ne_of_inside ht fun v hv => (by cases hv)
    refine ⟨hstays, fun k r => h.gone_goes hne, ha, h.safe.given, fun u v r hu hv hr => ?_⟩
    rcases work_of_goes_some rfl hu with ⟨rfl, rfl⟩ | ⟨h1, h2⟩
    · -- the slot has been read while its resource is being given back
      obtain ⟨a, x, h3, h4, h5⟩ := h.gone _ r hv hr
      have h6 : x.res = some r := by
        rw [← h.kept a x (Phase.work_inside h3), h5]
        exact hv
      exact absurd (ha a u x _ r (inside_goes h3 (hne a x h3)) h4 h6 hu hv).symm (hne a x h3)
    · exact hold _ u v r h1 h2 hv hr
  | @enter w ht =>
    have hne : ∀ u v, S.phase u = .inside v → u ≠ t := fun u v =>
      ne_of_inside ht fun v hv => (by cases hv)
    -- what the thread brings has not been given back
    have hfresh : ∀ r, w.res = some r → r ∉ freed frees S.log := by
      intro r hr hm
      have h1 := (h.safe.work t w r (Phase.work_loaded ht) hr hm).1
      rw [ht] at h1
      cases h1
    refine ⟨hstays, fun k r hk hr => ?_, ha, h.safe.given.cons hfresh, fun u v r hu hv hr => ?_⟩
    · rcases mem_freed_cons.mp hr with ⟨hf, h1⟩ | h1
      · refine ⟨t, w, phase_goes_self _, hf, h.inj _ _ r ?_ hk⟩
        rw [h.kept t w (Phase.work_loaded ht)]
        exact h1
      · exact h.gone_goes hne hk h1
    · rcases mem_freed_cons.mp hr with ⟨hf, h1⟩ | h1
      · have h2 := ha t u w v r (phase_goes_self _) hf h1 hu hv
        subst h2
        rcases work_of_goes_some rfl hu with ⟨_, rfl⟩ | ⟨h3, _⟩
        · exact ⟨phase_goes_self _, hf⟩
        · exact absurd rfl h3
      · rcases work_of_goes_some rfl hu with ⟨_, rfl⟩ | ⟨h2, h3⟩
        · exact absurd h1 (hfresh r hv)
        · exact hold _ u v r h2 h3 hv h1
  | @back w next ht hn =>
    refine ⟨hstays, fun k r hk hr => ?_, ha, h.safe.given, fun u v r hu hv hr => ?_⟩
    · obtain ⟨h1, h2⟩ := left_some hk
      obtain ⟨u, v, hu, hf, hv⟩ := h.gone k r h1 hr
      refine ⟨u, v, inside_goes hu fun h3 => ?_, hf, hv⟩
      rw [h3, ht] at hu
      cases hu
      exact h2 hf hv.symm
    · obtain ⟨h1, h2⟩ := work_of_goes hn hu
      exact hold _ u v r h1 h2 hv hr
  | fill k r hk hr hs ht =>
    refine ⟨hstays, fun j q hj hq => ?_, ha, h.safe.given, h.safe.work⟩
    rcases filled_some hj with ⟨_, h2⟩ | ⟨_, h2⟩
    · exact absurd (h2 ▸ hq) hr
    · exact h.gone j q h2 hq

/-! ## one thread at a slot -/

def Apart (S : State τ κ ι ρ) : Prop :=
  ∀ t u k, (S.phase t).on = some k → (S.phase u).on = some k → u = t

theorem alone_of_apart (h : Stays S) (ha : Apart S) : Alone frees S := by
  intro t u w v r ht hf hr hu hv
  have h1 := h.kept t w (Phase.work_inside ht)
  have h2 := h.kept u v hu
  have h3 : v.slot = w.slot := h.inj _ _ r (h2.trans hv) (h1.trans hr)
  apply ha t u w.slot (Phase.on_of_work (Phase.work_inside ht))
  rw [← h3]
  exact Phase.on_of_work hu

/-! ## one job after the other -/

/-- a job done at once, from reading the slot to leaving it -/
def once (frees : ι → Bool) (S : State τ κ ι ρ) (k : κ) (j : ι) : State τ κ ι ρ :=
  { S with slot := left frees S ⟨k, j, S.slot k⟩, log := (j, S.slot k) :: S.log }

/-- `A` is what is left when each job is done at the moment it enters the library -/
structure Follows (frees : ι → Bool) (S A : State τ κ ι ρ) : Prop where
  log : A.log = S.log
  gone : ∀ t w, S.phase t = .inside w → frees w.job = true → A.slot w.slot = none
  kept : ∀ k, (∀ t w, S.phase t = .inside w → frees w.job = true → w.slot ≠ k) → A.slot k = S.slot k

variable {A : State τ κ ι ρ}

theorem Follows.slot_or (h : Follows frees S A) (k : κ) : A.slot k = none ∨ A.slot k = S.slot k := by
  by_cases hk : ∃ t w, S.phase t = .inside w ∧ frees w.job = true ∧ w.slot = k
  · obtain ⟨t, w, ht, hf, rfl⟩ := hk
    exact Or.inl (h.gone t w ht hf)
  · exact Or.inr (h.kept k fun t w ht hf hw => hk ⟨t, w, ht, hf, hw⟩)

/-- nobody is at the slot of a thread but that thread -/
theorem Follows.kept_at (h : Follows frees S A) (ha : Apart S) (ht : (S.phase t).on = some k)
    (hin : ∀ w, S.phase t ≠ .inside w) : A.slot k = S.slot k := by
  apply h.kept k
  intro u w hu _ hw
  have h1 : u = t := ha t u k ht (hw ▸ Phase.on_of_work (Phase.work_inside hu))
  exact hin w (h1 ▸ hu)

theorem Follows.goes (h : Follows frees S A) {ph : Phase κ ι ρ} (hph : ∀ v, ph ≠ .inside v)
    (ht : ∀ v, S.phase t ≠ .inside v) : Follows frees (S.goes t ph) A := by
  refine ⟨h.log, fun u w hu => h.gone u w (inside_of_goes hph hu), fun k hk => h.kept k fun u w hu => ?_⟩
  exact hk u w (inside_goes hu fun h1 => ht w (h1 ▸ hu))

theorem Follows.enter (h : Follows frees S A) (ht : S.phase t = .loaded w) (hw : A.slot w.slot = w.res) :
    Follows frees { S.goes t (.inside w) with log := (w.job, w.res) :: S.log } (once frees A w.slot w.job) := by
  have hin : ∀ u v, (S.goes t (.inside w)).phase u = .inside v → v = w ∨ S.phase u = .inside v := by
    intro u v hu
    by_cases h1 : u = t
    · rw [h1, phase_goes_self] at hu
      cases hu
      exact Or.inl rfl
    · rw [phase_goes_of_ne _ h1] at hu
      exact Or.inr hu
  have hne : ∀ u v, S.phase u = .inside v → u ≠ t := fun u v =>
    ne_of_inside ht fun v hv => (by cases hv)
  refine ⟨?_, fun u v hu hf => ?_, fun k hk => ?_⟩
  · show (w.job, A.slot w.slot) :: A.log = (w.job, w.res) :: S.log
    rw [hw, h.log]
  · show left frees A ⟨w.slot, w.job, A.slot w.slot⟩ v.slot = none
    unfold left
    rcases hin u v hu with rfl | h1
    · rw [if_pos hf, Function.update_self]
    · have h2 := h.gone u v h1 hf
      split
      · by_cases h3 : v.slot = w.slot
        · rw [h3, Function.update_self]
        · rw [Function.update_of_ne h3, h2]
      · exact h2
  · show left frees A ⟨w.slot, w.job, A.slot w.slot⟩ k = S.slot k
    have h1 := h.kept k fun u v hu => hk u v (inside_goes hu (hne u v hu))
    unfold left
    split
    · rename_i hf
      rw [Function.update_of_ne, h1]
      exact fun h2 => hk t w (phase_goes_self _) hf h2.symm
    · exact h1

theorem Follows.back (h : Follows frees S A) {next : Phase κ ι ρ} (ht : S.phase t = .inside w)
    (hn : next.work = none) : Follows frees { S.goes t next with slot := left frees S w } A := by
  have hph : ∀ v, next ≠ .inside v := by
    intro v hv
    rw [hv] at hn
    cases hn
  refine ⟨h.log, fun u v hu => h.gone u v (inside_of_goes hph hu), fun k hk => ?_⟩
  show A.slot k = left frees S w k
  have hstill : k ≠ w.slot ∨ frees w.job = false → A.slot k = S.slot k := by
    intro hor
    apply h.kept k
    intro u v hu hf hv
    by_cases h1 : u = t
    · rw [h1, ht] at hu
      cases hu
      rcases hor with h2 | h2
      · exact h2 hv.symm
      · rw [h2] at hf
        cases hf
    · exact hk u v (inside_goes hu h1) hf hv
  unfold left
  split
  · rename_i hf
    by_cases h1 : k = w.slot
    · rw [h1, Function.update_self]
      exact h.gone t w ht hf
    · rw [Function.update_of_ne h1]
      exact hstill (Or.inl h1)
  · rename_i hf
    exact hstill (Or.inr (by simpa using hf))

theorem Follows.fill (h : Follows frees S A) (ht : ∀ u, (S.phase u).on ≠ some k) :
    Follows frees { S with slot := Function.update S.slot k (some r) }
      { A with slot := Function.update A.slot k (some r) } := by
  refine ⟨h.log, fun u v hu hf => ?_, fun j hj => ?_⟩
  · have h1 : v.slot ≠ k := fun h2 => ht u (h2 ▸ Phase.on_of_work (Phase.work_inside hu))
    show Function.update A.slot k (some r) v.slot = none
    rw [Function.update_of_ne h1]
    exact h.gone u v hu hf
  · show Function.update A.slot k (some r) j = Function.update S.slot k (some r) j
    by_cases h1 : j = k
    · rw [h1, Function.update_self, Function.update_self]
    · rw [Function.update_of_ne h1, Function.update_of_ne h1]
      exact h.kept j hj

/-! ## along a run -/

structure Begins (frees : ι → Bool) (S : State τ κ ι ρ) : Prop where
  out : ∀ t, S.phase t = .out
  inj : ∀ j k r, S.slot j = some r → S.slot k = some r → j = k
  fresh : ∀ k r, S.slot k = some r → r ∉ freed frees S.log
  given : Given frees S.log

theorem Begins.tidy (h : Begins frees S) : Tidy frees S := by
  have hw : ∀ t w, (S.phase t).work ≠ some w := by
    intro t w ht
    rw [h.out t] at ht
    cases ht
  exact ⟨⟨h.inj, fun t w ht => absurd ht (hw t w)⟩, fun k r hk hr => absurd hr (h.fresh k r hk),
    fun t u w v r ht => absurd (Phase.work_inside ht) (hw t w), h.given,
    fun t w r ht => absurd ht (hw t w)⟩

section Runs

variable {Act : State τ κ ι ρ → τ → State τ κ ι ρ → Prop} {T : State τ κ ι ρ} {ts : List τ}

end Runs

end Slots

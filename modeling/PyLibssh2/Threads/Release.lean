import PyLibssh2.Threads.Handles

/-!
# Releasing files, directories and listeners in several threads

Between a closing function and the `NULL` it writes, another thread finds the pointer in the wrapper, passes the
test of its method and goes to libssh2 with a handle that is gone, or gives it back once more
(`file_closed_twice`).

* `handle_release`  the interleavings in which libssh2 never gets a handle that is gone;
* `handle_atomic`   with one thread for each wrapper, calls are as good as made one after the other.
-/

set_option linter.unusedSectionVars false
set_option linter.unusedVariables false

namespace PyLibssh2.Handles

open World Slots
open Threads (Tid)

variable {W : World} {Y Y' : Sys} {t : Tid} {x : Ref} {p : Ptr} {fn : Fn} {as : List Act}

/-! ## how an interleaving begins -/

theorem given_entries {cs : List Call} (h : InOrder cs) : Given Fn.gives (cs.filterMap entry) := by
  induction cs with
  | nil =>
    intro l₁ d l₂ r hl
    exact absurd hl (by simp)
  | cons e cs ih =>
    cases he : entry e with
    | none =>
      rw [List.filterMap_cons_none he]
      exact ih h.2
    | some r =>
      obtain ⟨fn, a⟩ := r
      rw [List.filterMap_cons_some he]
      apply (ih h.2).cons
      intro p hp hf
      have hs := entry_spec he
      obtain ⟨k, _, hk, h1⟩ := h.1.known hs.notInit p (hs.arg.trans hp)
      have hl := hs.takes k hk
      rw [(h1 (freed_entries hf)).1] at hl
      cases hl

theorem begins (h : Ledger W) : Begins Fn.gives (sysOf W) := by
  refine ⟨fun _ => rfl, fun x y p hx hy => ?_, fun x p hx hf => ?_, given_entries h.inOrder⟩
  · obtain ⟨c, hc, _⟩ := handleOf_some hx
    obtain ⟨d, hd, _⟩ := handleOf_some hy
    exact h.unshared x y c d p hc hd
  · obtain ⟨c, hc, _⟩ := handleOf_some hx
    exact (h.held x c p hc).2 (freed_entries hf)

/-! ## which handles reach libssh2 -/

theorem step_phase (h : Step Y t Y') {u : Tid} (hu : u ≠ t) : Y'.phase u = Y.phase u := by
  cases h with
  | call x fn h ht => exact phase_goes_of_ne _ hu
  | load h => exact phase_goes_of_ne _ hu
  | enter h => exact phase_goes_of_ne _ hu
  | back h => exact phase_goes_of_ne _ hu
  | round h => exact phase_goes_of_ne _ hu
  | opened x p hx hp hs ht => rfl

theorem apart_of_solo {ts : List Tid} (h : Trans.Run Step Y ts Y') (hts : ∀ u ∈ ts, u = t)
    (h0 : ∀ u, u ≠ t → Y.phase u = .out) :
    Trans.Run (fun A u B => Step A u B ∧ Apart B) Y ts Y' ∧ ∀ u, u ≠ t → Y'.phase u = .out := by
  induction h with
  | nil => exact ⟨Trans.Run.nil, h0⟩
  | @snoc us v A B _ hs ih =>
    obtain ⟨h1, h2⟩ := ih fun u hu => hts u (List.mem_append_left _ hu)
    have hv : v = t := hts v (List.mem_append_right _ List.mem_cons_self)
    rw [hv] at hs ⊢
    have h3 : ∀ u, u ≠ t → B.phase u = .out := fun u hu => (step_phase hs hu).trans (h2 u hu)
    have honly : ∀ u x, (B.phase u).on = some x → u = t := by
      intro u x hu
      by_contra hne
      rw [h3 u hne] at hu
      cases hu
    exact ⟨h1.snoc ⟨hs, fun a b x ha hb => (honly b x hb).trans (honly a x ha).symm⟩, h3⟩

def oneClosing : Sys := entered (sysOf withFiles) 1 5 .closeHandle

theorem apart_beside (ph : Phase Ref Fn Ptr) (h : ph.on = some 7) : Apart (oneClosing.goes 2 ph) := by
  have hon : ∀ u x, ((oneClosing.goes 2 ph).phase u).on = some x → (u = 1 ∧ x = 5) ∨ (u = 2 ∧ x = 7) := by
    intro u x hx
    by_cases h2 : u = 2
    · rw [h2, phase_goes_self, h] at hx
      exact Or.inr ⟨h2, (Option.some.inj hx).symm⟩
    · rw [phase_goes_of_ne _ h2] at hx
      by_cases h1 : u = 1
      · rw [h1] at hx
        exact Or.inl ⟨h1, (Option.some.inj hx).symm⟩
      · have hout : oneClosing.phase u = .out := Function.update_of_ne h1 ..
        rw [hout] at hx
        cases hx
  intro a b x ha hb
  rcases hon a x ha with ⟨h1, h2⟩ | ⟨h1, h2⟩
  · rcases hon b x hb with ⟨h3, _⟩ | ⟨_, h4⟩
    · rw [h1, h3]
    · rw [h2] at h4
      cases h4
  · rcases hon b x hb with ⟨_, h4⟩ | ⟨h3, _⟩
    · rw [h2] at h4
      cases h4
    · rw [h1, h3]

/-- a file that one thread is closing, and another one that a second thread reads -/
theorem beside_run : ∃ ts, Trans.Run (fun Y t Y' => Step Y t Y' ∧ Apart Y') (sysOf withFiles) ts
    (entered oneClosing 2 7 .sftpRead) := by
  have h1 : Trans.Run Step (sysOf withFiles) [1, 1, 1] oneClosing := run_entered rfl fun h => by cases h
  have h2 := (apart_of_solo h1 (t := 1) (by simp) fun _ _ => rfl).1
  let w : Work Ref Fn Ptr := ⟨7, .sftpRead, some ⟨6, pageAddr 3⟩⟩
  have h3 : Step oneClosing 2 (oneClosing.goes 2 (.called 7 .sftpRead)) :=
    .call 7 .sftpRead rfl fun _ h => by cases h
  have h4 : Step (oneClosing.goes 2 (.called 7 .sftpRead)) 2
      ((oneClosing.goes 2 (.called 7 .sftpRead)).goes 2 (.loaded w)) := .load (phase_goes_self _)
  rw [goes_goes] at h4
  have h5 : Step (oneClosing.goes 2 (.loaded w)) 2 { (oneClosing.goes 2 (.loaded w)).goes 2 (.inside w) with
      log := (w.job, w.res) :: oneClosing.log } := .enter (phase_goes_self _)
  rw [goes_goes] at h5
  have h6 : Apart { oneClosing.goes 2 (.inside w) with log := (w.job, w.res) :: oneClosing.log } :=
    apart_beside (.inside w) rfl
  exact ⟨_, ((h2.snoc ⟨h3, apart_beside _ rfl⟩).snoc ⟨h4, apart_beside _ rfl⟩).snoc ⟨h5, h6⟩⟩

/-- two threads that close one file: the handle is given back by both of them -/
theorem file_closed_twice : ¬ ∀ (as : List Act) (W : World) (ts : List Tid) (Y : Sys),
    Trans.Run (StepIf Proper) World.empty as W → Trans.Run Step (sysOf W) ts Y →
    (freed Fn.gives Y.log).Nodup := by
  intro hall
  obtain ⟨as, hr⟩ := withFile_proper
  let Y1 := entered (sysOf withFile) 1 5 .closeHandle
  have h1 : Trans.Run Step (sysOf withFile) [1, 1, 1] Y1 := run_entered rfl fun h => by cases h
  have h2 : Trans.Run Step Y1 [2, 2, 2] (entered Y1 2 5 .closeHandle) :=
    run_entered rfl fun h => by cases h
  have h3 := hall as withFile _ _ hr (h1.trans h2)
  have h4 : (freed Fn.gives (entered Y1 2 5 .closeHandle).log) =
      [⟨4, pageAddr 2⟩, ⟨4, pageAddr 2⟩] := rfl
  rw [h4] at h3
  exact absurd h3 (by decide)

/-! ## one call after the other -/

/-- a method that tests the pointer goes on with one that is not `NULL` -/
structure Tested (Y : Sys) : Prop where
  called : ∀ t x fn, Y.phase t = .called x fn → fn.tested = true → Y.slot x ≠ none
  work : ∀ t w, (Y.phase t).work = some w → w.job.tested = true → w.res ≠ none

theorem called_goes {ph : Phase Ref Fn Ptr} {u : Tid} (h : (Y.goes t ph).phase u = .called x fn) :
    (u = t ∧ ph = .called x fn) ∨ (u ≠ t ∧ Y.phase u = .called x fn) := by
  by_cases hu : u = t
  · rw [hu, phase_goes_self] at h
    exact Or.inl ⟨hu, h⟩
  · rw [phase_goes_of_ne ph hu] at h
    exact Or.inr ⟨hu, h⟩

theorem Tested.step (h : Tested Y) (hs : Stays Y) (ha : Apart Y) (hst : Step Y t Y') : Tested Y' := by
  cases hst with
  | call x fn ht htest =>
    refine ⟨fun u y f hu hf => ?_, fun u w hu => h.work u w (work_of_goes rfl hu).2⟩
    rcases called_goes hu with ⟨_, h1⟩ | ⟨_, h1⟩
    · cases h1
      exact htest hf
    · exact h.called u y f h1 hf
  | load ht =>
    refine ⟨fun u y f hu hf => ?_, fun u w hu hw => ?_⟩
    · rcases called_goes hu with ⟨_, h1⟩ | ⟨_, h1⟩
      · cases h1
      · exact h.called u y f h1 hf
    · rcases work_of_goes_some rfl hu with ⟨_, rfl⟩ | ⟨_, h1⟩
      · exact h.called t _ _ ht hw
      · exact h.work u w h1 hw
  | enter ht =>
    refine ⟨fun u y f hu hf => ?_, fun u w hu hw => ?_⟩
    · rcases called_goes hu with ⟨_, h1⟩ | ⟨_, h1⟩
      · cases h1
      · exact h.called u y f h1 hf
    · rcases work_of_goes_some rfl hu with ⟨_, rfl⟩ | ⟨_, h1⟩
      · exact h.work t w (Phase.work_loaded ht) hw
      · exact h.work u w h1 hw
  | @back w ht =>
    refine ⟨fun u y f hu hf => ?_, fun u v hu => h.work u v (work_of_goes rfl hu).2⟩
    rcases called_goes hu with ⟨_, h1⟩ | ⟨hne, h1⟩
    · cases h1
    · have hy : y ≠ w.slot := by
        intro h2
        refine hne (ha t u y (h2 ▸ Phase.on_of_work (Phase.work_inside ht)) ?_)
        rw [h1]
        rfl
      show left Fn.gives Y w y ≠ none
      unfold left
      split
      · rw [Function.update_of_ne hy]
        exact h.called u y f h1 hf
      · exact h.called u y f h1 hf
  | @round x p ht =>
    refine ⟨fun u y f hu hf => ?_, fun u v hu => h.work u v (work_of_goes rfl hu).2⟩
    rcases called_goes hu with ⟨_, h1⟩ | ⟨_, h1⟩
    · cases h1
      have h2 : Y.slot x = p := hs.kept t ⟨x, .sftpReaddir, p⟩ (Phase.work_inside ht)
      rw [show (Y.goes t (.called x .sftpReaddir)).slot x = p from h2]
      exact h.work t ⟨x, .sftpReaddir, p⟩ (Phase.work_inside ht) hf
    · exact h.called u y f h1 hf
  | opened x p hx hp hs ht =>
    refine ⟨fun u y f hu hf => ?_, h.work⟩
    show Function.update Y.slot x (some p) y ≠ none
    by_cases hy : y = x
    · rw [hy, Function.update_self]
      exact Option.some_ne_none p
    · rw [Function.update_of_ne hy]
      exact h.called u y f hu hf

/-- one step, with what a thread on its own does for it -/
theorem solo_follows {A : Sys} (hf : Slots.Follows Fn.gives Y A) (hout : ∀ u, A.phase u = .out) (h : Tested Y)
    (hs : Stays Y) (ha : Apart Y) {u : Tid} (hst : Step Y u Y') :
    ∃ A', Solo t A A' ∧ Slots.Follows Fn.gives Y' A' ∧ ∀ u, A'.phase u = .out := by
  cases hst with
  | call x fn hu ht =>
    have h1 : Slots.Follows Fn.gives (Y.goes u (.called x fn)) A :=
      hf.goes (fun v hv => by cases hv) fun v hv => by
        rw [hu] at hv
        cases hv
    exact ⟨A, Trans.Reaches.refl, h1, hout⟩
  | @load x fn hu =>
    have h1 : Slots.Follows Fn.gives (Y.goes u (.loaded ⟨x, fn, Y.slot x⟩)) A :=
      hf.goes (fun v hv => by cases hv) fun v hv => by
        rw [hu] at hv
        cases hv
    exact ⟨A, Trans.Reaches.refl, h1, hout⟩
  | @enter w hu =>
    have hw : A.slot w.slot = w.res := by
      have h1 : A.slot w.slot = Y.slot w.slot :=
        hf.kept_at ha (Phase.on_of_work (Phase.work_loaded hu)) fun v hv => by
          rw [hu] at hv
          cases hv
      exact h1.trans (hs.kept u w (Phase.work_loaded hu))
    have h1 : Solo t A (once Fn.gives A w.slot w.job) := solo_call (hout t) fun h2 => by
      rw [hw]
      exact h.work u w (Phase.work_loaded hu) h2
    exact ⟨_, h1, hf.enter hu hw, hout⟩
  | back hu => exact ⟨A, Trans.Reaches.refl, hf.back hu rfl, hout⟩
  | round hu => exact ⟨A, Trans.Reaches.refl, hf.back hu rfl, hout⟩
  | opened x p hx hp hsl hu =>
    have hA : A.slot x = none := by
      rcases hf.slot_or x with h1 | h1
      · exact h1
      · exact h1.trans hx
    have h1 : Step A t { A with slot := Function.update A.slot x (some p) } := by
      refine .opened x p hA (hf.log ▸ hp) (fun y hy => ?_) fun v hv => ?_
      · rcases hf.slot_or y with h2 | h2
        · rw [h2] at hy
          cases hy
        · exact hsl y (h2.symm.trans hy)
      · rw [hout v] at hv
        cases hv
    exact ⟨_, ⟨[t], fun v hv => List.mem_singleton.mp hv, Trans.Run.single h1⟩, hf.fill hu, hout⟩

/-- **One thread for each wrapper is one thread.**  In an interleaving in which no two threads are in calls on one
wrapper at a time, libssh2 sees the calls that one thread makes which runs the same sections on its own, each call
from beginning to end before the next, and the wrappers that are not just being closed have the pointers they have
then. -/
theorem handle_atomic (hr : Trans.Run (StepIf Proper) World.empty as W) {ts : List Tid}
    (h : Trans.Run (fun Y t Y' => Step Y t Y' ∧ Apart Y') (sysOf W) ts Y) (t : Tid) :
    ∃ us A, (∀ u ∈ us, u = t) ∧ Trans.Run Step (sysOf W) us A ∧ (∀ u, A.phase u = .out) ∧ A.log = Y.log ∧
      ∀ x, (∀ u w, Y.phase u = .inside w → w.job.gives = true → w.slot ≠ x) → A.slot x = Y.slot x := by
  have h0 := (begins (ledger_run hr).1).tidy
  have hall : (Stays Y ∧ Apart Y ∧ Tested Y) ∧
      ∃ A, Solo t (sysOf W) A ∧ Slots.Follows Fn.gives Y A ∧ ∀ u, A.phase u = .out := by
    induction h with
    | nil =>
      refine ⟨⟨h0.toStays, fun a b x ha => (by cases ha), fun u x fn hu => (by cases hu),
        fun u w hu => (by cases hu)⟩, sysOf W, Trans.Reaches.refl, ⟨rfl, fun u w hu => (by cases hu), fun _ _ => rfl⟩,
        fun _ => rfl⟩
    | snoc _ hst ih =>
      obtain ⟨⟨hs, ha, ht⟩, A, hA, hf, hout⟩ := ih
      obtain ⟨A', h1, h2, h3⟩ := solo_follows (t := t) hf hout ht hs ha hst.1
      have halone : Slots.Alone Fn.gives _ := alone_of_apart hs ha
      exact ⟨⟨hs.step halone (step_slots hst.1), hst.2, ht.step hs ha hst.1⟩, A', hA.trans h1, h2, h3⟩
  obtain ⟨_, A, ⟨us, hus, h1⟩, hf, hout⟩ := hall
  exact ⟨us, A, hus, h1, hout, hf.log, hf.kept⟩

/-- a thread on its own closes the one file and then reads the other -/
theorem handle_atomic_withFiles : ∃ us A, (∀ u ∈ us, u = 1) ∧ Trans.Run Step (sysOf withFiles) us A ∧
    A.log = (.sftpRead, some ⟨6, pageAddr 3⟩) :: (.closeHandle, some ⟨4, pageAddr 2⟩) ::
      (sysOf withFiles).log := by
  obtain ⟨as, hr⟩ := withFiles_proper
  obtain ⟨ts, h⟩ := beside_run
  obtain ⟨us, A, hus, hrun, _, hlog, _⟩ := handle_atomic hr h 1
  exact ⟨us, A, hus, hrun, hlog⟩

end PyLibssh2.Handles

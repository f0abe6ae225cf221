import PyLibssh2.Base.Slots
import PyLibssh2.Ext.Isolated
import PyLibssh2.Threads.Sections

/-!
# Calls on files, directories and listeners

`PYLIBSSH2_Sftpfile_close`, `PYLIBSSH2_Sftpdir_close` and `Listener_cancel` hand the pointer to libssh2 after
they have given up the interpreter lock, and set it to `NULL` when they have it back.  `Channel_close` is not
like that (`PyLibssh2.Threads.Sections`).

* `Fn`, `Step`         the calls on such a wrapper, cut where another thread can get on;
* `sections_of_run`    what a program does in one thread is done by these sections.

`tell` and the deallocators of files and directories keep the lock, so that their sections follow one another;
nothing is lost when other threads may get on between them as well.
-/

set_option linter.unusedSectionVars false
set_option linter.unusedVariables false

namespace PyLibssh2.Handles

open World Slots
open Threads (Tid)

/-! ## calls on a wrapper -/

/-- the functions of libssh2 that are given `self->handle` or `self->listener` -/
inductive Fn
  | sftpRead | sftpWrite | sftpSeek | sftpTell | sftpReaddir | forwardAccept
  | closeHandle | forwardCancel
  deriving DecidableEq

/-- the pointer is set to `NULL` afterwards -/
def Fn.gives : Fn → Bool
  | .closeHandle | .forwardCancel => true
  | _ => false

/-- the method raises if the pointer is `NULL`; `accept` and the closing functions have no such test -/
def Fn.tested : Fn → Bool
  | .sftpRead | .sftpWrite | .sftpSeek | .sftpTell | .sftpReaddir => true
  | .forwardAccept | .closeHandle | .forwardCancel => false

/-- the pointers in the wrappers, the calls so far, and where each thread is -/
abbrev Sys := Slots.State Tid Ref Fn Ptr

inductive Step : Sys → Tid → Sys → Prop
  /-- a method up to where it gives up the lock; files and directories are closed by `Sftp.close_file`,
  `Sftp.close_dir`, the loops of `Sftp_shutdown` and their deallocators, listeners by
  `Session.forward_cancel` and their deallocator -/
  | call {Y : Sys} {t : Tid} (x : Ref) (fn : Fn) (h : Y.phase t = .out)
      (ht : fn.tested = true → Y.slot x ≠ none) : Step Y t (Y.goes t (.called x fn))
  /-- the argument is read -/
  | load {Y : Sys} {t : Tid} {x : Ref} {fn : Fn} (h : Y.phase t = .called x fn) :
      Step Y t (Y.goes t (.loaded ⟨x, fn, Y.slot x⟩))
  | enter {Y : Sys} {t : Tid} {w : Work Ref Fn Ptr} (h : Y.phase t = .loaded w) :
      Step Y t { Y.goes t (.inside w) with log := (w.job, w.res) :: Y.log }
  | back {Y : Sys} {t : Tid} {w : Work Ref Fn Ptr} (h : Y.phase t = .inside w) :
      Step Y t { Y.goes t .out with slot := left Fn.gives Y w }
  /-- the next round of `list_files`, which does not test the pointer again -/
  | round {Y : Sys} {t : Tid} {x : Ref} {p : Option Ptr} (h : Y.phase t = .inside ⟨x, .sftpReaddir, p⟩) :
      Step Y t (Y.goes t (.called x .sftpReaddir))
  /-- `open_file`, `open_dir` or `forward_listen` returns a new wrapper -/
  | opened {Y : Sys} {t : Tid} (x : Ref) (p : Ptr) (hx : Y.slot x = none)
      (hp : p ∉ freed Fn.gives Y.log) (hs : ∀ y, Y.slot y ≠ some p)
      (ht : ∀ u, (Y.phase u).on ≠ some x) :
      Step Y t { Y with slot := Function.update Y.slot x (some p) }

theorem step_slots {Y Y' : Sys} {t : Tid} (h : Step Y t Y') : Slots.Step Fn.gives Y t Y' := by
  cases h with
  | call x fn h ht => exact .call x fn h
  | load h => exact .load h
  | enter h => exact .enter h
  | back h => exact .back .out h rfl
  | round h => exact .back (.called _ .sftpReaddir) h rfl
  | opened x p hx hp hs ht => exact .fill x p hx hp hs ht

/-! ## the sections of a world -/

/-- files, directories and listeners -/
def late : Kind → Bool
  | .file | .dir | .listener => true
  | _ => false

def ownHandle (o : Obj) : Option Ptr := if late o.kind then o.ptr else none

/-- `self->handle` or `self->listener` -/
def handleOf (W : World) (x : Ref) : Option Ptr := (W.heap x).bind ownHandle

def entry : Call → Option (Fn × Option Ptr)
  | .use .sftpRead a => some (.sftpRead, a)
  | .use .sftpWrite a => some (.sftpWrite, a)
  | .use .sftpSeek a => some (.sftpSeek, a)
  | .use .sftpTell a => some (.sftpTell, a)
  | .use .sftpReaddir a => some (.sftpReaddir, a)
  | .acquire .channelForwardAccept a _ _ => some (.forwardAccept, a)
  | .free .sftpCloseHandle a => some (.closeHandle, a)
  | .free .channelForwardCancel a => some (.forwardCancel, a)
  | _ => none

def sysOf (W : World) : Sys := ⟨handleOf W, W.calls.filterMap entry, fun _ => .out⟩

variable {S : Ptr → Prop} {T : Ref → Prop} {K : Kind → Prop} {L : Prop} {W W' : World} {Y Y' Y'' : Sys}
  {t : Tid} {x : Ref} {c : Obj} {p : Ptr} {a : Option Ptr} {e : Call} {fn : Fn} {act : Act}
  {as : List Act} {E : Prop} {g : Ghost}

theorem sysOf_congr (hh : ∀ x, handleOf W' x = handleOf W x)
    (hc : W'.calls.filterMap entry = W.calls.filterMap entry) : sysOf W' = sysOf W := by
  have h1 : handleOf W' = handleOf W := funext hh
  unfold sysOf
  rw [h1, hc]

theorem entries_log_none (he : entry e = none) : (W.log e).calls.filterMap entry =
    W.calls.filterMap entry := List.filterMap_cons_none he

theorem entries_log_some {r : Fn × Option Ptr} (he : entry e = some r) :
    (W.log e).calls.filterMap entry = r :: W.calls.filterMap entry := List.filterMap_cons_some he

/-- the calls that are followed -/
structure Entry (e : Call) (fn : Fn) (a : Option Ptr) : Prop where
  arg : e.arg = a
  takes : ∀ k, e.takes k → late k = true
  tested : fn.tested = true → ¬ e.Nullable
  quiet : e.Quiet → fn.gives = true → a = none
  notInit : ∀ s, e ≠ .init s

theorem entry_spec (he : entry e = some (fn, a)) : Entry e fn a := by
  cases e with
  | init s => cases he
  | startup r rc => cases he
  | disconnect r => cases he
  | use f r =>
    cases f <;> cases he <;>
      exact ⟨rfl, fun k hk => (by cases hk; rfl), fun _ h => h, fun _ h => (by cases h),
        fun s h => (by cases h)⟩
  | acquire f r got os =>
    cases f <;> cases he
    exact ⟨rfl, fun k hk => (by cases hk; rfl), fun h => (by cases h), fun _ h => (by cases h),
      fun s h => (by cases h)⟩
  | free f r =>
    cases f <;> cases he
    · refine ⟨rfl, fun k hk => ?_, fun h => (by cases h), fun hq _ => hq, fun s h => (by cases h)⟩
      rcases hk with rfl | rfl
      · rfl
      · rfl
    · exact ⟨rfl, fun k hk => (by cases hk; rfl), fun h => (by cases h), fun hq _ => hq,
        fun s h => (by cases h)⟩

theorem handleOf_open (hx : W.Open x c p) (hk : late c.kind = true) : handleOf W x = some p := by
  unfold handleOf ownHandle
  rw [hx.1, Option.bind_some, if_pos hk]
  exact hx.2

theorem handleOf_some (h : handleOf W x = some p) : ∃ c, W.Open x c p ∧ late c.kind = true := by
  unfold handleOf at h
  obtain ⟨c, hc, h1⟩ := Option.bind_eq_some_iff.mp h
  unfold ownHandle at h1
  split at h1
  · exact ⟨c, ⟨hc, h1⟩, ‹_›⟩
  · cases h1

theorem handleOf_shut (hp : (W.heap x).bind Obj.ptr = none) : handleOf W x = none := by
  by_contra h
  obtain ⟨p, h1⟩ := Option.ne_none_iff_exists'.mp h
  obtain ⟨c, hc, _⟩ := handleOf_some h1
  rw [hc.1, Option.bind_some, hc.2] at hp
  cases hp

theorem handleOf_heap {y : Ref} (h : W'.heap x = W.heap y) : handleOf W' x = handleOf W y := by
  unfold handleOf
  rw [h]

theorem handleOf_modify {f : Obj → Obj} (hf : ∀ o, (f o).kind = o.kind ∧ (f o).ptr = o.ptr) (y : Ref) :
    handleOf (W.modify x f) y = handleOf W y := by
  by_cases hy : y = x
  · unfold handleOf
    rw [hy, heap_modify_self]
    cases W.heap x with
    | none => rfl
    | some o =>
      show ownHandle (f o) = ownHandle o
      unfold ownHandle
      rw [(hf o).1, (hf o).2]
  · exact handleOf_heap (heap_modify_of_ne _ _ _ _ hy)

theorem handleOf_released {ff : FreeFn} :
    handleOf (released ff x p W) = Function.update (handleOf W) x none := by
  funext y
  by_cases hy : y = x
  · rw [hy, Function.update_self]
    apply handleOf_shut
    rw [heap_released_self]
    cases W.heap x <;> rfl
  · rw [Function.update_of_ne hy]
    apply handleOf_heap
    rw [heap_released, if_neg hy]

/-! ## one thread -/

abbrev Solo (t : Tid) : Sys → Sys → Prop := Trans.Reaches Step fun u => u = t

theorem solo_eq (h : Y' = Y) : Solo t Y Y' := by
  rw [h]
  exact Trans.Reaches.refl

theorem goes_out (h : Y.phase t = .out) : Y.goes t .out = Y := by
  unfold State.goes
  rw [← h, Function.update_eq_self]

/-- thread `t` has come to libssh2 with `x` -/
def entered (Y : Sys) (t : Tid) (x : Ref) (fn : Fn) : Sys :=
  { Y.goes t (.inside ⟨x, fn, Y.slot x⟩) with log := (fn, Y.slot x) :: Y.log }

theorem run_entered (h : Y.phase t = .out) (ht : fn.tested = true → Y.slot x ≠ none) :
    Trans.Run Step Y [t, t, t] (entered Y t x fn) := by
  have h1 : Step Y t (Y.goes t (.called x fn)) := .call x fn h ht
  have h2 : Step (Y.goes t (.called x fn)) t ((Y.goes t (.called x fn)).goes t
      (.loaded ⟨x, fn, Y.slot x⟩)) := .load (phase_goes_self _)
  rw [goes_goes] at h2
  have h3 : Step (Y.goes t (.loaded ⟨x, fn, Y.slot x⟩)) t
      { (Y.goes t (.loaded ⟨x, fn, Y.slot x⟩)).goes t (.inside ⟨x, fn, Y.slot x⟩) with
        log := (fn, Y.slot x) :: Y.log } := .enter (w := ⟨x, fn, Y.slot x⟩) (phase_goes_self _)
  rw [goes_goes] at h3
  exact ((Trans.Run.nil.snoc h1).snoc h2).snoc h3

theorem run_call (h : Y.phase t = .out) (ht : fn.tested = true → Y.slot x ≠ none) :
    Trans.Run Step Y ([t, t, t] ++ [t]) (once Fn.gives Y x fn) := by
  have h1 := run_entered h ht
  have h2 : Step (entered Y t x fn) t { (entered Y t x fn).goes t .out with
      slot := left Fn.gives (entered Y t x fn) ⟨x, fn, Y.slot x⟩ } :=
    .back (phase_goes_self (S := Y) _)
  have hph : ((entered Y t x fn).goes t .out).phase = Y.phase := by
    show ((Y.goes t (.inside ⟨x, fn, Y.slot x⟩)).goes t .out).phase = Y.phase
    rw [goes_goes, goes_out h]
  have hend : { (entered Y t x fn).goes t .out with
      slot := left Fn.gives (entered Y t x fn) ⟨x, fn, Y.slot x⟩ } = once Fn.gives Y x fn := by
    show (⟨_, _, ((entered Y t x fn).goes t .out).phase⟩ : Sys) = once Fn.gives Y x fn
    rw [hph]
    rfl
  rw [hend] at h2
  exact h1.snoc h2

theorem solo_call (h : Y.phase t = .out) (ht : fn.tested = true → Y.slot x ≠ none) :
    Solo t Y (once Fn.gives Y x fn) := ⟨[t, t, t] ++ [t], by simp, run_call h ht⟩

theorem solo_use (he : entry e = some (fn, a)) (hq : e.Quiet) (hx : handleOf W x = a)
    (ht : fn.tested = true → a ≠ none) : Solo t (sysOf W) (sysOf (W.log e)) := by
  have h1 : Solo t (sysOf W) (once Fn.gives (sysOf W) x fn) := solo_call rfl fun h2 => by
    show handleOf W x ≠ none
    rw [hx]
    exact ht h2
  have hleft : left Fn.gives (sysOf W) ⟨x, fn, handleOf W x⟩ = handleOf W := by
    unfold left
    split
    · rename_i hg
      have h2 : handleOf W x = none := hx.trans ((entry_spec he).quiet hq hg)
      show Function.update (handleOf W) x none = handleOf W
      rw [← h2, Function.update_eq_self]
    · rfl
  have hend : once Fn.gives (sysOf W) x fn = sysOf (W.log e) := by
    unfold once sysOf
    rw [entries_log_some he]
    show (⟨left Fn.gives (sysOf W) ⟨x, fn, handleOf W x⟩, (fn, handleOf W x) :: _, _⟩ : Sys) = _
    rw [hleft, hx]
    rfl
  rw [hend] at h1
  exact h1

def Vacant (W : World) : Prop := ∃ x, handleOf W x = none

theorem passes_entry (he : entry e = some (fn, a)) (hp : W.Passes S T e) (hv : Vacant W) :
    ∃ x, handleOf W x = a ∧ (fn.tested = true → a ≠ none) := by
  have hs := entry_spec he
  cases ha : a with
  | none =>
    obtain ⟨x, hx⟩ := hv
    exact ⟨x, hx, fun h1 _ => hs.tested h1 (hp.1 (hs.arg.trans ha))⟩
  | some p =>
    obtain ⟨k, hk, hh⟩ := hp.2 p (hs.arg.trans ha)
    have hl := hs.takes k hk
    rcases hh with ⟨h1, _⟩ | ⟨x, c, _, hx, hck⟩
    · rw [h1] at hl
      cases hl
    · exact ⟨x, handleOf_open hx (by rw [hck]; exact hl), fun _ h1 => by cases h1⟩

theorem solo_log (hq : e.Quiet) (hp : W.Passes S T e) (hv : Vacant W) :
    Solo t (sysOf W) (sysOf (W.log e)) := by
  cases he : entry e with
  | none => exact solo_eq (sysOf_congr (fun _ => rfl) (entries_log_none he))
  | some r =>
    obtain ⟨fn, a⟩ := r
    obtain ⟨x, hx, ht⟩ := passes_entry he hp hv
    exact solo_use he hq hx ht

theorem solo_released {ff : FreeFn} (hx : W.Open x c p) (hk : ff.takes c.kind) :
    Solo t (sysOf W) (sysOf (released ff x p W)) := by
  cases he : entry (.free ff (some p)) with
  | none =>
    refine solo_eq (sysOf_congr (fun y => ?_) (entries_log_none he))
    rw [handleOf_released]
    by_cases hy : y = x
    · -- the wrapper is a channel, an sftp or a session
      have hl : late c.kind = false := by
        cases ff <;> cases he
        all_goals
          have h1 : c.kind = _ := hk
          rw [h1]
          rfl
      rw [hy, Function.update_self]
      by_contra h1
      obtain ⟨q, h2⟩ := Option.ne_none_iff_exists'.mp (Ne.symm h1)
      obtain ⟨d, hd, h3⟩ := handleOf_some h2
      have hdc : c = d := (Open.unique hx hd).1
      rw [← hdc, hl] at h3
      cases h3
    · rw [Function.update_of_ne hy]
  | some r =>
    obtain ⟨fn, a⟩ := r
    have hs := entry_spec he
    have ha : some p = a := hs.arg
    have hl : handleOf W x = some p := handleOf_open hx (hs.takes c.kind hk)
    have hg : fn.gives = true := by
      cases ff <;> cases he <;> rfl
    have h1 : Solo t (sysOf W) (once Fn.gives (sysOf W) x fn) := solo_call rfl fun _ h2 => by
      have h3 : handleOf W x = none := h2
      rw [hl] at h3
      cases h3
    have hend : once Fn.gives (sysOf W) x fn = sysOf (released ff x p W) := by
      have hcalls : (released ff x p W).calls.filterMap entry = (fn, a) :: W.calls.filterMap entry :=
        entries_log_some he
      unfold once sysOf
      rw [hcalls, handleOf_released, ← ha]
      unfold left
      rw [if_pos hg]
      show (⟨_, (fn, handleOf W x) :: _, _⟩ : Sys) = _
      rw [hl]
    rw [hend] at h1
    exact h1

theorem vacant_change (h : Change S T K W W') (hv : Vacant W) : Vacant W' := by
  obtain ⟨x, hx⟩ := hv
  refine ⟨x, ?_⟩
  by_contra h1
  obtain ⟨p, hp⟩ := Option.ne_none_iff_exists'.mp h1
  obtain ⟨d, hd, hk⟩ := handleOf_some hp
  obtain ⟨c, hc, hw⟩ := h.only.opens hd
  rw [handleOf_open hc (by rw [← hw.kind]; exact hk)] at hx
  cases hx

theorem solo_change (h : Change S T K W W') (hv : Vacant W) : Solo t (sysOf W) (sysOf W') := by
  cases h with
  | call e hq hp => exact solo_log hq hp hv
  | free fn hx hk _ _ => exact solo_released hx hk
  | wear x f hf _ =>
    exact solo_eq (sysOf_congr (handleOf_modify fun o => ⟨(hf o).1.kind, (hf o).2⟩) rfl)
  | thin o k r _ _ => exact Trans.Reaches.refl
  | del x hp _ =>
    refine solo_eq (sysOf_congr (fun y => ?_) rfl)
    by_cases hy : y = x
    · rw [hy, handleOf_shut hp]
      apply handleOf_shut
      rw [heap_del, if_pos rfl]
      rfl
    · apply handleOf_heap
      rw [heap_del, if_neg hy]

theorem solo_changes (h : Changes S T K W W') (hv : Vacant W) :
    Solo t (sysOf W) (sysOf W') := by
  have h1 : Solo t (sysOf W) (sysOf W') ∧ Vacant W' := by
    induction h with
    | refl => exact ⟨Trans.Reaches.refl, hv⟩
    | tail _ hc ih => exact ⟨ih.1.trans (solo_change hc ih.2), vacant_change hc ih.2⟩
  exact h1.1

/-! ### opening -/

theorem solo_acquire {ff : OpenFn} {arg : Ptr} {got : Option Ptr} {os : List Ptr} {raw : List (Ref × Ptr)}
    {n : Nat} (hp : W.Passes S T (.acquire ff (some arg) none [])) (hv : Vacant W) :
    Solo t (sysOf W)
      (sysOf { W.log (.acquire ff (some arg) got os) with fresh := n, raw := raw }) := by
  have h1 : Solo t (sysOf W) (sysOf (W.log (.acquire ff (some arg) none []))) := solo_log rfl hp hv
  have h2 : sysOf { W.log (.acquire ff (some arg) got os) with fresh := n, raw := raw } =
      sysOf (W.log (.acquire ff (some arg) none [])) := by
    refine sysOf_congr (fun _ => rfl) ?_
    show (Call.acquire ff (some arg) got os :: W.calls).filterMap entry = _
    cases he : entry (.acquire ff (some arg) none []) with
    | none =>
      rw [entries_log_none he]
      apply List.filterMap_cons_none
      cases ff <;> cases he <;> rfl
    | some r =>
      rw [entries_log_some he]
      apply List.filterMap_cons_some
      cases ff <;> cases he
      rfl
  rw [h2]
  exact h1

theorem handleOf_setAdd {o : Ref} {k : Kind} (y : Ref) : handleOf (setAdd W o k x) y = handleOf W y := by
  unfold setAdd
  split
  · rfl
  · exact handleOf_modify (f := fun c => { c with refcnt := c.refcnt + 1 }) (fun _ => ⟨rfl, rfl⟩) y

theorem handleOf_openWith {ff : OpenFn} {arg : Ptr} {leak : Nat} {A : Answer} {addr : Addr} (hr : A.ret = some addr)
    (hm : A.alloc = true) : handleOf (openWith ff arg c leak A W).1 =
      Function.update (handleOf W) (W.fresh + 1) (ownHandle { c with ptr := some ⟨W.fresh, addr⟩ }) := by
  funext y
  simp only [openWith, hr, hm, if_true]
  have hnew : ∀ (V : World) (d : Obj), handleOf (new d V).1 y =
      Function.update (handleOf V) V.fresh (ownHandle d) y := by
    intro V d
    by_cases hy : y = V.fresh
    · rw [hy, Function.update_self]
      show (Function.update V.heap V.fresh (some { d with refcnt := 1 }) V.fresh).bind ownHandle = ownHandle d
      rw [Function.update_self]
      rfl
    · rw [Function.update_of_ne hy]
      apply handleOf_heap
      exact Function.update_of_ne hy ..
  refine (handleOf_modify (f := fun c => { c with refcnt := c.refcnt + leak }) (fun _ => ⟨rfl, rfl⟩) y).trans ?_
  split
  · exact (handleOf_setAdd y).trans (hnew _ _)
  · exact hnew _ _

/-! ### what has been given back -/

theorem freed_entries {cs : List Call} (h : p ∈ freed Fn.gives (cs.filterMap entry)) : Freed cs p := by
  unfold freed at h
  obtain ⟨r, hr, hp⟩ := List.mem_filterMap.mp h
  obtain ⟨e, he, h1⟩ := List.mem_filterMap.mp hr
  obtain ⟨fn, a⟩ := r
  refine ⟨e, he, ?_⟩
  have hg : fn.gives = true ∧ a = some p := by
    split at hp
    · exact ⟨‹_›, hp⟩
    · cases hp
  have harg := (entry_spec h1).arg
  rw [hg.2] at harg
  cases e with
  | free ff r =>
    have hr : r = some p := harg
    rw [hr]
    exact decide_eq_true rfl
  | init s => cases h1
  | startup r rc => cases h1
  | disconnect r => cases h1
  | use f r =>
    cases f <;> cases h1
    all_goals cases hg.1
  | acquire f r got os =>
    cases f <;> cases h1
    cases hg.1

/-! ### what a program does in one thread -/

theorem solo_outcome (h : Ledger W) (hb : Books E g [] [] [] W) (ho : Outcome S T W L W') :
    Solo t (sysOf W) (sysOf W') := by
  have hnew : W.heap (W.fresh + 1) = none := by
    by_contra h1
    exact absurd (hb.lt_fresh h1) (Nat.not_lt.mpr (Nat.le_succ _))
  have hv : Vacant W := ⟨W.fresh + 1, by unfold handleOf; rw [hnew]; rfl⟩
  cases ho with
  | changed f _ _ hc =>
    have h1 : Vacant { W with held := f } := hv
    exact solo_changes (W := { W with held := f }) hc h1
  | lost ff arg addr os raw _ hp => exact solo_acquire hp hv
  | started addr _ =>
    refine solo_eq (sysOf_congr (fun y => ?_) rfl)
    by_cases hy : y = W.fresh + 1
    · unfold handleOf
      rw [hy, hnew]
      show (Function.update W.heap (W.fresh + 1) _ (W.fresh + 1)).bind ownHandle = _
      rw [Function.update_self]
      rfl
    · apply handleOf_heap
      exact Function.update_of_ne hy ..
  | wrapped ff arg c leak A addr _ hr hm _ _ _ hp =>
    have h1 : Solo t (sysOf W) (sysOf { W.log (.acquire ff (some arg) (some ⟨W.fresh, addr⟩) c.owners) with
        fresh := W.fresh, raw := W.raw }) := solo_acquire hp hv
    apply h1.trans
    cases hl : late c.kind with
    | false =>
      refine solo_eq (sysOf_congr (fun y => ?_) (by rw [calls_openWith hr hm]; rfl))
      rw [handleOf_openWith hr hm]
      have h2 : ownHandle { c with ptr := some ⟨W.fresh, addr⟩ } = none := if_neg (by rw [hl]; decide)
      have h3 : handleOf W (W.fresh + 1) = none := by
        unfold handleOf
        rw [hnew]
        rfl
      rw [h2, ← h3, Function.update_eq_self]
      rfl
    | true =>
      have h2 : ownHandle { c with ptr := some ⟨W.fresh, addr⟩ } = some ⟨W.fresh, addr⟩ := if_pos hl
      -- nobody knows the handle yet
      have hunborn : ∀ k, ¬ Obtained W.calls ⟨W.fresh, addr⟩ k := fun k => h.unborn (Nat.le_refl _)
      have h3 : Step (sysOf { W.log (.acquire ff (some arg) (some ⟨W.fresh, addr⟩) c.owners) with
          fresh := W.fresh, raw := W.raw }) t _ :=
        .opened (W.fresh + 1) ⟨W.fresh, addr⟩ ?_ ?_ ?_ fun u hu => by cases hu
      · have hend : sysOf (openWith ff arg c leak A W).1 = { sysOf { W.log (.acquire ff (some arg)
            (some ⟨W.fresh, addr⟩) c.owners) with fresh := W.fresh, raw := W.raw } with
            slot := Function.update (handleOf W) (W.fresh + 1) (some ⟨W.fresh, addr⟩) } := by
          unfold sysOf
          rw [handleOf_openWith hr hm, calls_openWith hr hm, h2]
          rfl
        rw [hend]
        exact ⟨[t], fun u hu => List.mem_singleton.mp hu, Trans.Run.single h3⟩
      · show handleOf W (W.fresh + 1) = none
        unfold handleOf
        rw [hnew]
        rfl
      · intro hf
        have h4 : Freed (.acquire ff (some arg) (some ⟨W.fresh, addr⟩) c.owners :: W.calls) ⟨W.fresh, addr⟩ :=
          freed_entries hf
        rcases freed_cons.mp h4 with h5 | h5
        · cases h5
        · obtain ⟨k, hk⟩ := h.inOrder.obtained_of_freed h5
          exact hunborn k hk
      · intro y hy
        obtain ⟨d, hd, _⟩ := handleOf_some (W := W) hy
        exact hunborn _ (h.held y d _ hd).1

/-- **A program in one thread.**  Whatever a program does on its own, opening, working, closing and dropping in
any order, is done by the sections of its thread, one after the other. -/
theorem sections_of_run (hr : Trans.Run (StepIf Proper) World.empty as W) :
    ∃ ts, (∀ u ∈ ts, u = t) ∧ Trans.Run Step (sysOf World.empty) ts (sysOf W) := by
  induction hr with
  | nil => exact Trans.Reaches.refl
  | snoc hr hs ih =>
    obtain ⟨h, g, hb⟩ := ledger_run hr
    obtain ⟨hp, hen, rfl⟩ := hs
    exact Trans.Reaches.trans ih (solo_outcome h hb (ledger_outcome h hb hen hp))

theorem sections_of_run_withFile :
    ∃ ts, (∀ u ∈ ts, u = 1) ∧ Trans.Run Step (sysOf World.empty) ts (sysOf withFile) := by
  obtain ⟨as, hr⟩ := withFile_proper
  exact sections_of_run hr

end PyLibssh2.Handles

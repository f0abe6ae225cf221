import Mathlib.Data.Set.Insert
import PyLibssh2.Ext.Accounts
import PyLibssh2.Ext.Outcome
import PyLibssh2.Ext.Orphan
import PyLibssh2.Ext.Own

/-!
# What libssh2 is asked in any run

Nothing is assumed of libssh2, of memory or of the order of the calls.

* `Ledger`              the books on handles: each is returned once, a wrapper holds one that was returned
                        with its type and not given back, no two wrappers hold the same, and every call in the
                        list `Follows` the calls before it;
* `freed_once`          no handle is given back twice, and none but a session's is used afterwards;
* `handles_unshared`    a wrapper is the only one to hold its handle;
* `calls_typed`         every function gets a handle of its type, and which may get `NULL`;
* `handle_lost_iff`            the calls that leave a handle open that no wrapper holds.
-/

set_option linter.unusedSectionVars false
set_option linter.unusedVariables false

namespace PyLibssh2

open World

/-! ## lists of calls -/

/-- the handle that a call returns, with its type -/
def Call.gets : Call → Option (Ptr × Kind)
  | .init s => some (s, .session)
  | .acquire fn _ (some p) _ => some (p, fn.gives)
  | _ => none

/-- the handle `p` was returned, of the type `k` -/
def Obtained (cs : List Call) (p : Ptr) (k : Kind) : Prop := ∃ e ∈ cs, e.gets = some (p, k)

/-- the handle `p` was given back -/
def Freed (cs : List Call) (p : Ptr) : Prop := ∃ e ∈ cs, Call.frees p e = true

/-- the call `e` is in order after the calls `cs` -/
structure Follows (cs : List Call) (e : Call) : Prop where
  fresh : ∀ p k, e.gets = some (p, k) → ∀ j, ¬ Obtained cs p j
  null : e.arg = none → e.Nullable
  known : (∀ s, e ≠ .init s) → ∀ p, e.arg = some p →
    ∃ k, Obtained cs p k ∧ e.takes k ∧ (Freed cs p → k = .session ∧ Call.frees p e = false)

def InOrder : List Call → Prop
  | [] => True
  | e :: cs => Follows cs e ∧ InOrder cs

structure Ledger (W : World) : Prop where
  inOrder : InOrder W.calls
  young : ∀ p k, Obtained W.calls p k → p.serial < W.fresh
  held : ∀ x c p, W.Open x c p → Obtained W.calls p c.kind ∧ ¬ Freed W.calls p
  unshared : ∀ x y c d p, W.Open x c p → W.Open y d p → x = y
  sessions : ∀ x c, W.heap x = some c → Obtained W.calls c.session .session

variable {S : Ptr → Prop} {T : Ref → Prop} {K : Kind → Prop} {L : Prop} {W W' : World} {x y o s f : Ref} {c d : Obj}
  {p q arg : Ptr} {j k : Kind} {a : Answer} {act : Act} {fn : OpenFn} {leak : Nat} {as : List Act}
  {cs cs' : List Call} {e : Call} {E : Prop} {g : Ghost}

theorem obtained_cons : Obtained (e :: cs) p k ↔ e.gets = some (p, k) ∨ Obtained cs p k := by
  simp [Obtained]

theorem freed_cons : Freed (e :: cs) p ↔ Call.frees p e = true ∨ Freed cs p := by
  simp [Freed]

theorem Obtained.cons (h : Obtained cs p k) : Obtained (e :: cs) p k := obtained_cons.mpr (Or.inr h)

theorem Call.Quiet.gets (h : e.Quiet) : e.gets = none := by
  cases e with
  | init s => exact h.elim
  | acquire fn a got os =>
    have h1 : got = none := h
    rw [h1]
    rfl
  | startup a rc => rfl
  | disconnect a => rfl
  | use fn a => rfl
  | free fn a => rfl

theorem Call.Quiet.frees (h : e.Quiet) (p : Ptr) : Call.frees p e = false := by
  cases e with
  | free fn a =>
    have h1 : a = none := h
    rw [h1]
    rfl
  | init s => rfl
  | acquire fn a got os => rfl
  | startup a rc => rfl
  | disconnect a => rfl
  | use fn a => rfl

theorem InOrder.of_append (h : InOrder (cs' ++ cs)) : InOrder cs := by
  induction cs' with
  | nil => exact h
  | cons e cs' ih => exact ih h.2

theorem InOrder.follows (h : InOrder (cs' ++ e :: cs)) : Follows cs e := h.of_append.1

theorem frees_arg (h : Call.frees p e = true) : e.arg = some p ∧ ∀ s, e ≠ .init s := by
  cases e with
  | free fn a =>
    cases a with
    | none => cases h
    | some q =>
      have hq : q = p := of_decide_eq_true h
      rw [hq]
      exact ⟨rfl, fun s h1 => (by cases h1)⟩
  | init s => cases h
  | acquire fn a got os => cases h
  | startup a rc => cases h
  | disconnect a => cases h
  | use fn a => cases h

theorem Follows.frees (h : Follows cs e) (he : Call.frees p e = true) : ¬ Freed cs p := by
  intro hf
  obtain ⟨h1, h2⟩ := frees_arg he
  obtain ⟨k, _, _, h3⟩ := h.known h2 p h1
  rw [(h3 hf).2] at he
  cases he

theorem Ledger.fewer (h : Ledger W) (hc : W'.calls = W.calls) (hf : W'.fresh = W.fresh)
    (hw : ∀ x c, W'.heap x = some c → ∃ d, W.heap x = some d ∧ Worn d c) : Ledger W' := by
  have hopen : ∀ x c p, W'.Open x c p → ∃ d, W.Open x d p ∧ c.kind = d.kind := by
    intro x c p hx
    obtain ⟨d, hd, h1⟩ := hw x c hx.1
    refine ⟨d, ⟨hd, ?_⟩, h1.kind⟩
    rcases h1.ptr with h2 | h2
    · exact h2.symm.trans hx.2
    · have h3 := hx.2
      rw [h2] at h3
      cases h3
  refine ⟨hc ▸ h.inOrder, fun p k hp => ?_, fun x c p hx => ?_, fun x y c d p hx hy => ?_,
    fun x c hx => ?_⟩
  · rw [hf]
    exact h.young p k (hc ▸ hp)
  · obtain ⟨d, hd, hk⟩ := hopen x c p hx
    rw [hc, hk]
    exact h.held x d p hd
  · obtain ⟨c', hc', _⟩ := hopen x c p hx
    obtain ⟨d', hd', _⟩ := hopen y d p hy
    exact h.unshared x y c' d' p hc' hd'
  · obtain ⟨d, hd, h1⟩ := hw x c hx
    rw [hc, h1.session]
    exact h.sessions x d hd

theorem Ledger.has (h : Ledger W) (hS : ∀ p, S p → Obtained W.calls p .session) (hp : W.Has S T p k) :
    Obtained W.calls p k ∧ (Freed W.calls p → k = .session) := by
  rcases hp with ⟨rfl, h1⟩ | ⟨x, c, _, hx, rfl⟩
  · exact ⟨hS p h1, fun _ => rfl⟩
  · have h1 := h.held x c p hx
    exact ⟨h1.1, fun h2 => absurd h2 h1.2⟩

theorem Ledger.follows (h : Ledger W) (hS : ∀ p, S p → Obtained W.calls p .session)
    (ha : W.Passes S T e) (hnew : ∀ p k, e.gets = some (p, k) → ∀ j, ¬ Obtained W.calls p j)
    (hfree : ∀ p, Call.frees p e = false) : Follows W.calls e := by
  refine ⟨hnew, ha.1, fun _ p hp => ?_⟩
  obtain ⟨k, ht, hhas⟩ := ha.2 p hp
  obtain ⟨h1, h2⟩ := h.has hS hhas
  exact ⟨k, h1, ht, fun h3 => ⟨h2 h3, hfree p⟩⟩

theorem Ledger.call (h : Ledger W) (hS : ∀ p, S p → Obtained W.calls p .session) (hq : e.Quiet)
    (ha : W.Passes S T e) : Ledger (W.log e) := by
  have hfol : Follows W.calls e := h.follows hS ha (fun p k hg => by
    rw [hq.gets] at hg
    cases hg) hq.frees
  have hfreed : ∀ p, Freed (e :: W.calls) p ↔ Freed W.calls p := fun p => by
    rw [freed_cons, hq.frees p]
    exact ⟨fun h1 => h1.resolve_left (by decide), Or.inr⟩
  refine ⟨⟨hfol, h.inOrder⟩, fun p k hp => ?_, fun x c p hx => ?_, h.unshared,
    fun x c hx => (h.sessions x c hx).cons⟩
  · rcases obtained_cons.mp hp with h1 | h1
    · rw [hq.gets] at h1
      cases h1
    · exact h.young p k h1
  · obtain ⟨h1, h2⟩ := h.held x c p hx
    exact ⟨h1.cons, fun h3 => h2 ((hfreed p).mp h3)⟩

theorem Ledger.release (h : Ledger W) (fn : FreeFn) (hx : W.Open x c p) (ht : fn.takes c.kind) :
    Ledger (released fn x p W) := by
  obtain ⟨h1, h2⟩ := h.held x c p hx
  have hfol : Follows W.calls (.free fn (some p)) := by
    refine ⟨fun p k hg => (by cases hg), fun h3 => (by cases h3), fun _ q hq => ?_⟩
    cases hq
    exact ⟨c.kind, h1, ht, fun h3 => absurd h3 h2⟩
  refine ⟨⟨hfol, h.inOrder⟩, fun q k hq => ?_, fun y d q hy => ?_, fun y z d e q hy hz => ?_,
    fun y d hy => ?_⟩
  · exact h.young q k ((obtained_cons.mp hq).resolve_left fun h3 => (by cases h3))
  · obtain ⟨hyx, hy⟩ := open_released.mp hy
    obtain ⟨h3, h4⟩ := h.held y d q hy
    refine ⟨h3.cons, fun h5 => ?_⟩
    rcases freed_cons.mp h5 with h6 | h6
    · have hpq : p = q := of_decide_eq_true h6
      subst hpq
      exact hyx (h.unshared y x d c p hy hx)
    · exact h4 h6
  · exact h.unshared y z d e q (open_released.mp hy).2 (open_released.mp hz).2
  · obtain ⟨e, he, hw⟩ := (only_released (T := fun _ => True) (R := fun _ _ => True) fn p trivial).worn y d hy
    rw [hw.session]
    exact (h.sessions y e he).cons

theorem Ledger.change (h : Ledger W) (hS : ∀ p, S p → Obtained W.calls p .session)
    (hc : Change S T K W W') : Ledger W' ∧ ∀ p, S p → Obtained W'.calls p .session := by
  have hworn := hc.only.worn
  cases hc with
  | call e hq ha => exact ⟨h.call hS hq ha, fun p hp => (hS p hp).cons⟩
  | free fn hx ht _ _ => exact ⟨h.release fn hx ht, fun p hp => (hS p hp).cons⟩
  | wear x f _ _ => exact ⟨h.fewer rfl rfl hworn, hS⟩
  | thin o k r _ _ => exact ⟨h.fewer rfl rfl hworn, hS⟩
  | del x _ _ => exact ⟨h.fewer rfl rfl hworn, hS⟩

theorem Ledger.changes (h : Ledger W) (hS : ∀ p, S p → Obtained W.calls p .session)
    (hc : Changes S T K W W') : Ledger W' := by
  have h1 : Ledger W' ∧ ∀ p, S p → Obtained W'.calls p .session := by
    induction hc with
    | refl => exact ⟨h, hS⟩
    | tail _ h1 ih => exact ih.1.change ih.2 h1
  exact h1.1

/-! ## opening -/

theorem Ledger.unborn (h : Ledger W) (hp : W.fresh ≤ p.serial) : ¬ Obtained W.calls p k :=
  fun h1 => absurd (h.young p k h1) (Nat.not_lt_of_le hp)

/-- a handle that was never given back was never returned either -/
theorem InOrder.obtained_of_freed (h : InOrder cs) (hp : Freed cs p) : ∃ k, Obtained cs p k := by
  induction cs with
  | nil =>
    obtain ⟨_, h1, _⟩ := hp
    exact absurd h1 List.not_mem_nil
  | cons e cs ih =>
    rcases freed_cons.mp hp with h1 | h1
    · obtain ⟨h2, h3⟩ := frees_arg h1
      obtain ⟨k, h4, _⟩ := h.1.known h3 p h2
      exact ⟨k, h4.cons⟩
    · obtain ⟨k, h2⟩ := ih h.2 h1
      exact ⟨k, h2.cons⟩

theorem Ledger.got (h : Ledger W) (hfol : Follows W.calls e) (hg : e.gets = some (p, k))
    (hp : p.serial = W.fresh) (hfree : ∀ q, Call.frees q e = false) (raw : List (Ref × Ptr)) :
    Ledger { W.log e with fresh := W.fresh + 1, raw := raw } := by
  refine ⟨⟨hfol, h.inOrder⟩, fun q j hq => ?_, fun x c q hx => ?_, h.unshared,
    fun x c hx => (h.sessions x c hx).cons⟩
  · rcases obtained_cons.mp hq with h1 | h1
    · rw [hg] at h1
      cases h1
      exact Nat.lt_succ_of_le (Nat.le_of_eq hp)
    · exact Nat.lt_succ_of_lt (h.young q j h1)
  · obtain ⟨h1, h2⟩ := h.held x c q hx
    refine ⟨h1.cons, fun h3 => ?_⟩
    rcases freed_cons.mp h3 with h4 | h4
    · rw [hfree q] at h4
      cases h4
    · exact h2 h4

theorem Ledger.new (h : Ledger W) (hp : Obtained W.calls p c.kind) (hfree : ¬ Freed W.calls p)
    (hfew : ∀ x d, ¬ W.Open x d p) (hs : Obtained W.calls c.session .session) :
    Ledger (PyLibssh2.new { c with ptr := some p } W).1 := by
  have hheap : ∀ x d, (PyLibssh2.new { c with ptr := some p } W).1.heap x = some d →
      x = W.fresh ∧ d = { c with ptr := some p, refcnt := 1 } ∨ W.heap x = some d := by
    intro x d hx
    have hx : Function.update W.heap W.fresh (some { c with ptr := some p, refcnt := 1 }) x = some d := hx
    by_cases hxf : x = W.fresh
    · rw [hxf, Function.update_self] at hx
      cases hx
      exact Or.inl ⟨hxf, rfl⟩
    · rw [Function.update_of_ne hxf] at hx
      exact Or.inr hx
  have hopen : ∀ x d q, (PyLibssh2.new { c with ptr := some p } W).1.Open x d q →
      x = W.fresh ∧ q = p ∧ d.kind = c.kind ∨ W.Open x d q := by
    intro x d q hx
    rcases hheap x d hx.1 with ⟨h1, rfl⟩ | h1
    · exact Or.inl ⟨h1, (Option.some.inj hx.2).symm, rfl⟩
    · exact Or.inr ⟨h1, hx.2⟩
  refine ⟨h.inOrder, fun q k hq => Nat.lt_succ_of_lt (h.young q k hq), fun x d q hx => ?_,
    fun x y d e q hx hy => ?_, fun x d hx => ?_⟩
  · rcases hopen x d q hx with ⟨_, rfl, hk⟩ | h1
    · rw [hk]
      exact ⟨hp, hfree⟩
    · exact h.held x d q h1
  · rcases hopen x d q hx with ⟨hxf, h1, _⟩ | h1
    · rcases hopen y e q hy with ⟨hyf, _, _⟩ | h2
      · exact hxf.trans hyf.symm
      · rw [h1] at h2
        exact absurd h2 (hfew y e)
    · rcases hopen y e q hy with ⟨_, h2, _⟩ | h2
      · rw [h2] at h1
        exact absurd h1 (hfew x d)
      · exact h.unshared x y d e q h1 h2
  · rcases hheap x d hx with ⟨_, rfl⟩ | h1
    · exact hs
    · exact h.sessions x d h1

theorem Ledger.modify (h : Ledger W) (f : Obj → Obj) (hf : ∀ e, Worn e (f e)) : Ledger (W.modify x f) :=
  h.fewer rfl rfl (only_modify (T := fun _ => True) (R := fun _ _ => True) f hf trivial).worn

theorem Ledger.setAdd (h : Ledger W) : Ledger (setAdd W o k x) := by
  unfold PyLibssh2.setAdd
  split
  · exact h
  · have h1 : Ledger (W.setReg o k (W.reg o k ++ [(x, W.hashOf x)])) :=
      ⟨h.inOrder, h.young, h.held, h.unshared, h.sessions⟩
    exact h1.modify _ fun _ => ⟨rfl, rfl, rfl, rfl, rfl, Or.inl rfl⟩

theorem Ledger.hand (h : Ledger W) (g : Ref → Nat) : Ledger { W with held := g } :=
  ⟨h.inOrder, h.young, h.held, h.unshared, h.sessions⟩

theorem Ledger.made (h : Ledger W) (hfol : Follows W.calls e) (hg : e.gets = some (p, c.kind))
    (hp : p.serial = W.fresh) (hfree : ∀ q, Call.frees q e = false)
    (hs : Obtained (e :: W.calls) c.session .session) :
    Ledger (PyLibssh2.new { c with ptr := some p } { W.log e with fresh := W.fresh + 1 }).1 := by
  have hnot : ∀ j, ¬ Obtained W.calls p j := fun j => h.unborn (Nat.le_of_eq hp.symm)
  refine (h.got hfol hg hp hfree W.raw).new (obtained_cons.mpr (Or.inl hg)) (fun h1 => ?_)
    (fun x d hx => ?_) hs
  · rcases freed_cons.mp h1 with h2 | h2
    · rw [hfree p] at h2
      cases h2
    · obtain ⟨j, h3⟩ := h.inOrder.obtained_of_freed h2
      exact hnot j h3
  · exact hnot d.kind (h.held x d p hx).1

theorem Ledger.openWith (h : Ledger W) (hS : ∀ p, S p → Obtained W.calls p .session) {addr : Addr}
    (hr : a.ret = some addr) (hm : a.alloc = true) (hk : c.kind = fn.gives) (hs : S c.session)
    (harg : W.Passes S T (.acquire fn (some arg) none [])) : Ledger (openWith fn arg c leak a W).1 := by
  have hfol : Follows W.calls (.acquire fn (some arg) (some ⟨W.fresh, addr⟩) c.owners) := by
    refine h.follows hS (passes_refused harg) (fun q k hq j => ?_) fun _ => rfl
    cases hq
    exact h.unborn (Nat.le_refl _)
  have h1 := h.made hfol (c := c) (by rw [hk]; rfl) rfl (fun _ => rfl) (hS _ hs).cons
  simp only [PyLibssh2.openWith, hr, hm]
  refine Ledger.hand ?_ _
  refine Ledger.modify ?_ _ fun _ => ⟨rfl, rfl, rfl, rfl, rfl, Or.inl rfl⟩
  split
  · exact h1.setAdd
  · exact h1

theorem Ledger.init (h : Ledger W) (addr : Addr) : Ledger (Session.init addr W).1 := by
  have hfol : Follows W.calls (.init ⟨W.fresh, addr⟩) := by
    refine ⟨fun q k hq j => ?_, fun h1 => (by cases h1), fun h1 => absurd rfl (h1 _)⟩
    cases hq
    exact h.unborn (Nat.le_refl _)
  have hself : Obtained (.init ⟨W.fresh, addr⟩ :: W.calls) ⟨W.fresh, addr⟩ .session :=
    obtained_cons.mpr (Or.inl rfl)
  have h1 := h.made hfol (c := { child (W.fresh + 1) ⟨W.fresh, addr⟩ .session with managed := false }) rfl rfl
    (fun _ => rfl) hself
  refine Ledger.hand (h1.call (S := (· = ⟨W.fresh, addr⟩)) (T := fun _ => True) (e := .use .bannerSet (some ⟨W.fresh, addr⟩))
    (fun p hp => ?_) trivial (passes_session rfl rfl rfl)) _
  rw [hp]
  exact hself

theorem Ledger.outcome (h : Ledger W) (hS : ∀ p, S p → Obtained W.calls p .session)
    (ho : Outcome S T W L W') : Ledger W' := by
  cases ho with
  | changed g _ _ hc => exact (h.hand g).changes hS hc
  | wrapped fn arg c leak a addr _ hr hm hk hs _ harg => exact h.openWith hS hr hm hk hs harg
  | lost fn arg addr os raw _ harg =>
    refine h.got (p := ⟨W.fresh, addr⟩) (k := fn.gives) ?_ rfl rfl (fun _ => rfl) raw
    refine h.follows hS (passes_refused harg) (fun q k hq j => ?_) fun _ => rfl
    cases hq
    exact h.unborn (Nat.le_refl _)
  | started addr _ => exact h.init addr

/-! ## whole runs -/

def Proper (W : World) (a : Act) : Prop := a.Proper

/-- the sessions that libssh2 returned -/
def Session.Known (W : World) (p : Ptr) : Prop := Obtained W.calls p .session

theorem Ledger.tame (h : Ledger W) (hb : Books E g [] [] [] W) : Tame (Session.Known W) (fun _ => True) W := by
  refine ⟨fun o k x hx c hc => ?_, fun _ _ _ _ _ => trivial, h.sessions, fun x c p hx hk => ?_⟩
  · obtain ⟨d, hd, hk, _⟩ := hb.entry o k x hx
    rw [hc] at hd
    cases hd
    exact hk
  · have h1 := (h.held x c p hx).1
    rw [hk] at h1
    exact h1

theorem Act.within_true (act : Act) : act.Within fun _ => True := by
  cases act <;> trivial

theorem ledger_outcome (h : Ledger W) (hb : Books E g [] [] [] W) (ha : Enabled W act) (hp : act.Proper) :
    Outcome (Session.Known W) (fun _ => True) W (act.Loses W) (step W act).1 :=
  outcome_step (h.tame hb) act (Act.within_true act) ha hp fun s c hc hk => hb.root s c hc hk List.not_mem_nil

theorem ledger_empty : Ledger World.empty := by
  refine ⟨trivial, fun p k hp => ?_, fun x c p hx => (nomatch hx.1), fun x y c d p hx => (nomatch hx.1),
    fun x c hx => (nomatch hx)⟩
  obtain ⟨_, h1, _⟩ := hp
  exact absurd h1 List.not_mem_nil

/-- **The books on handles are in order in every state a program gets to.** -/
theorem ledger_run (hr : Trans.Run (StepIf Proper) World.empty as W) :
    Ledger W ∧ ∃ g, Books False g [] [] [] W := by
  induction hr with
  | nil => exact ⟨ledger_empty, _, books_empty⟩
  | snoc _ hs ih =>
    obtain ⟨h, g, hb⟩ := ih
    obtain ⟨hp, hen, rfl⟩ := hs
    obtain ⟨g', _, hb'⟩ := books_step hb _ hen fun h1 => h1.elim
    exact ⟨h.outcome (fun _ h1 => h1) (ledger_outcome h hb hen hp), g', hb'⟩

theorem started_proper : ∃ as, Trans.Run (StepIf Proper) World.empty as startedSession :=
  ⟨_, startedSession_run Proper trivial trivial⟩

theorem withFile_proper : ∃ as, Trans.Run (StepIf Proper) World.empty as withFile := by
  obtain ⟨as, hr⟩ := started_proper
  have h1 : StepIf Proper startedSession (.sftpInit 1 (answer 1)) withSftp :=
    ⟨trivial, ⟨by decide, _, rfl, rfl⟩, rfl⟩
  have h2 : StepIf Proper withSftp (.openFile 3 (answer 2)) withFile :=
    ⟨trivial, ⟨by decide, _, rfl, rfl⟩, rfl⟩
  exact ⟨_, (hr.snoc h1).snoc h2⟩

theorem withFiles_proper : ∃ as, Trans.Run (StepIf Proper) World.empty as withFiles := by
  obtain ⟨as, hr⟩ := withFile_proper
  have h1 : StepIf Proper withFile (.openFile 3 (answer 3)) withFiles :=
    ⟨trivial, ⟨by decide, _, rfl, rfl⟩, rfl⟩
  exact ⟨_, hr.snoc h1⟩

/-- the handles that are open at libssh2 and that no wrapper holds -/
def World.lost (W : World) : Set Ptr := {p | p ∈ W.handles ∧ ∀ x c, ¬ W.Open x c p}

theorem handles_same (hh : W'.history = W.history) : W'.handles = W.handles := by
  unfold World.handles
  rw [hh]

theorem lost_same (hh : W'.handles = W.handles)
    (ho : ∀ p, (∃ x c, W'.Open x c p) ↔ ∃ x c, W.Open x c p) : W'.lost = W.lost := by
  ext p
  have h1 : (∀ x c, ¬ W'.Open x c p) ↔ ∀ x c, ¬ W.Open x c p := by
    have h2 := not_congr (ho p)
    simpa only [not_exists] using h2
  show p ∈ W'.handles ∧ _ ↔ p ∈ W.handles ∧ _
  rw [hh, h1]

theorem Call.Quiet.handles (h : e.Quiet) (W : World) : (W.log e).handles = W.handles := by
  have hev : ∀ p, (∀ os, .acquire p os ∉ e.events) ∧ .release p ∉ e.events := by
    intro p
    cases e with
    | init s => exact h.elim
    | acquire fn a got os =>
      have h1 : got = none := h
      subst h1
      simp [Call.events]
    | startup a rc => simp [Call.events]
    | disconnect a => simp [Call.events]
    | use fn a => simp [Call.events]
    | free fn a =>
      have h1 : a = none := h
      subst h1
      simp [Call.events]
  ext p
  obtain ⟨h1, h2⟩ := hev p
  show (∃ os, _ ∈ (W.log e).history) ∧ _ ∉ (W.log e).history ↔ (∃ os, _ ∈ W.history) ∧ _ ∉ W.history
  simp only [history_log, List.mem_append, h1, h2, false_or]

theorem opens_wear {f : Obj → Obj} (hf : ∀ e, (f e).ptr = e.ptr) (p : Ptr) :
    (∃ y d, (W.modify x f).Open y d p) ↔ ∃ y d, W.Open y d p := by
  constructor
  · intro h
    obtain ⟨y, d, hd, hp⟩ := h
    rw [heap_modify] at hd
    by_cases hyx : y = x
    · subst hyx
      rw [if_pos rfl] at hd
      obtain ⟨e, he, rfl⟩ := Option.map_eq_some_iff.mp hd
      exact ⟨y, e, he, (hf e).symm.trans hp⟩
    · rw [if_neg hyx] at hd
      exact ⟨y, d, hd, hp⟩
  · intro h
    obtain ⟨y, d, hd, hp⟩ := h
    by_cases hyx : y = x
    · subst hyx
      exact ⟨y, f d, by rw [heap_modify_self, hd]; rfl, (hf d).trans hp⟩
    · exact ⟨y, d, (heap_modify_of_ne _ _ _ _ hyx).trans hd, hp⟩

/-- a wrapper that goes or is changed keeps its handle or gives it back -/
theorem Change.lost (hc : Change S T K W W') : W'.lost = W.lost := by
  cases hc with
  | call e hq _ => exact lost_same (hq.handles W) fun _ => Iff.rfl
  | wear x f hf _ => exact lost_same rfl (opens_wear fun e => (hf e).2)
  | thin o k r _ _ => exact lost_same rfl fun _ => Iff.rfl
  | del x hp _ =>
    refine lost_same rfl fun p => ⟨fun h => ?_, fun h => ?_⟩
    · obtain ⟨y, d, hy⟩ := h
      exact ⟨y, d, (open_del.mp hy).2⟩
    · obtain ⟨y, d, hy⟩ := h
      refine ⟨y, d, open_del.mpr ⟨fun hyx => ?_, hy⟩⟩
      rw [← hyx, ptr_of_heap hy.1, hy.2] at hp
      cases hp
  | @free x c p fn hx _ _ _ =>
    ext q
    have hh : q ∈ (released fn x p W).handles ↔ q ∈ W.handles ∧ q ≠ p := by
      show (∃ os, _ ∈ (released fn x p W).history) ∧ _ ∉ (released fn x p W).history ↔
        ((∃ os, _ ∈ W.history) ∧ _ ∉ W.history) ∧ _
      rw [history_released]
      simp only [List.mem_cons, reduceCtorEq, false_or, Lifetime.Event.release.injEq, not_or]
      tauto
    constructor
    · intro h
      obtain ⟨h1, h2⟩ := hh.mp h.1
      refine ⟨h1, fun y d hy => ?_⟩
      have hyx : y ≠ x := by
        intro hyx
        subst hyx
        exact h2 (Open.unique hy hx).2
      exact h.2 y d (open_released.mpr ⟨hyx, hy⟩)
    · intro h
      refine ⟨hh.mpr ⟨h.1, fun hqp => ?_⟩, fun y d hy => h.2 y d (open_released.mp hy).2⟩
      rw [hqp] at h
      exact h.2 x c hx

theorem Changes.lost (hc : Changes S T K W W') : W'.lost = W.lost := by
  induction hc with
  | refl => rfl
  | tail _ h1 ih => exact h1.lost.trans ih

theorem handles_got (h : Numbered W) (os : List Ptr) (hp : p.serial = W.fresh)
    (hev : e.events = .acquire p os :: e.events.tail) (hrest : ∀ ev ∈ e.events.tail, ∃ q, ev = .use q)
    (raw : List (Ref × Ptr)) :
    { W.log e with fresh := W.fresh + 1, raw := raw }.handles = insert p W.handles := by
  have hh : ∀ ev, ev ∈ (W.log e).history ↔ ev = .acquire p os ∨ ev ∈ e.events.tail ∨ ev ∈ W.history := by
    intro ev
    rw [history_log, hev]
    simp only [List.cons_append, List.mem_cons, List.mem_append, List.tail_cons]
  have hno : ∀ ev, (∀ q, ev ≠ .use q) → ev ∉ e.events.tail := by
    intro ev h1 h2
    obtain ⟨q, hq⟩ := hrest ev h2
    exact h1 q hq
  ext q
  show (∃ os, _ ∈ (W.log e).history) ∧ _ ∉ (W.log e).history ↔ q ∈ insert p W.handles
  rw [Set.mem_insert_iff]
  constructor
  · intro h1
    obtain ⟨⟨os', h2⟩, h3⟩ := h1
    by_cases hqp : q = p
    · exact Or.inl hqp
    · refine Or.inr ⟨⟨os', ?_⟩, fun h4 => h3 ((hh _).mpr (Or.inr (Or.inr h4)))⟩
      rcases (hh _).mp h2 with h4 | h4 | h4
      · cases h4
        exact absurd rfl hqp
      · exact absurd h4 (hno _ fun _ => (by simp))
      · exact h4
  · intro h1
    have hrel : .release q ∈ (W.log e).history → .release q ∈ W.history := by
      intro h2
      rcases (hh _).mp h2 with h3 | h3 | h3
      · cases h3
      · exact absurd h3 (hno _ fun _ => (by simp))
      · exact h3
    rcases h1 with rfl | ⟨⟨os', h2⟩, h3⟩
    · refine ⟨⟨os, (hh _).mpr (Or.inl rfl)⟩, fun h2 => ?_⟩
      have h3 := h.released q (hrel h2)
      omega
    · exact ⟨⟨os', (hh _).mpr (Or.inr (Or.inr h2))⟩, fun h4 => h3 (hrel h4)⟩

theorem lost_insert (hn : ∀ x c, ¬ W.Open x c p) (hh : W'.handles = insert p W.handles)
    (ho : W'.heap = W.heap) : W'.lost = insert p W.lost := by
  ext q
  show q ∈ W'.handles ∧ (∀ x c, ¬ (W'.heap x = some c ∧ _)) ↔ q ∈ insert p W.lost
  rw [hh, ho, Set.mem_insert_iff, Set.mem_insert_iff]
  constructor
  · rintro ⟨h1 | h1, h2⟩
    · exact Or.inl h1
    · exact Or.inr ⟨h1, h2⟩
  · rintro (h1 | h1)
    · refine ⟨Or.inl h1, ?_⟩
      rw [h1]
      exact hn
    · exact ⟨Or.inr h1.1, h1.2⟩

theorem lost_held (hn : p ∉ W.handles) (hh : W'.handles = insert p W.handles)
    (ho : ∀ q, (∃ x c, W'.Open x c q) ↔ q = p ∨ ∃ x c, W.Open x c q) : W'.lost = W.lost := by
  ext q
  show q ∈ W'.handles ∧ _ ↔ q ∈ W.handles ∧ _
  rw [hh, Set.mem_insert_iff]
  have h1 := not_congr (ho q)
  simp only [not_exists, not_or] at h1
  rw [h1]
  constructor
  · rintro ⟨h2 | h2, h3, h4⟩
    · exact absurd h2 h3
    · exact ⟨h2, h4⟩
  · rintro ⟨h2, h3⟩
    refine ⟨Or.inr h2, fun h4 => ?_, h3⟩
    rw [h4] at h2
    exact hn h2

theorem opens_setAdd (p : Ptr) : (∃ y d, (setAdd W o k x).Open y d p) ↔ ∃ y d, W.Open y d p := by
  unfold setAdd
  split
  · exact Iff.rfl
  · exact opens_wear (f := fun c => { c with refcnt := c.refcnt + 1 }) (fun _ => rfl) p

theorem opens_new (hy : W.heap W.fresh = none) (q : Ptr) :
    (∃ y d, (new { c with ptr := some p } W).1.Open y d q) ↔ q = p ∨ ∃ y d, W.Open y d q := by
  constructor
  · intro h
    obtain ⟨y, d, hd, hq⟩ := h
    have hd : Function.update W.heap W.fresh (some { c with ptr := some p, refcnt := 1 }) y = some d := hd
    by_cases hyf : y = W.fresh
    · rw [hyf, Function.update_self] at hd
      cases hd
      exact Or.inl (Option.some.inj hq).symm
    · rw [Function.update_of_ne hyf] at hd
      exact Or.inr ⟨y, d, hd, hq⟩
  · intro h
    rcases h with rfl | ⟨y, d, hd, hq⟩
    · exact ⟨W.fresh, { c with ptr := some q, refcnt := 1 }, Function.update_self .., rfl⟩
    · have hyf : y ≠ W.fresh := by
        intro h1
        rw [h1, hy] at hd
        cases hd
      exact ⟨y, d, (Function.update_of_ne hyf ..).trans hd, hq⟩

theorem lost_openWith (h : Numbered W) (hy : Young W) {addr : Addr} (hr : a.ret = some addr)
    (hm : a.alloc = true) : (openWith fn arg c leak a W).1.lost = W.lost := by
  have hgot := handles_got h c.owners (p := ⟨W.fresh, addr⟩)
    (e := .acquire fn (some arg) (some ⟨W.fresh, addr⟩) c.owners) rfl rfl
    (fun ev hev => ⟨arg, by simpa [Call.events] using hev⟩) W.raw
  have hn : ⟨W.fresh, addr⟩ ∉ W.handles := by
    intro h1
    obtain ⟨⟨os, h2⟩, _⟩ := h1
    exact absurd (h.acquired _ os h2) (Nat.lt_irrefl _)
  refine lost_held hn ?_ fun q => ?_
  · rw [← hgot]
    apply handles_same
    simp only [openWith, hr, hm, if_true]
    split
    · unfold setAdd
      split <;> rfl
    · rfl
  · have h1 := opens_new (c := c) (p := ⟨W.fresh, addr⟩)
      (W := { W.log (.acquire fn (some arg) (some ⟨W.fresh, addr⟩) c.owners) with fresh := W.fresh + 1 })
      (hy.heap _ (Nat.le_succ _)) q
    refine Iff.trans ?_ h1
    simp only [openWith, hr, hm]
    apply (opens_wear (f := fun c => { c with refcnt := c.refcnt + leak }) (fun _ => rfl) q).trans
    split
    · exact opens_setAdd q
    · exact Iff.rfl

theorem lost_init (h : Numbered W) (hy : Young W) (addr : Addr) : (Session.init addr W).1.lost = W.lost := by
  have hgot := handles_got h [] (p := ⟨W.fresh, addr⟩) (e := .init ⟨W.fresh, addr⟩) rfl rfl
    (fun ev hev => (by cases hev)) W.raw
  have hn : ⟨W.fresh, addr⟩ ∉ W.handles := by
    intro h1
    obtain ⟨⟨os, h2⟩, _⟩ := h1
    exact absurd (h.acquired _ os h2) (Nat.lt_irrefl _)
  refine lost_held hn ?_ fun q => ?_
  · rw [← hgot]
    exact Call.Quiet.handles (e := .use .bannerSet (some ⟨W.fresh, addr⟩)) trivial _
  · exact opens_new (c := { child (W.fresh + 1) ⟨W.fresh, addr⟩ .session with managed := false })
      (p := ⟨W.fresh, addr⟩) (W := { W.log (.init ⟨W.fresh, addr⟩) with fresh := W.fresh + 1 })
      (hy.heap _ (Nat.le_succ _)) q

theorem Outcome.lost_iff (hn : Numbered W) (hy : Young W) (ho : Outcome S T W L W') :
    W'.lost = W.lost ↔ ¬ L := by
  cases ho with
  | changed g hL _ hc => exact ⟨fun _ => hL, fun _ => hc.lost⟩
  | wrapped fn arg c leak a addr hL hr hm _ _ _ _ => exact ⟨fun _ => hL, fun _ => lost_openWith hn hy hr hm⟩
  | lost fn arg addr os raw hL _ =>
    refine ⟨fun heq => ?_, fun h1 => absurd hL h1⟩
    have hopen : ∀ x c, ¬ W.Open x c ⟨W.fresh, addr⟩ := fun x c hx =>
      absurd (hn.opened x c _ hx) (Nat.lt_irrefl _)
    have hgot := handles_got hn os (p := ⟨W.fresh, addr⟩)
      (e := .acquire fn (some arg) (some ⟨W.fresh, addr⟩) os) rfl rfl
      (fun ev hev => ⟨arg, by simpa [Call.events] using hev⟩) raw
    rw [lost_insert hopen hgot rfl] at heq
    have h1 : ⟨W.fresh, addr⟩ ∈ W.lost := heq ▸ Set.mem_insert _ _
    obtain ⟨⟨os', h2⟩, _⟩ := h1.1
    exact absurd (hn.acquired _ os' h2) (Nat.lt_irrefl _)
  | started addr hL => exact ⟨fun _ => hL, fun _ => lost_init hn hy addr⟩

end PyLibssh2

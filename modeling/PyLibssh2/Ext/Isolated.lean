import PyLibssh2.Ext.Ledger

/-!
# Calls that are given other wrappers

`U` is a collection of wrappers that contains with each member of a set the owner of the set, such as a
session with everything opened through it (`World.tree`).  However long a program works with other wrappers,
those of `U`, their sets and the references to them stay as they are, and libssh2 gets none of their handles
(`isolated_run`).
-/

set_option linter.unusedSectionVars false
set_option linter.unusedVariables false

namespace PyLibssh2

open World

variable {S : Ptr → Prop} {T U : Ref → Prop} {K : Kind → Prop} {L E : Prop} {g : Ghost} {V W W' : World}
  {x y o s : Ref} {c d : Obj} {p : Ptr} {k : Kind} {a : Answer} {fn : OpenFn} {arg : Ptr} {leak : Nat}
  {as bs : List Act}

/-! ## the calls of a change -/

/-- from `W` on, the handles passed are those of sessions in `S` and of wrappers in `T` -/
def Passed (S : Ptr → Prop) (T : Ref → Prop) (W W' : World) : Prop :=
  ∃ cs, W'.calls = cs ++ W.calls ∧
    ∀ e ∈ cs, ∀ p, e.arg = some p → (∀ t, e ≠ .init t) → S p ∨ ∃ x c, T x ∧ W.Open x c p

theorem passed_same (hc : W'.calls = W.calls) : Passed S T W W' :=
  ⟨[], hc, fun _ he => absurd he List.not_mem_nil⟩

theorem passed_call {e : Call} (hc : W'.calls = e :: W.calls) (ha : W.Passes S T e) : Passed S T W W' := by
  refine ⟨[e], hc, fun d hd p hp _ => ?_⟩
  rw [List.mem_singleton.mp hd] at hp
  obtain ⟨k, _, h1⟩ := ha.2 p hp
  rcases h1 with h1 | ⟨x, c, hx, hc, _⟩
  · exact Or.inl h1.2
  · exact Or.inr ⟨x, c, hx, hc⟩

theorem Change.passed (h : Change S T K W W') : Passed S T W W' := by
  cases h with
  | call e hq ha => exact passed_call rfl ha
  | free fn hx ht hT _ => exact passed_call (e := .free fn _) rfl (passes_handle hT hx rfl ht)
  | wear x f _ _ => exact passed_same rfl
  | thin o k r _ _ => exact passed_same rfl
  | del x _ _ => exact passed_same rfl

theorem Changes.passed (h : Changes S T K W W') : Passed S T W W' := by
  induction h with
  | refl => exact passed_same rfl
  | tail h1 h2 ih =>
    obtain ⟨cs, hcs, h3⟩ := ih
    obtain ⟨ds, hds, h4⟩ := h2.passed
    refine ⟨ds ++ cs, by rw [hds, hcs, List.append_assoc], fun e he p hp ht => ?_⟩
    rcases List.mem_append.mp he with h5 | h5
    · rcases h4 e h5 p hp ht with h6 | ⟨x, c, hx, hc⟩
      · exact Or.inl h6
      · -- what is open after some changes was open before
        obtain ⟨d, hd, _⟩ := (Changes.only h1).opens hc
        exact Or.inr ⟨x, d, hx, hd⟩
    · exact h3 e h5 p hp ht

/-! ## one call -/

/-- the wrappers in `U`, their sets and the references to them are the same -/
structure Spared (U : Ref → Prop) (V W : World) : Prop where
  heap : ∀ x, U x → W.heap x = V.heap x
  reg : ∀ x k, U x → W.reg x k = V.reg x k
  held : ∀ x, U x → W.held x = V.held x
  fresh : V.fresh ≤ W.fresh
  members : ∀ o k x, x ∈ W.members o k → x ∈ V.members o k ∨ V.fresh ≤ x

theorem Spared.refl : Spared U W W :=
  ⟨fun _ _ => rfl, fun _ _ _ => rfl, fun _ _ => rfl, Nat.le_refl _, fun _ _ _ hx => Or.inl hx⟩

theorem Spared.trans {W'' : World} (h : Spared U V W) (h' : Spared U W W'') : Spared U V W'' := by
  refine ⟨fun x hx => (h'.heap x hx).trans (h.heap x hx), fun x k hx => (h'.reg x k hx).trans (h.reg x k hx),
    fun x hx => (h'.held x hx).trans (h.held x hx), h.fresh.trans h'.fresh, fun o k x hx => ?_⟩
  rcases h'.members o k x hx with h1 | h1
  · exact h.members o k x h1
  · exact Or.inr (h.fresh.trans h1)

theorem Spared.same (h : Spared U V W) (hheap : W'.heap = W.heap) (hreg : W'.reg = W.reg)
    (hheld : W'.held = W.held) (hfresh : W.fresh ≤ W'.fresh) : Spared U V W' := by
  refine ⟨fun x hx => ?_, fun x k hx => ?_, fun x hx => ?_, h.fresh.trans hfresh, fun o k x hx => ?_⟩
  · rw [hheap]
    exact h.heap x hx
  · rw [hreg]
    exact h.reg x k hx
  · rw [hheld]
    exact h.held x hx
  · unfold World.members at hx
    rw [hreg] at hx
    exact h.members o k x hx

theorem Spared.new (h : Spared U V W) (hU : ¬ U W.fresh) (c : Obj) : Spared U V (new c W).1 := by
  refine ⟨fun x hx => ?_, h.reg, h.held, h.fresh.trans (Nat.le_succ _), h.members⟩
  have hne : x ≠ W.fresh := fun h1 => hU (h1 ▸ hx)
  exact (Function.update_of_ne hne ..).trans (h.heap x hx)

theorem Spared.modify (h : Spared U V W) (hU : ¬ U x) (f : Obj → Obj) : Spared U V (W.modify x f) := by
  refine ⟨fun y hy => ?_, h.reg, h.held, h.fresh, h.members⟩
  have hne : y ≠ x := fun h1 => hU (h1 ▸ hy)
  exact (heap_modify_of_ne _ _ _ _ hne).trans (h.heap y hy)

theorem Spared.setAdd (h : Spared U V W) (ho : ¬ U o) (hU : ¬ U x) (hx : V.fresh ≤ x) :
    Spared U V (setAdd W o k x) := by
  unfold PyLibssh2.setAdd
  split
  · exact h
  · have h1 : Spared U V (W.setReg o k (W.reg o k ++ [(x, W.hashOf x)])) := by
      refine ⟨h.heap, fun y j hy => ?_, h.held, h.fresh, fun o' k' y hy => ?_⟩
      · have hne : ¬ (y = o ∧ j = k) := fun h2 => ho (h2.1 ▸ hy)
        rw [reg_setReg, if_neg hne]
        exact h.reg y j hy
      · rw [members_setReg] at hy
        split at hy
        · rename_i h2
          rw [HashSet.keys_append_single] at hy
          rcases List.mem_append.mp hy with h3 | h3
          · rw [h2.1, h2.2]
            exact h.members o k y h3
          · rw [List.mem_singleton.mp h3]
            exact Or.inr hx
        · exact h.members o' k' y hy
    exact h1.modify hU _

theorem Spared.hand (h : Spared U V W) (hU : ¬ U x) (n : Nat) :
    Spared U V { W with held := Function.update W.held x n } := by
  refine ⟨h.heap, h.reg, fun y hy => ?_, h.fresh, h.members⟩
  have hne : y ≠ x := fun h1 => hU (h1 ▸ hy)
  exact (Function.update_of_ne hne ..).trans (h.held y hy)

theorem calls_openWith {addr : Addr} (hr : a.ret = some addr) (hm : a.alloc = true) :
    (openWith fn arg c leak a W).1.calls =
      .acquire fn (some arg) (some ⟨W.fresh, addr⟩) c.owners :: W.calls := by
  simp only [openWith, hr, hm, if_true]
  split
  · unfold setAdd
    split <;> rfl
  · rfl

theorem Outcome.passed (h : Outcome S T W L W') : Passed (fun p => S p ∨ p.serial = W.fresh) T W W' := by
  cases h with
  | changed g _ _ hc =>
    obtain ⟨cs, hcs, h1⟩ := hc.passed
    exact ⟨cs, hcs, fun e he p hp ht => (h1 e he p hp ht).imp_left Or.inl⟩
  | wrapped fn arg c leak a addr _ hr hm _ _ _ harg =>
    have hcalls : (openWith fn arg c leak a W).1.calls =
        .acquire fn (some arg) (some ⟨W.fresh, addr⟩) c.owners :: W.calls := calls_openWith hr hm
    obtain ⟨cs, hcs, h1⟩ := passed_call hcalls (passes_refused harg)
    exact ⟨cs, hcs, fun e he p hp ht => (h1 e he p hp ht).imp_left Or.inl⟩
  | lost fn arg addr os raw _ harg =>
    have hcalls : World.calls { W.log (.acquire fn (some arg) (some ⟨W.fresh, addr⟩) os) with
        fresh := W.fresh + 1, raw := raw } =
        .acquire fn (some arg) (some ⟨W.fresh, addr⟩) os :: W.calls := rfl
    obtain ⟨cs, hcs, h1⟩ := passed_call hcalls (passes_refused harg)
    exact ⟨cs, hcs, fun e he p hp ht => (h1 e he p hp ht).imp_left Or.inl⟩
  | started addr _ =>
    refine ⟨[.use .bannerSet (some ⟨W.fresh, addr⟩), .init ⟨W.fresh, addr⟩], rfl, fun e he p hp ht => ?_⟩
    rcases List.mem_cons.mp he with rfl | h1
    · cases hp
      exact Or.inl (Or.inr rfl)
    · rw [List.mem_singleton.mp h1] at ht
      exact absurd rfl (ht _)

/-! ## whole runs -/

/-- calls that are given none of the wrappers in `U` -/
def Elsewhere (U : Ref → Prop) (W : World) (a : Act) : Prop := a.Proper ∧ a.Within fun x => ¬ U x

end PyLibssh2

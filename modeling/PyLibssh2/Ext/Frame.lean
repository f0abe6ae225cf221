import PyLibssh2.Ext.Inv

/-!
# What closing leaves alone

`Only T R W W'`: going from `W` to `W'` only wrappers in `T` and registries in `R` changed,
references of Python code and the allocation counter did not, wrappers at most lost their pointer or
disappeared, and registries at most lost members.  Every closing function is such a change, and the
changes compose.

`drain_rule` is the rule for the loops that pop a registry until it is empty.
-/

set_option linter.unusedSectionVars false
set_option linter.unusedVariables false

namespace PyLibssh2

open World

variable {W W' W'' : World} {x y o : Ref} {c d e : Obj} {p q : Ptr} {k : Kind}

/-- `d` is `e`, possibly closed, with another count -/
structure Worn (e d : Obj) : Prop where
  kind : d.kind = e.kind
  session : d.session = e.session
  sftp : d.sftp = e.sftp
  parent : d.parent = e.parent
  managed : d.managed = e.managed
  ptr : d.ptr = e.ptr ∨ d.ptr = none

theorem Worn.refl (e : Obj) : Worn e e := ⟨rfl, rfl, rfl, rfl, rfl, Or.inl rfl⟩

theorem Worn.trans (h : Worn c d) (h' : Worn d e) : Worn c e := by
  refine ⟨h'.kind.trans h.kind, h'.session.trans h.session, h'.sftp.trans h.sftp,
    h'.parent.trans h.parent, h'.managed.trans h.managed, ?_⟩
  rcases h'.ptr with h1 | h1
  · rcases h.ptr with h2 | h2
    · exact Or.inl (h1.trans h2)
    · exact Or.inr (h1.trans h2)
  · exact Or.inr h1

structure Only (T : Ref → Prop) (R : Ref → Kind → Prop) (W W' : World) : Prop where
  heap : ∀ y, ¬ T y → W'.heap y = W.heap y
  worn : ∀ y d, W'.heap y = some d → ∃ e, W.heap y = some e ∧ Worn e d
  reg : ∀ o k, ¬ R o k → W'.reg o k = W.reg o k
  members : ∀ o k x, x ∈ W'.members o k → x ∈ W.members o k
  held : W'.held = W.held
  raw : W'.raw = W.raw
  fresh : W'.fresh = W.fresh

variable {T U : Ref → Prop} {R S : Ref → Kind → Prop}

theorem Only.refl : Only T R W W :=
  ⟨fun _ _ => rfl, fun y d h => ⟨d, h, Worn.refl d⟩, fun _ _ _ => rfl, fun _ _ _ h => h, rfl, rfl, rfl⟩

theorem Only.trans (h : Only T R W W') (h' : Only T R W' W'') : Only T R W W'' where
  heap y hy := (h'.heap y hy).trans (h.heap y hy)
  worn y d hd := by
    obtain ⟨e, he, h1⟩ := h'.worn y d hd
    obtain ⟨f, hf, h2⟩ := h.worn y e he
    exact ⟨f, hf, h2.trans h1⟩
  reg o k ho := (h'.reg o k ho).trans (h.reg o k ho)
  members o k x hx := h.members o k x (h'.members o k x hx)
  held := h'.held.trans h.held
  raw := h'.raw.trans h.raw
  fresh := h'.fresh.trans h.fresh

theorem Only.mono (h : Only T R W W') (hT : ∀ y, T y → U y) (hR : ∀ y k, R y k → S y k) :
    Only U S W W' :=
  { h with
    heap := fun y hy => h.heap y fun h1 => hy (hT y h1)
    reg := fun o k ho => h.reg o k fun h1 => ho (hR o k h1) }

theorem Only.opens (h : Only T R W W') (hd : W'.Open y d q) :
    ∃ e, W.Open y e q ∧ Worn e d := by
  obtain ⟨e, he, h1⟩ := h.worn y d hd.1
  refine ⟨e, ⟨he, ?_⟩, h1⟩
  rcases h1.ptr with h2 | h2
  · exact h2.symm.trans hd.2
  · have h3 := hd.2
    rw [h2] at h3
    cases h3

/-! ## elementary changes -/

theorem only_log (c : Call) : Only T R W (W.log c) :=
  ⟨fun _ _ => rfl, fun y d h => ⟨d, h, Worn.refl d⟩, fun _ _ _ => rfl, fun _ _ _ h => h, rfl, rfl, rfl⟩

theorem only_modify (f : Obj → Obj) (hf : ∀ e, Worn e (f e)) (hx : T x) :
    Only T R W (W.modify x f) where
  heap y hy := heap_modify_of_ne _ _ _ _ fun h => hy (h ▸ hx)
  worn y d hd := by
    rw [heap_modify] at hd
    by_cases hy : y = x
    · subst hy
      rw [if_pos rfl] at hd
      obtain ⟨e, he, rfl⟩ := Option.map_eq_some_iff.mp hd
      exact ⟨e, he, hf e⟩
    · rw [if_neg hy] at hd
      exact ⟨d, hd, Worn.refl d⟩
  reg _ _ _ := rfl
  members _ _ _ h := h
  held := rfl
  raw := rfl
  fresh := rfl

theorem only_clear (hx : T x) : Only T R W (W.clear x) :=
  only_modify _ (fun _ => ⟨rfl, rfl, rfl, rfl, rfl, Or.inr rfl⟩) hx

theorem only_decd (hx : T x) : Only T R W (decd x W) :=
  only_modify _ (fun _ => ⟨rfl, rfl, rfl, rfl, rfl, Or.inl rfl⟩) hx

theorem only_released (fn : FreeFn) (p : Ptr) (hx : T x) : Only T R W (released fn x p W) :=
  (only_log _).trans (only_clear hx)

theorem only_del (hx : T x) : Only T R W (W.del x) where
  heap y hy := by
    have hne : y ≠ x := fun h1 => hy (by rw [h1]; exact hx)
    rw [heap_del, if_neg hne]
  worn y d hd := ⟨d, (heap_del_some hd).2, Worn.refl d⟩
  reg _ _ _ := rfl
  members _ _ _ h := h
  held := rfl
  raw := rfl
  fresh := rfl

theorem only_popped (ho : R o k) : Only T R W (popped o k x W) where
  heap _ _ := rfl
  worn y d hd := ⟨d, hd, Worn.refl d⟩
  reg o' k' ho' := by
    have hne : ¬ (o' = o ∧ k' = k) := fun h1 => ho' (by rw [h1.1, h1.2]; exact ho)
    rw [popped, reg_setReg, if_neg hne]
  members o' k' y hy := (mem_popped.mp hy).1
  held := rfl
  raw := rfl
  fresh := rfl

/-! ## the loops over a registry -/

theorem reg_popped_self : (popped o k x W).reg o k = HashSet.drop x (W.reg o k) := by
  rw [popped, reg_setReg, if_pos ⟨rfl, rfl⟩]

theorem reg_eq_nil_iff : W.reg o k = [] ↔ ∀ x, x ∉ W.members o k := by
  constructor
  · intro h x hx
    rw [World.members, h] at hx
    exact absurd hx List.not_mem_nil
  · intro h
    refine List.eq_nil_iff_forall_not_mem.mpr fun e he => h e.1 ?_
    exact List.mem_map_of_mem he

theorem drain_pop {body : Ref → World → World} {pick : Nat → Nat} {n : Nat}
    (hx : HashSet.popKey (pick n) (W.reg o k) = some x) :
    drain body o k pick (n + 1) W = drain body o k pick n (body x (popped o k x W)) := by
  simp only [drain, hx]
  rfl

/-- what one round keeps holds at the end of the loop, and the registry is empty then -/
theorem drain_rule (P : World → Prop) {body : Ref → World → World} {pick : Nat → Nat}
    (hnd : ∀ W, P W → (W.members o k).Nodup)
    (hbody : ∀ W x, P W → x ∈ W.members o k →
      P (body x (popped o k x W)) ∧
      (body x (popped o k x W)).reg o k = (popped o k x W).reg o k)
    (n : Nat) (W : World) (hP : P W) (hn : (W.reg o k).length = n) :
    P (drain body o k pick n W) ∧ (drain body o k pick n W).reg o k = [] := by
  induction n generalizing W with
  | zero => exact ⟨hP, List.length_eq_zero_iff.mp hn⟩
  | succ n ih =>
    have hne : W.reg o k ≠ [] := by
      intro h
      rw [h] at hn
      cases hn
    obtain ⟨x, hx⟩ := HashSet.popKey_isSome (n := pick n) hne
    have hmem : x ∈ W.members o k := HashSet.popKey_mem hx
    obtain ⟨h1, h2⟩ := hbody W x hP hmem
    have hlen : ((body x (popped o k x W)).reg o k).length = n := by
      have := HashSet.length_drop (hnd W hP) hmem
      rw [h2, reg_popped_self]
      omega
    rw [drain_pop hx]
    exact ih _ h1 hlen

theorem drainAll_rule (pick : Pick) (P : World → Prop) {body : Ref → World → World}
    (hnd : ∀ W, P W → (W.members o k).Nodup)
    (hbody : ∀ W x, P W → x ∈ W.members o k →
      P (body x (popped o k x W)) ∧
      (body x (popped o k x W)).reg o k = (popped o k x W).reg o k) (hP : P W) :
    P (drainAll body o k pick W) ∧ (drainAll body o k pick W).reg o k = [] :=
  drain_rule P hnd hbody _ W hP rfl

theorem setReg_nil (h : W.reg o k = []) : W.setReg o k [] = W := by
  have h1 : Function.update (W.reg o) k [] = W.reg o := by rw [← h, Function.update_eq_self]
  show { W with reg := Function.update W.reg o (Function.update (W.reg o) k []) } = W
  rw [h1, Function.update_eq_self]

theorem decrefSet_nil {dec : Ref → World → World} (h : W.reg o k = []) : decrefSet dec o k W = W := by
  rw [decrefSet, setReg_nil h, h]
  rfl

end PyLibssh2

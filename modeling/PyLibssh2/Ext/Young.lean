import PyLibssh2.Ext.Shrink

/-!
# Objects that have not been made yet

`Fewer W W'`: going from `W` to `W'` no object is made and no registry gets a member, which is so for
every closing and every working method, whatever it is called with.  `Young W`: no wrapper and no member
has a number that is still to be given out.  Every call of the module keeps this.
-/

set_option linter.unusedSectionVars false
set_option linter.unusedVariables false

namespace PyLibssh2

open World

variable {W W' W'' : World} {x y o s : Ref} {k : Kind} {c : Obj}

structure Young (W : World) : Prop where
  heap : ∀ y, W.fresh ≤ y → W.heap y = none
  members : ∀ o k y, y ∈ W.members o k → y < W.fresh

structure Fewer (W W' : World) : Prop where
  heap : ∀ y, W.heap y = none → W'.heap y = none
  members : ∀ o k y, y ∈ W'.members o k → y ∈ W.members o k
  fresh : W'.fresh = W.fresh

theorem Fewer.refl (W : World) : Fewer W W := ⟨fun _ h => h, fun _ _ _ h => h, rfl⟩

theorem Fewer.trans (h : Fewer W W') (h' : Fewer W' W'') : Fewer W W'' :=
  ⟨fun y hy => h'.heap y (h.heap y hy), fun o k y hy => h.members o k y (h'.members o k y hy),
    h'.fresh.trans h.fresh⟩

theorem Young.fewer (h : Young W) (hf : Fewer W W') : Young W' := by
  refine ⟨fun y hy => hf.heap y (h.heap y ?_), fun o k y hy => ?_⟩
  · rw [← hf.fresh]
    exact hy
  · rw [hf.fresh]
    exact h.members o k y (hf.members o k y hy)

/-! ## elementary changes -/

theorem fewer_log (e : Call) : Fewer W (W.log e) := ⟨fun _ h => h, fun _ _ _ h => h, rfl⟩

theorem fewer_modify (x : Ref) (f : Obj → Obj) : Fewer W (W.modify x f) := by
  refine ⟨fun y hy => ?_, fun _ _ _ h => h, rfl⟩
  rw [heap_modify]
  by_cases h : y = x
  · rw [if_pos h, ← h, hy]
    rfl
  · rw [if_neg h]
    exact hy

theorem fewer_del (x : Ref) : Fewer W (W.del x) := by
  refine ⟨fun y hy => ?_, fun _ _ _ h => h, rfl⟩
  rw [heap_del, hy]
  split <;> rfl

theorem fewer_setReg {r : PySet} (hr : ∀ y ∈ HashSet.keys r, y ∈ W.members o k) :
    Fewer W (W.setReg o k r) := by
  refine ⟨fun _ h => h, fun o' k' y hy => ?_, rfl⟩
  rw [members_setReg] at hy
  split at hy
  · rename_i h
    rw [h.1, h.2]
    exact hr y hy
  · exact hy

theorem fewer_held (f : Ref → Nat) : Fewer W { W with held := f } :=
  ⟨fun _ h => h, fun _ _ _ h => h, rfl⟩

theorem closing_fewer : Closing Fewer where
  refl := Fewer.refl
  trans := Fewer.trans
  log e h _ _ := h.trans (fewer_log e)
  wear _ x f _ := fewer_modify x f
  thin _ _ _ _ hr := fewer_setReg hr
  del _ x := fewer_del x

theorem Fewer.reg_nil (h : Fewer W W') (hr : W.reg o k = []) : W'.reg o k = [] := by
  apply reg_eq_nil_iff.mpr
  intro x hx
  exact reg_eq_nil_iff.mp hr x (h.members o k x hx)

/-! ## opening -/

theorem young_new (h : Young W) (c : Obj) : Young (new c W).1 := by
  refine ⟨fun y hy => ?_, fun o k y hy => Nat.lt_succ_of_lt (h.members o k y hy)⟩
  show Function.update W.heap W.fresh _ y = none
  rw [Function.update_of_ne (Nat.lt_of_succ_le hy).ne']
  exact h.heap y (Nat.le_of_succ_le hy)

theorem young_setAdd (h : Young W) (hx : x < W.fresh) : Young (setAdd W o k x) := by
  unfold setAdd
  split
  · exact h
  · have h1 : Young (W.setReg o k (W.reg o k ++ [(x, W.hashOf x)])) := by
      refine ⟨h.heap, fun o' k' y hy => ?_⟩
      rw [members_setReg] at hy
      split at hy
      · rw [HashSet.keys_append_single] at hy
        rcases List.mem_append.mp hy with hm | hm
        · exact h.members o k y hm
        · rw [List.mem_singleton.mp hm]
          exact hx
      · exact h.members o' k' y hy
    exact h1.fewer (fewer_modify x _)

theorem young_bump (h : Young W) (cs : List Call) (raw : List (Ref × Ptr)) :
    Young { W with calls := cs, fresh := W.fresh + 1, raw := raw } :=
  ⟨fun y hy => h.heap y (Nat.le_of_succ_le hy),
    fun o k y hy => Nat.lt_succ_of_lt (h.members o k y hy)⟩

theorem passing_young : Passing Fewer Young where
  closing := closing_fewer
  keep hf h := h.fewer hf
  got e raw h _ _ := young_bump h _ raw
  new c h _ := young_new h c
  add _ _ _ h hx := young_setAdd h hx
  hand _ h := h.fewer (fewer_held _)

/-! ## whole runs -/

theorem young_step (h : Young W) (a : Act) : Young (step W a).1 :=
  passing_young.step h a fun _ _ _ => h.fewer (fewer_held _)

theorem young_empty : Young World.empty := ⟨fun _ _ => rfl, fun _ _ _ h => absurd h List.not_mem_nil⟩

/-- in every state a program gets to the next object is new -/
theorem young_run {as : List Act} (hr : Trans.Run Step World.empty as W) : Young W := by
  apply hr.inv Young young_empty
  intro t a u h hs
  rw [hs.2]
  exact young_step h a

end PyLibssh2

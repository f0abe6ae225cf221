import PyLibssh2.Base.Run

/-!
# The order of the events of a run

* `Since`           after each event of one sort there is one of another sort;
* `After`           what comes after the last event of one sort;
* `Run.inv_trace`   an invariant that speaks of the events so far;
* `Run.since`       what holds at the end, and does not hold after an event of `stop`, was made true by a later
                    event of `add`.
-/

namespace Trans

variable {σ α : Type*} {step : σ → α → σ → Prop} {s t : σ} {as cs : List α} {a : α} {P add stop : α → Prop}

/-- in `as`, each event of `stop` has one of `add` after it -/
def Since (add stop : α → Prop) (as : List α) : Prop :=
  ∀ bs a cs, as = bs ++ a :: cs → stop a → ∃ b ∈ cs, add b

theorem since_nil : Since add stop [] := by
  intro bs a cs h
  exact absurd h (by simp)

theorem snoc_cases {bs cs : List α} {b : α} (h : as ++ [a] = bs ++ b :: cs) :
    (cs = [] ∧ b = a) ∨ ∃ ds, cs = ds ++ [a] ∧ as = bs ++ b :: ds := by
  rcases List.eq_nil_or_concat cs with rfl | ⟨ds, c, rfl⟩
  · have h1 : [a] = [b] := List.append_inj_right' h rfl
    cases h1
    exact Or.inl ⟨rfl, rfl⟩
  · have h1 : as ++ [a] = (bs ++ b :: ds) ++ [c] := by
      rw [h, List.concat_eq_append, List.append_assoc, List.cons_append]
    have h2 := List.append_inj' h1 rfl
    cases h2.2
    exact Or.inr ⟨ds, List.concat_eq_append, h2.1⟩

theorem Since.snoc (h : Since add stop as) (ha : ¬ stop a) : Since add stop (as ++ [a]) := by
  intro bs b cs heq hb
  rcases snoc_cases heq with ⟨_, rfl⟩ | ⟨ds, rfl, has⟩
  · exact absurd hb ha
  · obtain ⟨c, hc, hadd⟩ := h bs b ds has hb
    exact ⟨c, List.mem_append_left _ hc, hadd⟩

theorem since_snoc (h : add a) (ha : ¬ stop a) : Since add stop (as ++ [a]) := by
  intro bs b cs heq hb
  rcases snoc_cases heq with ⟨_, rfl⟩ | ⟨ds, rfl, _⟩
  · exact absurd hb ha
  · exact ⟨a, List.mem_append_right _ List.mem_cons_self, h⟩

/-- an invariant of the states and of the events that led there -/
theorem Run.inv_trace (I : List α → σ → Prop) (h0 : I [] s)
    (hstep : ∀ as t a u, I as t → step t a u → I (as ++ [a]) u) (h : Run step s as t) : I as t := by
  induction h with
  | nil => exact h0
  | snoc _ hst ih => exact hstep _ _ _ _ ih hst

theorem Run.since (P : σ → Prop) (hadd : ∀ s a t, step s a t → ¬ P s → P t → add a)
    (hstop : ∀ s a t, step s a t → stop a → ¬ P t) (h : Run step s as t) (ht : P t) :
    Since add stop as := by
  induction h with
  | nil => exact since_nil
  | @snoc as a u v _ hst ih =>
    have ha : ¬ stop a := fun h1 => hstop _ _ _ hst h1 ht
    by_cases hu : P u
    · exact (ih hu).snoc ha
    · exact since_snoc (hadd _ _ _ hst hu ht) ha

/-! ## after the last event of one sort -/

/-- in `as`, the events `cs` come after the last event of `P` -/
def After (P : α → Prop) (as cs : List α) : Prop := ∃ bs a, as = bs ++ a :: cs ∧ P a ∧ ∀ c ∈ cs, ¬ P c

theorem after_snoc (ha : P a) : After P (as ++ [a]) [] :=
  ⟨as, a, rfl, ha, fun _ hc => absurd hc List.not_mem_nil⟩

theorem After.snoc (h : After P as cs) (ha : ¬ P a) : After P (as ++ [a]) (cs ++ [a]) := by
  obtain ⟨bs, b, rfl, hb, hcs⟩ := h
  refine ⟨bs, b, by rw [List.append_assoc, List.cons_append], hb, fun c hc => ?_⟩
  rcases List.mem_append.mp hc with h1 | h1
  · exact hcs c h1
  · rw [List.mem_singleton.mp h1]
    exact ha

/-- an event of `stop` in the last part is followed by one of `add` there -/
theorem Since.after (h : Since add stop as) (hcs : After P as cs) (ha : a ∈ cs) (hstop : stop a) :
    ∃ b, add b ∧ [a, b].Sublist cs := by
  obtain ⟨bs, c, rfl, _, _⟩ := hcs
  obtain ⟨ds, es, rfl⟩ := List.append_of_mem ha
  obtain ⟨b, hb, hadd⟩ := h (bs ++ c :: ds) a es (by rw [List.append_assoc, List.cons_append]) hstop
  refine ⟨b, hadd, ?_⟩
  have h1 : [a, b].Sublist (a :: es) := (List.singleton_sublist.mpr hb).cons_cons a
  exact h1.trans (List.sublist_append_right _ _)

end Trans

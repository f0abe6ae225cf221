import Mathlib.Data.List.Basic

/-!
# Runs of a labelled transition system

`Run step s as t`: the actions `as` lead from the state `s` to the state `t`, one `step` per
action.  A step relation is all that is asked of the system, so the same rules serve one thread
calling functions one after the other and many threads switching between atomic sections.

* `Run.inv`        what holds at the start and is kept by every step holds at the end;
* `Run.mono`       a run of a system is a run of one with more steps;
* `Run.strengthen` a run is a run of the system restricted to the states an invariant allows;
* `Reaches P`      runs that are made of actions of one sort.
-/

namespace Trans

variable {σ α : Type*}

inductive Run (step : σ → α → σ → Prop) (s : σ) : List α → σ → Prop
  | nil : Run step s [] s
  | snoc {as : List α} {a : α} {t u : σ} : Run step s as t → step t a u → Run step s (as ++ [a]) u

variable {step step' : σ → α → σ → Prop} {s t u : σ} {as bs : List α}

theorem Run.single {a : α} (h : step s a t) : Run step s [a] t := Run.snoc Run.nil h

theorem Run.trans (h : Run step s as t) (h' : Run step t bs u) : Run step s (as ++ bs) u := by
  induction h' with
  | nil => rwa [List.append_nil]
  | snoc _ hst ih =>
    rw [← List.append_assoc]
    exact Run.snoc ih hst

/-- an invariant kept by every step holds at the end of every run -/
theorem Run.inv (I : σ → Prop) (h0 : I s) (hstep : ∀ t a u, I t → step t a u → I u)
    (h : Run step s as t) : I t := by
  induction h with
  | nil => exact h0
  | snoc _ hst ih => exact hstep _ _ _ ih hst

theorem Run.mono (hle : ∀ t a u, step t a u → step' t a u) (h : Run step s as t) :
    Run step' s as t := by
  induction h with
  | nil => exact Run.nil
  | snoc _ hst ih => exact Run.snoc ih (hle _ _ _ hst)

/-- a run stays inside the states an invariant allows -/
theorem Run.strengthen (I : σ → Prop) (h0 : I s) (hstep : ∀ t a u, I t → step t a u → I u)
    (h : Run step s as t) : Run (fun t a u => I t ∧ step t a u) s as t := by
  induction h with
  | nil => exact Run.nil
  | snoc hr hst ih => exact Run.snoc ih ⟨Run.inv I h0 hstep hr, hst⟩

/-! ## actions of one sort -/

/-- actions of `P` lead from `s` to `t` -/
def Reaches (step : σ → α → σ → Prop) (P : α → Prop) (s t : σ) : Prop :=
  ∃ as, (∀ a ∈ as, P a) ∧ Run step s as t

variable {P : α → Prop}

theorem Reaches.refl : Reaches step P s s := ⟨[], fun _ ha => absurd ha List.not_mem_nil, Run.nil⟩

theorem Reaches.trans (h : Reaches step P s t) (h' : Reaches step P t u) : Reaches step P s u := by
  obtain ⟨as, has, h1⟩ := h
  obtain ⟨bs, hbs, h2⟩ := h'
  refine ⟨as ++ bs, fun a ha => ?_, h1.trans h2⟩
  rcases List.mem_append.mp ha with h3 | h3
  · exact has a h3
  · exact hbs a h3

theorem Reaches.single {a : α} (ha : P a) (h : step s a t) : Reaches step P s t :=
  ⟨[a], fun _ hb => List.mem_singleton.mp hb ▸ ha, Run.single h⟩

end Trans

import Mathlib.Data.List.Induction
import Mathlib.Logic.Function.Basic

/-!
# Shared cells

Processes work with cells that they share: a process enters a cell, writes to it and leaves it.  What a
process has written since it entered is its own; what is in the cell may be somebody else's.

* `Track`            what is in the cells, who works with which of them, and what is whose own;
* `Track.from_write` what is in a cell was written by a process that worked with it;
* `Alone.step`       as long as processes enter free cells only, each finds its own value there.
-/

set_option linter.unusedSectionVars false

namespace Cells

variable {τ κ ν : Type*}

inductive Op (τ κ ν : Type*)
  | enter (t : τ) (k : κ)
  | write (t : τ) (v : ν)
  | leave (t : τ)
  | pass

structure Track (τ κ ν : Type*) where
  inside : τ → Option κ
  own : τ → Option ν
  cell : κ → Option ν

variable [DecidableEq τ] [DecidableEq κ]

def Track.empty : Track τ κ ν := ⟨fun _ => none, fun _ => none, fun _ => none⟩

/-- the effect of an operation; a process that works with no cell writes nowhere -/
def Track.step (T : Track τ κ ν) : Op τ κ ν → Track τ κ ν
  | .enter t k =>
    { T with inside := Function.update T.inside t (some k), own := Function.update T.own t none }
  | .write t v =>
    match T.inside t with
    | none => T
    | some k =>
      { T with own := Function.update T.own t (some v), cell := Function.update T.cell k (some v) }
  | .leave t => { T with inside := Function.update T.inside t none }
  | .pass => T

def track (ops : List (Op τ κ ν)) : Track τ κ ν := ops.foldl Track.step Track.empty

variable {T : Track τ κ ν} {ops : List (Op τ κ ν)} {op : Op τ κ ν} {t u : τ} {k j : κ} {v w : ν}

theorem track_snoc (ops : List (Op τ κ ν)) (op : Op τ κ ν) :
    track (ops ++ [op]) = (track ops).step op := by
  rw [track, List.foldl_append]
  rfl

theorem Track.step_write (h : T.inside t = some k) (v : ν) : T.step (.write t v) =
    { T with own := Function.update T.own t (some v), cell := Function.update T.cell k (some v) } := by
  simp only [Track.step, h]

theorem Track.step_write_none (h : T.inside t = none) (v : ν) : T.step (.write t v) = T := by
  simp only [Track.step, h]

/-! ## where values come from -/

def Written (ops : List (Op τ κ ν)) (k : κ) (v : ν) : Prop :=
  ∃ before after t, ops = before ++ .write t v :: after ∧ (track before).inside t = some k

theorem Written.snoc (h : Written ops k v) (op : Op τ κ ν) : Written (ops ++ [op]) k v := by
  obtain ⟨before, after, t, hops, ht⟩ := h
  refine ⟨before, after ++ [op], t, ?_, ht⟩
  rw [hops, List.append_assoc]
  rfl

theorem Track.from_write (ops : List (Op τ κ ν)) (h : (track ops).cell k = some v) :
    Written ops k v := by
  induction ops using List.reverseRecOn with
  | nil => cases h
  | append_singleton ops op ih =>
    rw [track_snoc] at h
    cases op with
    | enter t j => exact (ih h).snoc _
    | leave t => exact (ih h).snoc _
    | pass => exact (ih h).snoc _
    | write t w =>
      cases ht : (track ops).inside t with
      | none =>
        rw [Track.step_write_none ht] at h
        exact (ih h).snoc _
      | some j =>
        rw [Track.step_write ht] at h
        have hcell : Function.update (track ops).cell j (some w) k = some v := h
        by_cases hjk : k = j
        · rw [hjk, Function.update_self] at hcell
          refine ⟨ops, [], t, by rw [Option.some.inj hcell], ?_⟩
          rw [hjk, ht]
        · rw [Function.update_of_ne hjk] at hcell
          exact (ih hcell).snoc _

/-! ## processes that enter free cells -/

/-- nobody else works with a cell that is entered -/
def Free (T : Track τ κ ν) : Op τ κ ν → Prop
  | .enter t k => ∀ u, T.inside u = some k → u = t
  | _ => True

/-- every process is alone with its cell and finds there what it has written last -/
structure Alone (T : Track τ κ ν) : Prop where
  apart : ∀ t u k, T.inside t = some k → T.inside u = some k → t = u
  own : ∀ t k v, T.inside t = some k → T.own t = some v → T.cell k = some v

theorem Alone.step (h : Alone T) (op : Op τ κ ν) (hf : Free T op) : Alone (T.step op) := by
  cases op with
  | pass => exact h
  | enter t k =>
    have hin : ∀ u j, Function.update T.inside t (some k) u = some j →
        u = t ∧ j = k ∨ u ≠ t ∧ T.inside u = some j := by
      intro u j hu
      by_cases hut : u = t
      · rw [hut, Function.update_self] at hu
        exact Or.inl ⟨hut, (Option.some.inj hu).symm⟩
      · rw [Function.update_of_ne hut] at hu
        exact Or.inr ⟨hut, hu⟩
    constructor
    · intro u w j hu hw
      rcases hin u j hu with ⟨h1, h2⟩ | ⟨h1, h2⟩
      · rcases hin w j hw with ⟨h3, _⟩ | ⟨_, h3⟩
        · rw [h1, h3]
        · rw [h1, hf w (h2 ▸ h3)]
      · rcases hin w j hw with ⟨h3, h4⟩ | ⟨_, h3⟩
        · rw [h3, hf u (h4 ▸ h2)]
        · exact h.apart u w j h2 h3
    · intro u j v hu hv
      rcases hin u j hu with ⟨h1, _⟩ | ⟨h1, h2⟩
      · have hown : Function.update T.own t none u = some v := hv
        rw [h1, Function.update_self] at hown
        cases hown
      · exact h.own u j v h2 ((Function.update_of_ne h1 _ _).symm.trans hv)
  | leave t =>
    have hin : ∀ u j, Function.update T.inside t none u = some j → T.inside u = some j := by
      intro u j hu
      by_cases hut : u = t
      · rw [hut, Function.update_self] at hu
        cases hu
      · rwa [Function.update_of_ne hut] at hu
    exact ⟨fun u w j hu hw => h.apart u w j (hin u j hu) (hin w j hw),
      fun u j v hu hv => h.own u j v (hin u j hu) hv⟩
  | write t v =>
    cases ht : T.inside t with
    | none =>
      rw [Track.step_write_none ht]
      exact h
    | some k =>
      rw [Track.step_write ht]
      refine ⟨h.apart, fun u j w hu hw => ?_⟩
      have hu' : T.inside u = some j := hu
      show Function.update T.cell k (some v) j = some w
      by_cases hut : u = t
      · have hjk : j = k := by
          rw [hut, ht] at hu'
          exact (Option.some.inj hu').symm
        have hown : Function.update T.own t (some v) u = some w := hw
        rw [hut, Function.update_self] at hown
        rw [hjk, Function.update_self]
        exact hown
      · have hjk : j ≠ k := fun h1 => hut (h.apart u t k (h1 ▸ hu') ht)
        rw [Function.update_of_ne hjk]
        exact h.own u j w hu' ((Function.update_of_ne hut _ _).symm.trans hw)

end Cells

import Mathlib.Data.List.Basic

/-!
# Passing a sequence on from place to place

`hop a b P c d`: on the way from the place `a` to the place `b` the sequence `c` became `d`, and `P` is
what had to hold for all of it to arrive.  A hop may lose items; it neither adds nor moves any.

* `Route`            hops in a row, with the conditions of all of them;
* `Lossy.sublist`    what arrives at the end of a route is a part of what was sent, in order;
* `Lossy.whole_iff`  all of it arrives exactly if the condition of every hop holds: nothing that is lost
  on one hop comes back on another.
-/

namespace Relay

variable {ι α : Type*}

/-- hops that lose items at most, and none exactly under their condition -/
structure Lossy (hop : ι → ι → Prop → List α → List α → Prop) : Prop where
  part : ∀ {a b P c d}, hop a b P c d → d.Sublist c
  whole : ∀ {a b P c d}, hop a b P c d → (d = c ↔ P)

inductive Route (hop : ι → ι → Prop → List α → List α → Prop) (a : ι) (c : List α) :
    ι → List Prop → List α → Prop
  | here : Route hop a c a [] c
  | on {b e : ι} {Ps : List Prop} {P : Prop} {d f : List α} :
    Route hop a c b Ps d → hop b e P d f → Route hop a c e (P :: Ps) f

variable {hop : ι → ι → Prop → List α → List α → Prop} {a b : ι} {Ps : List Prop} {c d : List α}

theorem Lossy.sublist (h : Lossy hop) (hr : Route hop a c b Ps d) : d.Sublist c := by
  induction hr with
  | here => exact List.Sublist.refl c
  | on _ hs ih => exact (h.part hs).trans ih

theorem Lossy.whole_iff (h : Lossy hop) (hr : Route hop a c b Ps d) : d = c ↔ ∀ P ∈ Ps, P := by
  induction hr with
  | here => exact iff_of_true rfl fun P hP => absurd hP List.not_mem_nil
  | @on b e Ps P d f hr hs ih =>
    rw [List.forall_mem_cons, ← h.whole hs, ← ih]
    constructor
    · intro hf
      -- the sequence before the hop lies between the first and the last one
      have hle : c.Sublist d := by
        rw [← hf]
        exact h.part hs
      have hd : d = c := (h.sublist hr).antisymm hle
      exact ⟨hf.trans hd.symm, hd⟩
    · intro hf
      exact hf.1.trans hf.2

end Relay

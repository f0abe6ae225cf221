import Mathlib.Data.List.TakeDrop
import PyLibssh2.Base.Loop

/-!
# Reading a finite stream in pieces

A reader asks for `size` items at a time; the read number `i` is offered `give i` of them, none if it
fails.

* `pos`             how far `i` reads get;
* `flows_iff`       the first reads up to `i` all give something exactly if they are offered something
  and the end has not been reached before;
* `Drains.result`   the rule for a loop that reads until a read gives nothing: it ends, and it has all
  of the stream exactly if every read made before the end is offered something.
-/

set_option linter.unusedSectionVars false
set_option linter.unusedVariables false

namespace Pieces

open Loop

variable {α σ ρ : Type*}

/-! ## positions -/

/-- what a read gives that asks for `size` items, is offered `give` and has `left` before it -/
def count (size give left : Nat) : Nat := min give (min size left)

/-- how far `i` reads get in a stream of length `total` -/
def pos (give : Nat → Nat) (size total : Nat) : Nat → Nat
  | 0 => 0
  | i + 1 => pos give size total i + count size (give i) (total - pos give size total i)

/-- the reads up to the number `i` all give something -/
def Flows (give : Nat → Nat) (size total i : Nat) : Prop :=
  ∀ j ≤ i, 0 < count size (give j) (total - pos give size total j)

variable {give : Nat → Nat} {size total i j : Nat}

theorem count_le (size give left : Nat) : count size give left ≤ size ∧ count size give left ≤ left := by
  unfold count
  omega

theorem count_pos (hsize : 0 < size) {g left : Nat} : 0 < count size g left ↔ 0 < g ∧ 0 < left := by
  unfold count
  omega

theorem pos_succ (give : Nat → Nat) (size total i : Nat) : pos give size total (i + 1) =
    pos give size total i + count size (give i) (total - pos give size total i) := rfl

theorem pos_mono (give : Nat → Nat) (size total : Nat) (h : i ≤ j) :
    pos give size total i ≤ pos give size total j := by
  induction h with
  | refl => exact Nat.le_refl _
  | step _ ih =>
    rw [pos_succ]
    omega

theorem flows_iff (hsize : 0 < size) :
    Flows give size total i ↔ pos give size total i < total ∧ ∀ j ≤ i, 0 < give j := by
  constructor
  · intro h
    refine ⟨?_, fun j hj => ((count_pos hsize).mp (h j hj)).1⟩
    have := ((count_pos hsize).mp (h i (Nat.le_refl i))).2
    omega
  · rintro ⟨h1, h2⟩ j hj
    have := pos_mono give size total hj
    exact (count_pos hsize).mpr ⟨h2 j hj, by omega⟩

/-! ## the loop -/

/-- the reads so far, what they gave, and what is left of the stream -/
structure State (α : Type*) where
  reads : Nat
  got : List α
  left : List α

/-- what the next read gives -/
def State.next (give : Nat → Nat) (size : Nat) (st : State α) : Nat :=
  count size (give st.reads) st.left.length

def State.advance (give : Nat → Nat) (size : Nat) (st : State α) : State α :=
  ⟨st.reads + 1, st.got ++ st.left.take (st.next give size), st.left.drop (st.next give size)⟩

structure Drains (give : Nat → Nat) (size : Nat) (body : σ → Round σ ρ) (view : σ → State α)
    (out : ρ → List α) : Prop where
  stop : ∀ s, (view s).next give size = 0 → ∃ r, body s = .stop r ∧ out r = (view s).got
  next : ∀ s, 0 < (view s).next give size →
    ∃ s', body s = .next s' ∧ view s' = (view s).advance give size

/-- what holds between the reads -/
structure Reading (give : Nat → Nat) (size : Nat) (content : List α) (st : State α) : Prop where
  got : st.got = content.take (pos give size content.length st.reads)
  left : st.left = content.drop (pos give size content.length st.reads)
  offered : ∀ j < st.reads, 0 < give j

variable {content : List α} {st : State α} {body : σ → Round σ ρ} {view : σ → State α}
  {out : ρ → List α} {s s' : σ} {r : ρ}

theorem Reading.next_eq (h : Reading give size content st) : st.next give size =
    count size (give st.reads) (content.length - pos give size content.length st.reads) := by
  rw [State.next, h.left, List.length_drop]

theorem Reading.advance (h : Reading give size content st) (hn : 0 < st.next give size) :
    Reading give size content (st.advance give size) where
  got := by
    show st.got ++ st.left.take (st.next give size) = content.take (pos _ _ _ (st.reads + 1))
    rw [pos_succ, ← h.next_eq, h.got, h.left, List.take_add]
  left := by
    show st.left.drop (st.next give size) = content.drop (pos _ _ _ (st.reads + 1))
    rw [pos_succ, ← h.next_eq, h.left, List.drop_drop]
  offered j hj := by
    have hj' : j < st.reads + 1 := hj
    rcases Nat.lt_succ_iff_lt_or_eq.mp hj' with h1 | h1
    · exact h.offered j h1
    · rw [h1]
      have h2 : 0 < count size (give st.reads) st.left.length := hn
      unfold count at h2
      omega

/-- when a read gives nothing, all has been read exactly if no read failed before the end -/
theorem Reading.complete_iff (hsize : 0 < size) (h : Reading give size content st)
    (hn : st.next give size = 0) :
    st.got = content ↔ ∀ j, pos give size content.length j < content.length → 0 < give j := by
  rw [h.got, List.take_eq_self_iff]
  constructor
  · intro hall j hj
    apply h.offered j
    by_contra hge
    have := pos_mono give size content.length (Nat.le_of_not_lt hge)
    omega
  · intro hall
    by_contra hlt
    have hlt' := Nat.lt_of_not_le hlt
    have hpos := (count_pos hsize).mpr ⟨hall st.reads hlt', Nat.sub_pos_of_lt hlt'⟩
    rw [← h.next_eq] at hpos
    omega

/-- a loop that reads until a read gives nothing ends, and it has all of the stream exactly if every
read made before the end is offered something -/
theorem Drains.result (h : Drains give size body view out) (hsize : 0 < size)
    (hs : view s = ⟨0, [], content⟩) :
    (∃ r, Halts body s r) ∧ ∀ r, Halts body s r →
      (out r = content ↔ ∀ j, pos give size content.length j < content.length → 0 < give j) := by
  refine halts_of_rounds (fun s => (view s).left.length) (fun s => Reading give size content (view s)) _
    (fun s hI => ?_) (hs ▸ ⟨rfl, rfl, fun j hj => absurd hj (Nat.not_lt_zero j)⟩)
  by_cases hn : 0 < (view s).next give size
  · obtain ⟨s', hs', hv⟩ := h.next s hn
    refine Or.inl ⟨s', hs', hv ▸ hI.advance hn, ?_⟩
    have hle : (view s).next give size ≤ (view s).left.length := (count_le size _ _).2
    show (view s').left.length < (view s).left.length
    rw [hv]
    show ((view s).left.drop ((view s).next give size)).length < (view s).left.length
    rw [List.length_drop]
    omega
  · obtain ⟨r, hr, hout⟩ := h.stop s (by omega)
    refine Or.inr ⟨r, hr, ?_⟩
    show out r = content ↔ _
    rw [hout]
    exact hI.complete_iff hsize (by omega)

end Pieces

import Mathlib.Data.List.TakeDrop

/-!
# Passing on a finite sequence block by block

A sequence is cut into blocks of `size` items, the last one may be shorter.  Of the block number `i` only
the first `took i` items get through.

* `take_succ`         the first `i + 1` blocks are the first `i` and one more;
* `through_eq_iff`    all of the sequence gets through exactly if every block does;
* `through_sublist`   in any case a part of it does, in order.
-/

namespace Blocks

variable {α : Type*}

/-- the block number `i` -/
def block (size : Nat) (content : List α) (i : Nat) : List α := (content.drop (i * size)).take size

/-- what gets through of the first blocks -/
def through (took : Nat → Nat) (size : Nat) (content : List α) : Nat → List α
  | 0 => []
  | i + 1 => through took size content i ++ (block size content i).take (took i)

variable {took : Nat → Nat} {size i n : Nat} {content : List α}

theorem block_ne_nil (hsize : 0 < size) : block size content i ≠ [] ↔ i * size < content.length := by
  rw [← List.length_pos_iff, block, List.length_take, List.length_drop]
  omega

theorem length_block_pos (hsize : 0 < size) :
    0 < (block size content i).length ↔ i * size < content.length := by
  rw [List.length_pos_iff]
  exact block_ne_nil hsize

theorem take_succ (size : Nat) (content : List α) (i : Nat) :
    content.take ((i + 1) * size) = content.take (i * size) ++ block size content i := by
  rw [Nat.succ_mul, List.take_add]
  rfl

theorem through_eq_take (h : ∀ j < n, (block size content j).length ≤ took j) :
    through took size content n = content.take (n * size) := by
  induction n with
  | zero => rw [Nat.zero_mul, List.take_zero, through]
  | succ n ih =>
    rw [through, ih fun j hj => h j (Nat.lt_succ_of_lt hj),
      List.take_of_length_le (h n (Nat.lt_succ_self n)), take_succ]

theorem length_through_le (took : Nat → Nat) (size : Nat) (content : List α) (n : Nat) :
    (through took size content n).length ≤ (content.take (n * size)).length := by
  induction n with
  | zero => exact Nat.zero_le _
  | succ n ih =>
    have h1 : ((block size content n).take (took n)).length ≤ (block size content n).length := by
      rw [List.length_take]
      exact Nat.min_le_right _ _
    rw [through, take_succ, List.length_append, List.length_append]
    omega

theorem through_sublist (took : Nat → Nat) (size : Nat) (content : List α) (n : Nat) :
    (through took size content n).Sublist (content.take (n * size)) := by
  induction n with
  | zero => exact List.nil_sublist _
  | succ n ih =>
    rw [through, take_succ]
    exact ih.append (List.take_sublist _ _)

/-- what is cut off from one block is missing ever after -/
theorem length_through_lt (hi : took i < (block size content i).length) (hin : i < n) :
    (through took size content n).length < (content.take (n * size)).length := by
  induction n with
  | zero => exact absurd hin (Nat.not_lt_zero i)
  | succ n ih =>
    rw [through, take_succ, List.length_append, List.length_append, List.length_take]
    rcases Nat.lt_succ_iff_lt_or_eq.mp hin with h | h
    · have h1 := ih h
      omega
    · rw [← h]
      have h1 := length_through_le took size content i
      omega

theorem through_eq_iff (hsize : 0 < size) (hn : content.length ≤ n * size) :
    through took size content n = content ↔
      ∀ j, j * size < content.length → (block size content j).length ≤ took j := by
  have hall : content.take (n * size) = content := List.take_of_length_le hn
  have hrange : ∀ j, j * size < content.length → j < n := fun j hj =>
    Nat.lt_of_mul_lt_mul_right (Nat.lt_of_lt_of_le hj hn)
  constructor
  · intro h j hj
    by_contra hlt
    have h1 := length_through_lt (Nat.lt_of_not_le hlt) (hrange j hj)
    rw [h, hall] at h1
    exact absurd h1 (Nat.lt_irrefl _)
  · intro h
    rw [through_eq_take fun j hj => ?_, hall]
    by_cases hlt : j * size < content.length
    · exact h j hlt
    · have h0 := mt (length_block_pos hsize).mp hlt
      omega

end Blocks

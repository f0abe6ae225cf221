import Mathlib.Data.List.Basic

/-!
# Words joined by a separator

`List.intercalate [sep]` joins words, `List.splitOnP` cuts a text at every separator.

* `split_join`   words without a separator come back;
* `split_words`  words that come back have no separator in them.
-/

namespace Words

variable {α : Type*} {p : α → Bool} {sep : α}

theorem free_of_mem_splitOnP {text w : List α} (hw : w ∈ text.splitOnP p) : ∀ c ∈ w, p c = false := by
  induction text generalizing w with
  | nil =>
    rw [List.splitOnP_nil, List.mem_singleton] at hw
    subst hw
    exact fun c hc => absurd hc List.not_mem_nil
  | cons x text ih =>
    rw [List.splitOnP_cons_eq_if_modifyHead] at hw
    by_cases hx : p x = true
    · rw [if_pos hx] at hw
      rcases List.mem_cons.mp hw with h | h
      · rw [h]
        exact fun c hc => absurd hc List.not_mem_nil
      · exact ih h
    · rw [if_neg hx] at hw
      cases hs : text.splitOnP p with
      | nil => exact absurd hs (List.splitOnP_ne_nil p text)
      | cons v vs =>
        rw [hs, List.modifyHead_cons] at hw
        rcases List.mem_cons.mp hw with h | h
        · intro c hc
          rw [h] at hc
          rcases List.mem_cons.mp hc with h1 | h1
          · rw [h1]
            exact eq_false_of_ne_true hx
          · exact ih (hs ▸ List.mem_cons_self) c h1
        · exact ih (hs ▸ List.mem_cons_of_mem v h)

theorem split_join (hsep : p sep = true) {ws : List (List α)} (hne : ws ≠ [])
    (hfree : ∀ w ∈ ws, ∀ c ∈ w, p c = false) : ([sep].intercalate ws).splitOnP p = ws := by
  induction ws with
  | nil => exact absurd rfl hne
  | cons w ws ih =>
    have hw : ∀ c ∈ w, p c = false := hfree w List.mem_cons_self
    cases ws with
    | nil =>
      rw [List.intercalate_singleton]
      exact List.splitOnP_eq_singleton hw
    | cons v vs =>
      have hih := ih (List.cons_ne_nil v vs) fun u hu => hfree u (List.mem_cons_of_mem w hu)
      rw [List.intercalate_cons_cons, List.append_assoc, List.singleton_append,
        List.splitOnP_append_cons_of_forall_mem hw sep hsep, hih]

theorem split_words {text : List α} {ws : List (List α)} (h : text.splitOnP p = ws) :
    ∀ w ∈ ws, ∀ c ∈ w, p c = false := by
  intro w hw
  rw [← h] at hw
  exact free_of_mem_splitOnP hw

theorem join_snoc {ws : List (List α)} (hne : ws ≠ []) (w : List α) :
    [sep].intercalate (ws ++ [w]) = [sep].intercalate ws ++ sep :: w := by
  induction ws with
  | nil => exact absurd rfl hne
  | cons v ws ih =>
    cases ws with
    | nil =>
      show [sep].intercalate [v, w] = _
      rw [List.intercalate_cons_cons, List.intercalate_singleton, List.intercalate_singleton,
        List.append_assoc]
      rfl
    | cons u us =>
      show [sep].intercalate (v :: u :: (us ++ [w])) = _
      rw [List.intercalate_cons_cons, List.intercalate_cons_cons, List.append_assoc, List.append_assoc,
        List.append_assoc]
      rw [show u :: (us ++ [w]) = u :: us ++ [w] from rfl, ih (List.cons_ne_nil u us)]

end Words

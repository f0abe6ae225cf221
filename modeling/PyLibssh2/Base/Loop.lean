import Mathlib.Order.WellFounded
import Mathlib.Data.Prod.Lex
import Mathlib.Data.Nat.Find

/-!
# Loops

A loop body takes a state to the next state or stops with a result.  `iter body n s` runs at most
`n` rounds; `Halts body s r` says that some number of rounds is enough and that the result is `r`.

* `Halts.unique`    a loop has one result;
* `Halts.inv`       partial correctness: what an invariant gives at every stop holds of the result;
* `Halts.all`       the same, from one walk through the body;
* `halts_of_wf`     termination: a well-founded order that every further round goes down in;
* `halts_of_rounds` both at once, from what one round does;
* `halts_of_ready`  termination of a loop that waits: some rounds change nothing, but never for ever;
* `not_halts`       divergence: states that only lead to one another never stop;
* `Reach.inv`       what every round keeps holds in every state the loop gets to, stopping or not;
* `iter_both`       two loops that go round together stop together.
-/

namespace Loop

variable {σ ρ : Type*}

/-- what one round of a loop leaves: another round to run, or the result -/
inductive Round (σ ρ : Type*)
  | next (s : σ)
  | stop (r : ρ)

/-- at most `n` rounds from `s` -/
def iter (body : σ → Round σ ρ) : Nat → σ → Option ρ
  | 0, _ => none
  | n + 1, s =>
    match body s with
    | .next s' => iter body n s'
    | .stop r => some r

/-- the loop started in `s` stops with `r` -/
def Halts (body : σ → Round σ ρ) (s : σ) (r : ρ) : Prop := ∃ n, iter body n s = some r

variable {body : σ → Round σ ρ} {s s' t : σ} {r r' : ρ}

theorem iter_succ_next (h : body s = .next s') (n : Nat) : iter body (n + 1) s = iter body n s' := by
  simp only [iter, h]

theorem iter_succ_stop (h : body s = .stop r) (n : Nat) : iter body (n + 1) s = some r := by
  simp only [iter, h]

theorem iter_add (n k : Nat) (h : iter body n s = some r) : iter body (n + k) s = some r := by
  induction n generalizing s with
  | zero => exact absurd h (by simp [iter])
  | succ n ih =>
    rw [Nat.succ_add]
    cases hb : body s with
    | next s' =>
      rw [iter_succ_next hb] at h ⊢
      exact ih h
    | stop q =>
      rw [iter_succ_stop hb] at h ⊢
      exact h

theorem Halts.unique (h : Halts body s r) (h' : Halts body s r') : r = r' := by
  obtain ⟨n, hn⟩ := h
  obtain ⟨m, hm⟩ := h'
  have h1 := iter_add n m hn
  have h2 := iter_add m n hm
  rw [Nat.add_comm] at h2
  exact Option.some.inj (h1.symm.trans h2)

theorem halts_next (h : body s = .next s') : Halts body s r ↔ Halts body s' r := by
  constructor
  · rintro ⟨n, hn⟩
    cases n with
    | zero => exact absurd hn (by simp [iter])
    | succ n => exact ⟨n, by rw [← iter_succ_next h]; exact hn⟩
  · rintro ⟨n, hn⟩
    exact ⟨n + 1, by rw [iter_succ_next h]; exact hn⟩

theorem halts_stop (h : body s = .stop r) : Halts body s r := ⟨1, iter_succ_stop h 0⟩

/-- what the invariant gives at every stop holds of the result -/
theorem Halts.inv (I : σ → Prop) (Q : ρ → Prop) (hnext : ∀ s s', I s → body s = .next s' → I s')
    (hstop : ∀ s r, I s → body s = .stop r → Q r) (h0 : I s) (h : Halts body s r) : Q r := by
  obtain ⟨n, hn⟩ := h
  induction n generalizing s with
  | zero => exact absurd hn (by simp [iter])
  | succ n ih =>
    cases hb : body s with
    | next s' =>
      rw [iter_succ_next hb] at hn
      exact ih (hnext s s' h0 hb) hn
    | stop q =>
      rw [iter_succ_stop hb] at hn
      rw [← Option.some.inj hn]
      exact hstop s q h0 hb

/-- a loop stops when every further round goes down in a well-founded order -/
theorem halts_of_wf {β : Type*} (lt : β → β → Prop) (hwf : WellFounded lt) (m : σ → β) (I : σ → Prop)
    (hnext : ∀ s s', I s → body s = .next s' → I s' ∧ lt (m s') (m s)) (h0 : I s) :
    ∃ r, Halts body s r := by
  induction hx : m s using hwf.induction generalizing s with
  | _ x ih =>
    cases hb : body s with
    | next s' =>
      obtain ⟨hI, hlt⟩ := hnext s s' h0 hb
      obtain ⟨r, hr⟩ := ih (m s') (hx ▸ hlt) hI rfl
      exact ⟨r, (halts_next hb).mpr hr⟩
    | stop r => exact ⟨r, halts_stop hb⟩

/-- a round that goes on ends in `I`, one that stops in `Q` -/
def Round.All (I : σ → Prop) (Q : ρ → Prop) : Round σ ρ → Prop
  | .next s => I s
  | .stop r => Q r

/-- partial correctness, when one walk through the body says what becomes of every round -/
theorem Halts.all (I : σ → Prop) (Q : ρ → Prop) (hround : ∀ s, I s → (body s).All I Q) (h0 : I s)
    (h : Halts body s r) : Q r := by
  refine h.inv I Q (fun t u hI hb => ?_) (fun t q hI hb => ?_) h0
  · have h1 := hround t hI
    rw [hb] at h1
    exact h1
  · have h1 := hround t hI
    rw [hb] at h1
    exact h1

/-- partial correctness, round by round: the loop goes on and keeps the invariant, or it stops right -/
theorem Halts.of_rounds (I : σ → Prop) (Q : ρ → Prop)
    (hround : ∀ s, I s → (∃ s', body s = .next s' ∧ I s') ∨ ∃ r, body s = .stop r ∧ Q r) (h0 : I s)
    (h : Halts body s r) : Q r := by
  refine h.inv I Q (fun t u hI hb => ?_) (fun t q hI hb => ?_) h0
  · rcases hround t hI with ⟨u', hu, hI'⟩ | ⟨q, hq, _⟩
    · rw [hu] at hb
      cases hb
      exact hI'
    · rw [hq] at hb
      cases hb
  · rcases hround t hI with ⟨u, hu, _⟩ | ⟨q', hq, hQ⟩
    · rw [hu] at hb
      cases hb
    · rw [hq] at hb
      cases hb
      exact hQ

/-- total correctness, round by round: every further round goes down in a measure -/
theorem halts_of_rounds (m : σ → Nat) (I : σ → Prop) (Q : ρ → Prop)
    (hround : ∀ s, I s →
      (∃ s', body s = .next s' ∧ I s' ∧ m s' < m s) ∨ ∃ r, body s = .stop r ∧ Q r) (h0 : I s) :
    (∃ r, Halts body s r) ∧ ∀ r, Halts body s r → Q r := by
  constructor
  · refine halts_of_wf (· < ·) wellFounded_lt m I (fun t u hI hb => ?_) h0
    rcases hround t hI with ⟨u', hu, hI'⟩ | ⟨q, hq, _⟩
    · rw [hu] at hb
      cases hb
      exact hI'
    · rw [hq] at hb
      cases hb
  · refine fun r hr => hr.of_rounds I Q (fun t hI => ?_) h0
    rcases hround t hI with ⟨u, hu, hI', _⟩ | hstop
    · exact Or.inl ⟨u, hu, hI'⟩
    · exact Or.inr hstop

/-- a loop stops when no round goes up in `m` and the rounds whose number is ready go down; `c` counts
the rounds -/
theorem halts_of_ready (m c : σ → Nat) (ready : Nat → Prop) (hready : ∀ i, ∃ j, i ≤ j ∧ ready j)
    (I : σ → Prop)
    (hnext : ∀ s s', I s → body s = .next s' →
      I s' ∧ c s' = c s + 1 ∧ m s' ≤ m s ∧ (ready (c s) → m s' < m s)) (h0 : I s) :
    ∃ r, Halts body s r := by
  classical
  -- the rounds that are left until the next one that is ready
  let wait : Nat → Nat := fun i => Nat.find (hready i) - i
  have hwait : ∀ i, ¬ ready i → wait (i + 1) < wait i := by
    intro i hi
    obtain ⟨h1, h2⟩ := Nat.find_spec (hready i)
    have hne : Nat.find (hready i) ≠ i := fun h3 => hi (h3 ▸ h2)
    have hle : Nat.find (hready (i + 1)) ≤ Nat.find (hready i) :=
      Nat.find_min' _ ⟨by omega, h2⟩
    have hge := (Nat.find_spec (hready (i + 1))).1
    show Nat.find (hready (i + 1)) - (i + 1) < Nat.find (hready i) - i
    omega
  refine halts_of_wf (Prod.Lex (· < ·) (· < ·)) (WellFounded.prod_lex wellFounded_lt wellFounded_lt)
    (fun s => (m s, wait (c s))) I (fun s s' hI hb => ?_) h0
  obtain ⟨hI', hc, hm, hlt⟩ := hnext s s' hI hb
  refine ⟨hI', ?_⟩
  by_cases hr : ready (c s)
  · exact Prod.Lex.left _ _ (hlt hr)
  · rcases Nat.lt_or_eq_of_le hm with h1 | h1
    · exact Prod.Lex.left _ _ h1
    · show Prod.Lex _ _ (m s', wait (c s')) (m s, wait (c s))
      rw [h1, hc]
      exact Prod.Lex.right _ (hwait (c s) hr)

theorem not_halts (I : σ → Prop) (hnext : ∀ s, I s → ∃ s', body s = .next s' ∧ I s') (h0 : I s) :
    ¬ Halts body s r := by
  intro h
  refine Halts.inv I (fun _ => False) ?_ ?_ h0 h
  · intro s s' hI hb
    obtain ⟨t, ht, hIt⟩ := hnext s hI
    rw [ht] at hb
    cases hb
    exact hIt
  · intro s r hI hb
    obtain ⟨t, ht, _⟩ := hnext s hI
    rw [ht] at hb
    cases hb

/-! ## the states a loop gets to -/

/-- the loop started in `s` gets to `t` -/
inductive Reach (body : σ → Round σ ρ) (s : σ) : σ → Prop
  | refl : Reach body s s
  | tail {t u : σ} : Reach body s t → body t = .next u → Reach body s u

theorem Reach.inv (I : σ → Prop) (hnext : ∀ s s', I s → body s = .next s' → I s') (h0 : I s)
    (h : Reach body s s') : I s' := by
  induction h with
  | refl => exact h0
  | tail _ hb ih => exact hnext _ _ ih hb

theorem Reach.halts (h : Reach body s s') (hr : Halts body s' r) : Halts body s r := by
  induction h with
  | refl => exact hr
  | tail _ hb ih => exact ih ((halts_next hb).mpr hr)

/-! ## two loops -/

variable {τ π : Type*} {body' : τ → Round τ π}

/-- two rounds that go on to states related by `R`, or stop with results related by `Q` -/
def Round.Both (R : σ → τ → Prop) (Q : ρ → π → Prop) : Round σ ρ → Round τ π → Prop
  | .next s, .next t => R s t
  | .stop r, .stop q => Q r q
  | .next _, .stop _ => False
  | .stop _, .next _ => False

/-- two loops whose rounds go on or stop together: neither has stopped after `n` rounds, or both have -/
theorem iter_both (R : σ → τ → Prop) (Q : ρ → π → Prop)
    (hround : ∀ s t, R s t → Round.Both R Q (body s) (body' t)) (n : Nat) {s : σ} {t : τ} (h : R s t) :
    (iter body n s = none ∧ iter body' n t = none) ∨
    ∃ r q, iter body n s = some r ∧ iter body' n t = some q ∧ Q r q := by
  induction n generalizing s t with
  | zero => exact Or.inl ⟨rfl, rfl⟩
  | succ n ih =>
    have h1 := hround s t h
    cases hb : body s with
    | next s' =>
      cases hb' : body' t with
      | next t' =>
        rw [hb, hb'] at h1
        rw [iter_succ_next hb, iter_succ_next hb']
        exact ih h1
      | stop q =>
        rw [hb, hb'] at h1
        exact h1.elim
    | stop r =>
      cases hb' : body' t with
      | next t' =>
        rw [hb, hb'] at h1
        exact h1.elim
      | stop q =>
        rw [hb, hb'] at h1
        exact Or.inr ⟨r, q, iter_succ_stop hb n, iter_succ_stop hb' n, h1⟩

end Loop

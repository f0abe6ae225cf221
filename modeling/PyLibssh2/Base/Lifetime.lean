import Mathlib.Data.List.Count

/-!
# Lifetimes of handles

A client of a resource library acquires handles, uses them, and releases them.  A handle may be
acquired below others (its owners), and releasing an owner takes everything below it along.  The
history of a client is the list of what it told the library, latest event first.

* `Live t h`      after the history `t` the handle `h` exists: acquired, and neither `h` nor an
                  owner of `h` released;
* `Sound t`       every event of `t` was about a handle that was live at that time;
* `Orderly t`     moreover nothing below a handle was left when it was released or settled
                  (settling a handle tells the library to wind up what is below it).

`Sound.release_once`, `Sound.no_use_after_release`, `Orderly.below_first` are the consequences a
client is interested in.
-/

namespace Lifetime

/-- what a client tells a resource library about a handle -/
inductive Event (H : Type*)
  | acquire (h : H) (owners : List H)
  | use (h : H)
  | settle (h : H)
  | release (h : H)
  deriving DecidableEq

open Event

variable {H : Type*}

/-- the handle of an event that has to exist beforehand -/
def Event.needs : Event H → List H
  | acquire _ os => os
  | use h => [h]
  | settle h => [h]
  | release h => [h]

/-- after the history `t` the handle `h` exists -/
def Live (t : List (Event H)) (h : H) : Prop :=
  ∃ os, acquire h os ∈ t ∧ ∀ p ∈ h :: os, release p ∉ t

def Childless (t : List (Event H)) (h : H) : Prop :=
  ∀ c os, acquire c os ∈ t → h ∈ os → release c ∈ t

def Fresh (t : List (Event H)) : Event H → Prop
  | acquire h _ => ∀ os, acquire h os ∉ t
  | _ => True

/-- the handles an event is about may not have anything left below them -/
def Event.Last (t : List (Event H)) : Event H → Prop
  | settle h => Childless t h
  | release h => Childless t h
  | _ => True

/-- every event was about live handles -/
def Sound : List (Event H) → Prop
  | [] => True
  | e :: t => (Fresh t e ∧ ∀ h ∈ e.needs, Live t h) ∧ Sound t

/-- no handle was released or settled before what is below it -/
def Orderly : List (Event H) → Prop
  | [] => True
  | e :: t => e.Last t ∧ Orderly t

variable {t t' : List (Event H)} {e : Event H} {h p : H}

theorem Sound.of_append (h : Sound (t' ++ t)) : Sound t := by
  induction t' with
  | nil => exact h
  | cons e t' ih => exact ih h.2

theorem Orderly.of_append (h : Orderly (t' ++ t)) : Orderly t := by
  induction t' with
  | nil => exact h
  | cons e t' ih => exact ih h.2

/-! ## live handles along a history -/

theorem Live.acquired (h1 : Live t h) : ∃ os, acquire h os ∈ t := h1.imp fun _ hos => hos.1

theorem Live.not_released (h1 : Live t h) : release h ∉ t := by
  obtain ⟨os, _, hr⟩ := h1
  exact hr h List.mem_cons_self

theorem Live.cons (h1 : Live t h) (he : ∀ p, e ≠ release p) : Live (e :: t) h := by
  obtain ⟨os, ha, hr⟩ := h1
  refine ⟨os, List.mem_cons_of_mem _ ha, fun p hp hm => ?_⟩
  rcases List.mem_cons.mp hm with h2 | h2
  · exact he p h2.symm
  · exact hr p hp h2

/-- in a sound history whatever was worked on had been acquired -/
theorem Sound.acquired_of_needs (hs : Sound t) (he : e ∈ t) (hn : h ∈ e.needs) :
    ∃ os, acquire h os ∈ t := by
  induction t with
  | nil => exact absurd he List.not_mem_nil
  | cons f t ih =>
    rcases List.mem_cons.mp he with h1 | h1
    · subst h1
      obtain ⟨os, ha⟩ := (hs.1.2 h hn).acquired
      exact ⟨os, List.mem_cons_of_mem _ ha⟩
    · obtain ⟨os, ha⟩ := ih hs.2 h1
      exact ⟨os, List.mem_cons_of_mem _ ha⟩

theorem Sound.acquired_of_release (hs : Sound t) (hr : release h ∈ t) : ∃ os, acquire h os ∈ t :=
  hs.acquired_of_needs hr List.mem_cons_self

/-! ## what a sound history excludes -/

/-- **A sound client releases no handle twice.** -/
theorem Sound.release_once [DecidableEq H] (hs : Sound t) (h : H) : t.count (release h) ≤ 1 := by
  induction t with
  | nil => exact Nat.zero_le _
  | cons e t ih =>
    by_cases he : e = release h
    · subst he
      have hn : release h ∉ t := (hs.1.2 h List.mem_cons_self).not_released
      have h0 : t.count (release h) = 0 := List.count_eq_zero_of_not_mem hn
      rw [List.count_cons_self]
      omega
    · rw [List.count_cons_of_ne he]
      exact ih hs.2

/-- **A sound client does not touch a handle after its release or the release of an owner.** -/
theorem Sound.no_use_after_release (hs : Sound (t' ++ e :: t)) (h1 : h ∈ e.needs) :
    ∃ os, acquire h os ∈ t ∧ ∀ p ∈ h :: os, release p ∉ t := hs.of_append.1.2 h h1

/-- **An orderly client releases what is below a handle before the handle itself.** -/
theorem Orderly.below_first (hs : Sound (t' ++ release p :: t)) (ho : Orderly (t' ++ release p :: t))
    {c : H} {os : List H} (ha : acquire c os ∈ t' ++ release p :: t) (hp : p ∈ os) : release c ∈ t := by
  have hlast : Childless t p := ho.of_append.1
  induction t' with
  | nil =>
    rcases List.mem_cons.mp ha with h1 | h1
    · cases h1
    · exact hlast c os h1 hp
  | cons e t' ih =>
    rcases List.mem_cons.mp ha with h1 | h1
    · -- a handle acquired below `p` later would need `p` to be live
      subst h1
      have hl := (hs.1.2 p hp).not_released
      exact absurd (List.mem_append_right _ List.mem_cons_self) hl
    · exact ih hs.2 ho.2 h1

/-- what was below a handle when it was settled had been released before -/
theorem Orderly.below_settled (ho : Orderly (t' ++ settle p :: t))
    {c : H} {os : List H} (ha : acquire c os ∈ t) (hp : p ∈ os) : release c ∈ t :=
  ho.of_append.1 c os ha hp

end Lifetime

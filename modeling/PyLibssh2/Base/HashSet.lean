import Mathlib.Data.List.Basic

/-!
# Hash sets of the kind Python has

A set stores a hash with every key and never asks the key for it again.  Looking up `k` with the
hash `h` finds an entry with that stored hash whose key is `k` itself or compares equal to `k`; an
entry that was stored under another hash is not found.  `pop` removes some entry, the choice being
the caller's (`n` is the slot the search starts from).

`keys`, `discard`, `pop` come with the facts a client uses: the keys stay distinct, discarding a key
that is found by itself removes that key only, popping removes one key.
-/

set_option linter.unusedSectionVars false

namespace HashSet

variable {κ η : Type*} [DecidableEq κ] [DecidableEq η]

/-- the entry `e` is what a search for the key `k` with the hash `h` stops at.  CPython compares identities before
hashes at every slot it comes to; that it meets `k` itself there under an older hash is left out -/
def hit (eq : κ → κ → Bool) (k : κ) (h : η) (e : κ × η) : Bool :=
  decide (e.2 = h) && (decide (e.1 = k) || eq e.1 k)

def keys (s : List (κ × η)) : List κ := s.map Prod.fst

def add (eq : κ → κ → Bool) (k : κ) (h : η) (s : List (κ × η)) : List (κ × η) :=
  if s.any (hit eq k h) then s else s ++ [(k, h)]

/-- the key that discarding `k` drops, if any -/
def found (eq : κ → κ → Bool) (k : κ) (h : η) (s : List (κ × η)) : Option κ :=
  (s.find? (hit eq k h)).map Prod.fst

def discard (eq : κ → κ → Bool) (k : κ) (h : η) (s : List (κ × η)) : List (κ × η) :=
  s.eraseP (hit eq k h)

/-- the key at the slot `n`, counted round the table -/
def popKey (n : Nat) (s : List (κ × η)) : Option κ := (keys s)[n % s.length]?

def drop (k : κ) (s : List (κ × η)) : List (κ × η) := s.filter fun e => decide (e.1 ≠ k)

variable {eq : κ → κ → Bool} {k x : κ} {h : η} {s : List (κ × η)}

theorem mem_keys : x ∈ keys s ↔ ∃ h, (x, h) ∈ s := by simp [keys]

theorem mem_keys_drop : x ∈ keys (drop k s) ↔ x ∈ keys s ∧ x ≠ k := by
  simp only [mem_keys, drop, List.mem_filter, decide_eq_true_eq]
  constructor
  · rintro ⟨h, h1, h2⟩
    exact ⟨⟨h, h1⟩, h2⟩
  · rintro ⟨⟨h, h1⟩, h2⟩
    exact ⟨h, h1, h2⟩

theorem mem_of_mem_drop {e : κ × η} (he : e ∈ drop k s) : e ∈ s := (List.mem_filter.mp he).1

theorem nodup_keys_drop (hs : (keys s).Nodup) : (keys (drop k s)).Nodup :=
  hs.sublist (List.filter_sublist.map _)

theorem drop_of_not_mem (hk : k ∉ keys s) : drop k s = s := by
  apply List.filter_eq_self.mpr
  intro e he
  have hne : e.1 ≠ k := fun h1 => hk (h1 ▸ List.mem_map_of_mem he)
  simp [hne]

theorem length_drop (hs : (keys s).Nodup) (hk : k ∈ keys s) : (drop k s).length + 1 = s.length := by
  induction s with
  | nil => exact absurd hk List.not_mem_nil
  | cons e s ih =>
    have hnd := List.nodup_cons.mp hs
    by_cases he : e.1 = k
    · have hks : k ∉ keys s := he ▸ hnd.1
      have hd : drop k (e :: s) = s := by
        rw [show drop k (e :: s) = drop k s by simp [drop, he], drop_of_not_mem hks]
      rw [hd, List.length_cons]
    · have hd : drop k (e :: s) = e :: drop k s := by simp [drop, he]
      have hks : k ∈ keys s := by
        rcases List.mem_cons.mp hk with h1 | h1
        · exact absurd h1.symm he
        · exact h1
      rw [hd, List.length_cons, List.length_cons, ih hnd.2 hks]

/-! ## add -/

theorem add_of_no_hit (hn : ∀ e ∈ s, hit eq k h e = false) : add eq k h s = s ++ [(k, h)] := by
  have : s.any (hit eq k h) = false := by simpa using hn
  rw [add, this]
  rfl

theorem keys_append_single : keys (s ++ [(k, h)]) = keys s ++ [k] := by simp [keys]

/-! ## discard -/

theorem hit_self : hit eq k h (k, h) = true := by simp [hit]

theorem discard_of_no_hit (hn : ∀ e ∈ s, hit eq k h e = false) :
    found eq k h s = none ∧ discard eq k h s = s := by
  constructor
  · have : s.find? (hit eq k h) = none := List.find?_eq_none.mpr fun e he => by simp [hn e he]
    rw [found, this]
    rfl
  · exact List.eraseP_of_forall_not fun e he => by simp [hn e he]

/-- when only its own entry is hit, discarding a key drops that key -/
theorem discard_of_hit_self (hs : (keys s).Nodup) (hk : (k, h) ∈ s)
    (hn : ∀ e ∈ s, hit eq k h e = true → e.1 = k) :
    found eq k h s = some k ∧ discard eq k h s = drop k s := by
  induction s with
  | nil => exact absurd hk List.not_mem_nil
  | cons e s ih =>
    have hnd := List.nodup_cons.mp hs
    by_cases he : hit eq k h e = true
    · have hek : e.1 = k := hn e List.mem_cons_self he
      have hks : k ∉ keys s := hek ▸ hnd.1
      constructor
      · simp [found, he, hek]
      · rw [discard, List.eraseP_cons_of_pos he]
        rw [show drop k (e :: s) = drop k s by simp [drop, hek], drop_of_not_mem hks]
    · have hek : e.1 ≠ k := by
        intro h1
        rcases List.mem_cons.mp hk with h2 | h2
        · exact he (h2 ▸ hit_self)
        · exact hnd.1 (h1 ▸ List.mem_map_of_mem (f := Prod.fst) h2)
      have hks : (k, h) ∈ s := by
        rcases List.mem_cons.mp hk with h2 | h2
        · exact absurd (by rw [← h2]) hek
        · exact h2
      obtain ⟨h1, h2⟩ := ih hnd.2 hks fun e' he' => hn e' (List.mem_cons_of_mem _ he')
      constructor
      · rw [found, List.find?_cons_of_neg he]
        exact h1
      · rw [discard, List.eraseP_cons_of_neg he, show drop k (e :: s) = e :: drop k s by
          simp [drop, hek]]
        rw [← h2]
        rfl

theorem discard_of_found (hs : (keys s).Nodup) (hf : found eq k h s = some x) :
    x ∈ keys s ∧ discard eq k h s = drop x s := by
  induction s with
  | nil => cases hf
  | cons e s ih =>
    have hnd := List.nodup_cons.mp hs
    by_cases he : hit eq k h e = true
    · have hex : e.1 = x := by
        rw [found, List.find?_cons_of_pos he] at hf
        exact Option.some.inj hf
      have hxs : x ∉ keys s := hex ▸ hnd.1
      constructor
      · rw [← hex]
        exact List.mem_cons_self
      · rw [discard, List.eraseP_cons_of_pos he]
        rw [show drop x (e :: s) = drop x s by simp [drop, hex], drop_of_not_mem hxs]
    · rw [found, List.find?_cons_of_neg he] at hf
      obtain ⟨h1, h2⟩ := ih hnd.2 hf
      have hex : e.1 ≠ x := fun h3 => hnd.1 (h3.symm ▸ h1)
      constructor
      · exact List.mem_cons_of_mem _ h1
      · rw [discard, List.eraseP_cons_of_neg he, show drop x (e :: s) = e :: drop x s by
          simp [drop, hex]]
        rw [← h2]
        rfl

theorem discard_middle {t : List (κ × η)} (hn : ∀ e ∈ s, hit eq k h e = false) :
    found eq k h (s ++ (k, h) :: t) = some k ∧ discard eq k h (s ++ (k, h) :: t) = s ++ t := by
  have hno : s.find? (hit eq k h) = none := List.find?_eq_none.mpr fun e he => by simp [hn e he]
  constructor
  · rw [found, List.find?_append, hno]
    simp [hit_self]
  · rw [discard, List.eraseP_append_right _ fun e he => by simp [hn e he],
      List.eraseP_cons_of_pos hit_self]

/-! ## pop -/

theorem popKey_mem {n : Nat} (hp : popKey n s = some k) : k ∈ keys s := List.mem_of_getElem? hp

theorem popKey_isSome {n : Nat} (hs : s ≠ []) : ∃ k, popKey n s = some k := by
  have hlt : n % s.length < (keys s).length := by
    rw [keys, List.length_map]
    exact Nat.mod_lt _ (List.length_pos_iff.mpr hs)
  exact ⟨_, List.getElem?_eq_getElem hlt⟩

end HashSet

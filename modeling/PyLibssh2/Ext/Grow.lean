import PyLibssh2.Ext.Drop

/-!
# Opening wrappers

A call that opens something adds one acquired handle to the history and at most one wrapper to the
heap.  `Grows` describes the change, `Inv.grow` and `Strict.grow` show that it keeps the invariant,
and `good_openWith`, `good_sessionInit`, … are about the functions of the module.
-/

set_option linter.unusedSectionVars false
set_option linter.unusedVariables false

namespace PyLibssh2

open World Lifetime

variable {b n : Prop} {own ex : List Ref} {W W' V : World} {x y o s f : Ref} {c d e : Obj} {p q : Ptr}
  {k : Kind} {pick : Pick} {a : Answer}

/-! ## a new handle -/

/-- the handle `p` has been acquired and the allocation counter moved -/
structure Acquired (p : Ptr) (os : List Ptr) (W W' : World) : Prop where
  fresh : W.fresh ≤ p.serial ∧ p.serial < W'.fresh
  history : W'.history = .acquire p os :: W.history
  up : ∀ s, up s W'.calls = up s W.calls

/-- a handle without a wrapper: the allocation failed, or Python was given the pointer -/
structure Leaks (p : Ptr) (os : List Ptr) (W W' : World) : Prop extends Acquired p os W W' where
  heap : W'.heap = W.heap
  reg : W'.reg = W.reg
  held : W'.held = W.held

structure Grows (x : Ref) (c : Obj) (p : Ptr) (W W' : World) : Prop
    extends Acquired p c.owners W W' where
  ref : W.fresh ≤ x ∧ x < W'.fresh
  heap : W'.heap = Function.update W.heap x (some c)
  reg : ∀ o k, W'.reg o k =
    if c.managed = true ∧ o = c.parent ∧ k = c.kind then W.reg o k ++ [(x, c.hash)] else W.reg o k
  held : W'.held = Function.update W.held x 1

variable {os : List Ptr}

theorem Inv.not_acquired (h : Inv own ex W) (hp : W.fresh ≤ p.serial) : .acquire p os ∉ W.history := by
  intro hm
  have := h.serials p os hm
  omega

theorem Inv.not_released (h : Inv own ex W) (hp : W.fresh ≤ p.serial) : .release p ∉ W.history := by
  intro hm
  obtain ⟨os, ho⟩ := h.sound.acquired_of_release hm
  exact h.not_acquired hp ho

theorem Inv.sound_acquire (h : Inv own ex W) (hp : W.fresh ≤ p.serial)
    (hos : ∀ q ∈ os, Live W.history q) : Sound (.acquire p os :: W.history) :=
  ⟨⟨fun os' => h.not_acquired hp, hos⟩, h.sound⟩

theorem Inv.live_grow (h : Inv own ex W) (hx : W.Open x c q) :
    .acquire q c.owners ∈ (.acquire p os :: W.history : List (Event Ptr)) ∧
    ∀ r ∈ q :: c.owners, .release r ∉ (.acquire p os :: W.history : List (Event Ptr)) := by
  obtain ⟨h1, h2⟩ := h.live x c q hx
  exact ⟨List.mem_cons_of_mem _ h1, fun r hr hm => h2 r hr (by simpa using hm)⟩

theorem Inv.leak (h : Inv own ex W) (hg : Leaks p os W W') (hos : ∀ q ∈ os, Live W.history q) :
    Inv own ex W' := by
  have hmem : W'.members = W.members := by unfold World.members; rw [hg.reg]
  have hopen : ∀ y d q, W'.Open y d q → W.Open y d q := fun y d q hd => ⟨hg.heap ▸ hd.1, hd.2⟩
  have hle : W.fresh ≤ W'.fresh := by have := hg.fresh; omega
  constructor
  case sound => rw [hg.history]; exact h.sound_acquire hg.fresh.1 hos
  case nodup => rw [hmem]; exact h.nodup
  case entry => rw [hmem, hg.heap]; exact h.entry
  case owner => rw [hmem, hg.heap]; exact h.owner
  case stored =>
    rw [hg.reg]
    exact fun a j y g d q hy hd => h.stored a j y g d q hy (hopen y d q hd)
  case home =>
    rw [hmem]
    exact fun y d q hd => h.home y d q (hopen y d q hd)
  case refs => rw [hmem, hg.heap, hg.held]; exact h.refs
  case par =>
    intro y d q hd hk
    obtain ⟨t, r, ht, h1⟩ := h.par y d q (hopen y d q hd) hk
    exact ⟨t, r, ⟨by rw [hg.heap]; exact ht.1, ht.2⟩, h1⟩
  case kin => rw [hg.heap]; exact h.kin
  case live =>
    rw [hg.history]
    exact fun y d q hd => h.live_grow (hopen y d q hd)
  case inj => exact fun y z d e q hd he => h.inj y z d e q (hopen y d q hd) (hopen z e q he)
  case shut => rw [hg.heap, hg.reg]; exact h.shut
  case started =>
    intro t u r ht hk
    rw [hg.up]
    exact h.started t u r (hopen t u r ht) hk
  case young =>
    rw [hg.heap]
    exact fun y hy => h.young y (hle.trans hy)
  case parents =>
    rw [hg.heap]
    exact fun y d hd => (h.parents y d hd).trans_le hle
  case serials =>
    intro r os' hm
    rw [hg.history] at hm
    rcases List.mem_cons.mp hm with h1 | h1
    · cases h1
      exact hg.fresh.2
    · exact (h.serials r os' h1).trans_le hle
  case leaf => rw [hg.heap]; exact h.leaf
  case root => rw [hg.heap]; exact h.root

/-! ## a new wrapper -/

theorem up_use {cs : List Call} (h : up p cs = true) : .use p ∈ history cs := by
  induction cs with
  | nil => cases h
  | cons e cs ih =>
    have hskip : up p cs = true → .use p ∈ history (e :: cs) := fun h1 =>
      List.mem_append_right _ (ih h1)
    cases e with
    | startup a rc =>
      rw [up] at h
      by_cases h1 : a = some p ∧ 0 ≤ rc
      · apply List.mem_append_left _
        rw [h1.1]
        exact List.mem_singleton.mpr rfl
      · rw [if_neg h1] at h
        exact hskip h
    | disconnect a =>
      rw [up] at h
      by_cases h1 : a = some p
      · rw [if_pos h1] at h
        cases h
      · rw [if_neg h1] at h
        exact hskip h
    | init _ => exact hskip h
    | acquire _ _ _ _ => exact hskip h
    | use _ _ => exact hskip h
    | free _ _ => exact hskip h

theorem Inv.not_up (h : Inv own ex W) (hp : W.fresh ≤ p.serial) : up p W.calls = false := by
  by_contra hup
  have hup' : up p W.calls = true := by simpa using hup
  obtain ⟨os, ho⟩ := h.sound.acquired_of_needs (up_use hup') (List.mem_singleton.mpr rfl)
  exact h.not_acquired hp ho

structure Fits (x : Ref) (c : Obj) (p : Ptr) (W : World) : Prop where
  ptr : c.ptr = some p
  refs : 1 + (if c.managed = true then 1 else 0) ≤ c.refcnt
  par : c.kind ≠ .session → ∃ s q, W.Open c.parent s q ∧ c.kind.parent = some s.kind ∧
    c.ownerPtr = some q ∧ s.session = c.session
  owners : ∀ q ∈ c.owners, Live W.history q
  leaf : c.kind = .file ∨ c.kind = .dir → c.sftp ≠ none ∧ c.managed = true
  root : c.kind = .session → c.session = p ∧ c.opened = false ∧ c.parent = x ∧ c.managed = false
  unshut : c.managed = true → ∀ s, W.heap c.parent = some s →
    ¬ ((s.kind = .sftp ∧ s.ptr = none) ∨ (s.kind = .session ∧ s.opened = false))

section grow

variable (h : Inv [] [] W) (hg : Grows x c p W W') (hf : Fits x c p W)

include h hg

theorem Grows.old (hy : W.heap y = some d) : y ≠ x ∧ W'.heap y = some d := by
  have hne : y ≠ x := by
    rintro rfl
    rw [h.young y hg.ref.1] at hy
    cases hy
  exact ⟨hne, by rw [hg.heap, Function.update_of_ne hne, hy]⟩

theorem Grows.mem (o : Ref) (k : Kind) : y ∈ W'.members o k ↔
    y ∈ W.members o k ∨ (y = x ∧ c.managed = true ∧ o = c.parent ∧ k = c.kind) := by
  unfold World.members
  rw [hg.reg]
  by_cases h1 : c.managed = true ∧ o = c.parent ∧ k = c.kind
  · rw [if_pos h1, HashSet.keys_append_single]
    simp [h1]
  · rw [if_neg h1]
    simp [h1]

theorem Grows.not_member (o : Ref) (k : Kind) : x ∉ W.members o k := by
  intro hm
  obtain ⟨d, hd, _⟩ := h.entry o k x hm
  exact (hg.old h hd).1 rfl

omit h in
theorem Grows.new_or_old (hy : W'.heap y = some d) : (y = x ∧ d = c) ∨ (y ≠ x ∧ W.heap y = some d) := by
  rw [hg.heap] at hy
  by_cases hyx : y = x
  · subst hyx
    rw [Function.update_self] at hy
    exact Or.inl ⟨rfl, (Option.some.inj hy).symm⟩
  · rw [Function.update_of_ne hyx] at hy
    exact Or.inr ⟨hyx, hy⟩

omit h in
theorem Grows.self : W'.heap x = some c := by rw [hg.heap, Function.update_self]

include hf

theorem Grows.parent (hk : c.kind ≠ .session) : ∃ s q, W'.Open c.parent s q ∧
    c.kind.parent = some s.kind ∧ c.ownerPtr = some q ∧ s.session = c.session := by
  obtain ⟨s, q, hs, h1⟩ := hf.par hk
  exact ⟨s, q, ⟨(hg.old h hs.1).2, hs.2⟩, h1⟩

theorem Grows.stored {g : BitVec 64} (hy : (y, g) ∈ W'.reg o k) (hd : W'.Open y d q) : g = d.hash := by
  rw [hg.reg] at hy
  have hold : (y, g) ∈ W.reg o k → g = d.hash := fun h1 => by
    obtain ⟨d', hd', _⟩ := h.entry o k y (HashSet.mem_keys.mpr ⟨g, h1⟩)
    have hdd : d' = d := Option.some.inj ((hg.old h hd').2.symm.trans hd.1)
    exact h.stored o k y g d q h1 ⟨hdd ▸ hd', hd.2⟩
  split at hy
  · rcases List.mem_append.mp hy with h1 | h1
    · exact hold h1
    · cases List.mem_singleton.mp h1
      have hdc : c = d := Option.some.inj (hg.self.symm.trans hd.1)
      rw [← hdc]
  · exact hold hy

theorem Grows.refs (hd : W'.heap y = some d) : W'.held y + List.count y [] +
    (if y ∈ W'.members d.parent d.kind then 1 else 0) ≤ d.refcnt := by
  rw [hg.held]
  rcases hg.new_or_old hd with ⟨rfl, rfl⟩ | ⟨hne, h1⟩
  · have hmem : y ∈ W'.members d.parent d.kind ↔ d.managed = true := by
      rw [hg.mem h]
      simp [hg.not_member h]
    rw [Function.update_self]
    simp only [hmem, List.count_nil]
    exact hf.refs
  · have hmem : y ∈ W'.members d.parent d.kind ↔ y ∈ W.members d.parent d.kind := by
      rw [hg.mem h]
      simp [hne]
    rw [Function.update_of_ne hne]
    simp only [hmem]
    exact h.refs y d h1

theorem Grows.live (hd : W'.Open y d q) : .acquire q d.owners ∈ W'.history ∧
    ∀ r ∈ q :: d.owners, .release r ∉ W'.history := by
  rw [hg.history]
  rcases hg.new_or_old hd.1 with ⟨rfl, rfl⟩ | ⟨_, h1⟩
  · have hqp : q = p := Option.some.inj (hd.2.symm.trans hf.ptr)
    rw [hqp]
    refine ⟨List.mem_cons_self, fun r hr hm => ?_⟩
    have hm' : .release r ∈ W.history := by simpa using hm
    rcases List.mem_cons.mp hr with h2 | h2
    · exact h.not_released hg.fresh.1 (h2 ▸ hm')
    · exact (hf.owners r h2).not_released hm'
  · exact h.live_grow ⟨h1, hd.2⟩

theorem Grows.inj {z : Ref} (hd : W'.Open y d q) (he : W'.Open z e q) : y = z := by
  have hold : ∀ w u, W.Open w u q → q ≠ p := by
    rintro w u hw rfl
    exact h.not_acquired hg.fresh.1 (h.live w u q hw).1
  have hnew : ∀ u, W'.Open x u q → q = p := by
    intro u hu
    have huc : u = c := Option.some.inj (hu.1.symm.trans hg.self)
    rw [huc] at hu
    exact Option.some.inj (hu.2.symm.trans hf.ptr)
  rcases hg.new_or_old hd.1 with ⟨rfl, _⟩ | ⟨_, h1⟩
  · rcases hg.new_or_old he.1 with ⟨rfl, _⟩ | ⟨_, h2⟩
    · rfl
    · exact absurd (hnew d hd) (hold z e ⟨h2, he.2⟩)
  · rcases hg.new_or_old he.1 with ⟨rfl, _⟩ | ⟨_, h2⟩
    · exact absurd (hnew e he) (hold y d ⟨h1, hd.2⟩)
    · exact h.inj y z d e q ⟨h1, hd.2⟩ ⟨h2, he.2⟩

theorem Grows.shut (ht : W'.heap y = some d)
    (hu : (d.kind = .sftp ∧ d.ptr = none) ∨ (d.kind = .session ∧ d.opened = false)) :
    W'.reg y k = [] := by
  rw [hg.reg]
  rcases hg.new_or_old ht with ⟨rfl, rfl⟩ | ⟨_, h1⟩
  · have hempty : W.reg y k = [] := reg_eq_nil_iff.mpr fun z hz => by
      obtain ⟨s, hs, _⟩ := h.owner y k z hz
      exact (hg.old h hs).1 rfl
    rcases hu with ⟨_, h2⟩ | ⟨h2, _⟩
    · rw [hf.ptr] at h2
      cases h2
    · have hm := (hf.root h2).2.2.2
      rw [if_neg fun h3 => by rw [hm] at h3; cases h3.1]
      exact hempty
  · rw [if_neg]
    · exact h.shut y d h1 hu k
    · rintro ⟨hm, rfl, _⟩
      exact hf.unshut hm d h1 hu

theorem Inv.grow : Inv [] [] W' := by
  have hle : W.fresh ≤ W'.fresh := by have := hg.fresh; omega
  have hman : c.managed = true → c.kind ≠ .session := fun h1 h2 => by
    rw [(hf.root h2).2.2.2] at h1
    cases h1
  constructor
  case sound => rw [hg.history]; exact h.sound_acquire hg.fresh.1 hf.owners
  case nodup =>
    intro o k
    unfold World.members
    rw [hg.reg]
    split
    · rw [HashSet.keys_append_single]
      refine List.nodup_append.mpr ⟨h.nodup o k, List.pairwise_singleton _ x, fun y hy z hz => ?_⟩
      rw [List.mem_singleton.mp hz]
      rintro rfl
      exact hg.not_member h o k hy
    · exact h.nodup o k
  case entry =>
    intro o k y hy
    rcases (hg.mem h o k).mp hy with h1 | ⟨rfl, _, h1, h2⟩
    · obtain ⟨d, hd, h2⟩ := h.entry o k y h1
      exact ⟨d, (hg.old h hd).2, h2⟩
    · exact ⟨c, hg.self, h2.symm, h1.symm⟩
  case owner =>
    intro o k y hy
    rcases (hg.mem h o k).mp hy with h1 | ⟨_, hm, h1, h2⟩
    · obtain ⟨s, hs, h2⟩ := h.owner o k y h1
      exact ⟨s, (hg.old h hs).2, h2⟩
    · obtain ⟨s, q, hs, h3, _⟩ := hg.parent h hf (hman hm)
      exact ⟨s, by rw [h1]; exact hs.1, by rw [h2]; exact h3⟩
  case stored => exact fun o k y g d q => hg.stored h hf
  case home =>
    intro y d q hd hm hk hy
    rcases hg.new_or_old hd.1 with ⟨rfl, rfl⟩ | ⟨_, h1⟩
    · exact (hg.mem h _ _).mpr (Or.inr ⟨rfl, hm, rfl, rfl⟩)
    · exact (hg.mem h _ _).mpr (Or.inl (h.home y d q ⟨h1, hd.2⟩ hm hk hy))
  case refs => exact fun y d => hg.refs h hf
  case par =>
    intro y d q hd hk
    rcases hg.new_or_old hd.1 with ⟨rfl, rfl⟩ | ⟨_, h1⟩
    · obtain ⟨s, r, hs, h2, h3, _⟩ := hg.parent h hf hk
      exact ⟨s, r, hs, h2, h3⟩
    · obtain ⟨s, r, hs, h2⟩ := h.par y d q ⟨h1, hd.2⟩ hk
      exact ⟨s, r, ⟨(hg.old h hs.1).2, hs.2⟩, h2⟩
  case kin =>
    intro y d s hd hk hs
    rcases hg.new_or_old hd with ⟨rfl, rfl⟩ | ⟨_, h1⟩
    · obtain ⟨t, r, ht, h2, _, h3⟩ := hg.parent h hf hk
      have hst : s = t := Option.some.inj (hs.symm.trans ht.1)
      rw [hst]
      exact ⟨h2, h3⟩
    · have hpx : d.parent ≠ x := Nat.ne_of_lt ((h.parents y d h1).trans_le hg.ref.1)
      rw [hg.heap, Function.update_of_ne hpx] at hs
      exact h.kin y d s h1 hk hs
  case live => exact fun y d q => hg.live h hf
  case inj => exact fun y z d e q => hg.inj h hf
  case shut => exact fun y d ht hu k => hg.shut h hf ht hu
  case started =>
    intro t u r ht hk
    rw [hg.up]
    rcases hg.new_or_old ht.1 with ⟨rfl, rfl⟩ | ⟨_, h1⟩
    · have hrp : r = p := Option.some.inj (ht.2.symm.trans hf.ptr)
      obtain ⟨h2, h3, _⟩ := hf.root hk
      rw [hrp, h2, h3]
      exact ⟨rfl, h.not_up hg.fresh.1⟩
    · exact h.started t u r ⟨h1, ht.2⟩ hk
  case young =>
    intro y hy
    have hne : y ≠ x := Nat.ne_of_gt (hg.ref.2.trans_le hy)
    rw [hg.heap, Function.update_of_ne hne]
    exact h.young y (hle.trans hy)
  case parents =>
    intro y d hd
    rcases hg.new_or_old hd with ⟨rfl, rfl⟩ | ⟨_, h1⟩
    · by_cases hk : d.kind = .session
      · rw [(hf.root hk).2.2.1]
        exact hg.ref.2
      · obtain ⟨s, r, hs, _⟩ := hf.par hk
        by_contra hlt
        have h2 := h.young d.parent (hle.trans (Nat.le_of_not_lt hlt))
        rw [hs.1] at h2
        cases h2
    · exact (h.parents y d h1).trans_le hle
  case serials =>
    intro r os hm
    rw [hg.history] at hm
    rcases List.mem_cons.mp hm with h1 | h1
    · cases h1
      exact hg.fresh.2
    · exact (h.serials r os h1).trans_le hle
  case leaf =>
    intro y d hd
    rcases hg.new_or_old hd with ⟨rfl, rfl⟩ | ⟨_, h1⟩
    · exact hf.leaf
    · exact h.leaf y d h1
  case root =>
    intro y d hd hk hy
    rcases hg.new_or_old hd with ⟨rfl, rfl⟩ | ⟨_, h1⟩
    · rw [hf.ptr]
      exact Option.some_ne_none p
    · exact h.root y d h1 hk hy

theorem Strict.grow (hs : Strict W) (hmine : c.kind ≠ .session → c.managed = true ∧ c.kind ≠ .listener)
    (happart : c.kind = .sftp → ∀ y d, y ∈ W.members c.parent .sftp → W.heap y = some d →
      d.hash ≠ c.hash) : Strict W' := by
  have hx : W'.heap x = some c := by rw [hg.heap, Function.update_self]
  constructor
  case exact =>
    intro o k y d hy hd
    rcases hg.new_or_old hd with ⟨rfl, rfl⟩ | ⟨hne, h1⟩
    · rw [hf.ptr]
      exact Option.some_ne_none p
    · rcases (hg.mem h o k).mp hy with h2 | ⟨h2, _⟩
      · exact hs.exact o k y d h2 h1
      · exact absurd h2 hne
  case owned =>
    intro r os hm
    rw [hg.history] at hm ⊢
    rcases List.mem_cons.mp hm with h1 | h1
    · cases h1
      exact Or.inr ⟨x, c, ⟨hx, hf.ptr⟩, rfl⟩
    · rcases hs.owned r os h1 with h2 | ⟨y, d, hy, h2⟩
      · exact Or.inl (List.mem_cons_of_mem _ h2)
      · exact Or.inr ⟨y, d, ⟨(hg.old h hy.1).2, hy.2⟩, h2⟩
  case orderly =>
    rw [hg.history]
    exact ⟨trivial, hs.orderly⟩
  case apart =>
    intro o y z d e hy hz hne hd he
    rcases (hg.mem h o .sftp).mp hy with h1 | ⟨h1, _, h2, h3⟩
    · rcases (hg.mem h o .sftp).mp hz with h4 | ⟨h4, _, h5, h6⟩
      · have hyx : y ≠ x := fun h5 => hg.not_member h o .sftp (h5 ▸ h1)
        have hzx : z ≠ x := fun h5 => hg.not_member h o .sftp (h5 ▸ h4)
        rw [hg.heap, Function.update_of_ne hyx] at hd
        rw [hg.heap, Function.update_of_ne hzx] at he
        exact hs.apart o y z d e h1 h4 hne hd he
      · have hyx : y ≠ x := fun h5 => hg.not_member h o .sftp (h5 ▸ h1)
        rw [hg.heap, Function.update_of_ne hyx] at hd
        rw [h4, hx] at he
        cases he
        exact happart h6.symm y d (h5 ▸ h1) hd
    · rcases (hg.mem h o .sftp).mp hz with h4 | ⟨h4, _⟩
      · have hzx : z ≠ x := fun h5 => hg.not_member h o .sftp (h5 ▸ h4)
        rw [hg.heap, Function.update_of_ne hzx] at he
        rw [h1, hx] at hd
        cases hd
        exact (happart h3.symm z e (h2 ▸ h4) he).symm
      · exact absurd (h1.trans h4.symm) hne
  case mine =>
    intro y d q hd hk
    rcases hg.new_or_old hd.1 with ⟨rfl, rfl⟩ | ⟨_, h1⟩
    · exact hmine hk
    · exact hs.mine y d q ⟨h1, hd.2⟩ hk

end grow

end PyLibssh2

import PyLibssh2.Ext.Step

/-!
# The invariant of the wrappers

`Inv own ex W` ties the three levels of owners together: what the registries contain, which
references every object accounts for, whose pointer belongs below whose, and that every pointer a
wrapper stores is live for libssh2.  `own` lists the references that C code holds in local variables
and `ex` the wrappers that have been taken out of their registry and are about to be closed.

`Strict W` is what holds besides when every handle that libssh2 returned has a wrapper and every
wrapper is closed through the one that opened it: registries contain open wrappers only, every live
handle has a wrapper, and children were released before their owners.

Each section below is about one elementary update; the closing functions are built from them.
-/

set_option linter.unusedSectionVars false
set_option linter.unusedVariables false

namespace PyLibssh2

open World Lifetime

/-- the wrapper `x` stands for the pointer `p` -/
def World.Open (W : World) (x : Ref) (c : Obj) (p : Ptr) : Prop := W.heap x = some c ∧ c.ptr = some p

structure Inv (own ex : List Ref) (W : World) : Prop where
  sound : Sound W.history
  nodup : ∀ o k, (W.members o k).Nodup
  entry : ∀ o k x, x ∈ W.members o k → ∃ c, W.heap x = some c ∧ c.kind = k ∧ c.parent = o
  owner : ∀ o k x, x ∈ W.members o k → ∃ s, W.heap o = some s ∧ k.parent = some s.kind
  stored : ∀ o k x h c p, (x, h) ∈ W.reg o k → W.Open x c p → h = c.hash
  home : ∀ x c p, W.Open x c p → c.managed = true → c.kind ≠ .listener → x ∉ ex →
    x ∈ W.members c.parent c.kind
  refs : ∀ x c, W.heap x = some c →
    W.held x + own.count x + (if x ∈ W.members c.parent c.kind then 1 else 0) ≤ c.refcnt
  par : ∀ x c p, W.Open x c p → c.kind ≠ .session →
    ∃ s q, W.Open c.parent s q ∧ c.kind.parent = some s.kind ∧ c.ownerPtr = some q
  kin : ∀ x c s, W.heap x = some c → c.kind ≠ .session → W.heap c.parent = some s →
    c.kind.parent = some s.kind ∧ s.session = c.session
  live : ∀ x c p, W.Open x c p →
    .acquire p c.owners ∈ W.history ∧ ∀ q ∈ p :: c.owners, .release q ∉ W.history
  inj : ∀ x y c d p, W.Open x c p → W.Open y d p → x = y
  shut : ∀ s o, W.heap s = some o →
    (o.kind = .sftp ∧ o.ptr = none) ∨ (o.kind = .session ∧ o.opened = false) →
    ∀ k, W.reg s k = []
  started : ∀ s o p, W.Open s o p → o.kind = .session → p = o.session ∧ up p W.calls = o.opened
  young : ∀ x, W.fresh ≤ x → W.heap x = none
  parents : ∀ x c, W.heap x = some c → c.parent < W.fresh
  serials : ∀ p os, .acquire p os ∈ W.history → p.serial < W.fresh
  leaf : ∀ x c, W.heap x = some c → c.kind = .file ∨ c.kind = .dir →
    c.sftp ≠ none ∧ c.managed = true
  root : ∀ x c, W.heap x = some c → c.kind = .session → x ∉ ex → c.ptr ≠ none

structure Strict (W : World) : Prop where
  exact : ∀ o k x c, x ∈ W.members o k → W.heap x = some c → c.ptr ≠ none
  owned : ∀ p os, .acquire p os ∈ W.history → .release p ∈ W.history ∨
    ∃ x c, W.Open x c p ∧ c.owners = os
  orderly : Orderly W.history
  apart : ∀ o x y c d, x ∈ W.members o .sftp → y ∈ W.members o .sftp → x ≠ y →
    W.heap x = some c → W.heap y = some d → c.hash ≠ d.hash
  mine : ∀ x c p, W.Open x c p → c.kind ≠ .session → c.managed = true ∧ c.kind ≠ .listener

variable {own ex : List Ref} {W : World} {x y o : Ref} {c d : Obj} {p q : Ptr} {k : Kind}

theorem Open.unique (h : W.Open x c p) (h' : W.Open x d q) : c = d ∧ p = q := by
  have h1 : c = d := Option.some.inj (h.1.symm.trans h'.1)
  subst h1
  exact ⟨rfl, Option.some.inj (h.2.symm.trans h'.2)⟩

/-! ## owners -/

/-- the pointers an open wrapper depends on are the ones of its parent and of its parent's parent -/
theorem Inv.owner_open (h : Inv own ex W) (hx : W.Open x c p) (hq : q ∈ c.owners) :
    ∃ y d, W.Open y d q ∧ ((y = c.parent ∧ c.kind.parent = some d.kind) ∨
      (d.kind = .session ∧ ∃ s r, W.Open c.parent s r ∧ s.kind = .sftp ∧ s.parent = y)) := by
  have hns : c.kind ≠ .session := by
    intro hk
    simp [Obj.owners, hk] at hq
  obtain ⟨s, r, hs, hk, hr⟩ := h.par x c p hx hns
  by_cases hqr : q = r
  · subst hqr
    exact ⟨_, _, hs, Or.inl ⟨rfl, hk⟩⟩
  · -- the second owner of a file or a directory is the session of its sftp
    have hfd : c.kind = .file ∨ c.kind = .dir := by
      unfold Obj.ownerPtr at hr
      cases hc : c.kind <;> simp_all [Obj.owners]
    have hsk : s.kind = .sftp := by
      rcases hfd with hc | hc <;> rw [hc] at hk <;> exact (Option.some.inj hk).symm
    have hqs : q = c.session := by
      have hsome := (h.leaf x c hx.1 hfd).1
      obtain ⟨t, ht⟩ := Option.ne_none_iff_exists'.mp hsome
      have ho : c.owners = [t, c.session] := by rcases hfd with hc | hc <;> simp [Obj.owners, hc, ht]
      rw [Obj.ownerPtr, ho] at hr
      rw [ho] at hq
      have htr : t = r := by simpa using hr
      rcases List.mem_cons.mp hq with h1 | h1
      · exact absurd (h1.trans htr) hqr
      · exact List.mem_singleton.mp h1
    obtain ⟨u, v, hu, huk, hv⟩ := h.par _ s r hs (by rw [hsk]; decide)
    have huk' : u.kind = .session := by
      rw [hsk] at huk
      exact (Option.some.inj huk).symm
    have hkin := (h.kin x c s hx.1 hns hs.1).2
    have hv' : v = s.session := by
      unfold Obj.ownerPtr Obj.owners at hv
      rw [hsk] at hv
      simpa using hv.symm
    refine ⟨s.parent, u, ?_, Or.inr ⟨huk', s, r, hs, hsk, rfl⟩⟩
    rw [hqs, ← hkin, ← hv']
    exact hu

theorem Inv.not_owner (h : Inv own ex W) (hx : W.Open x c p)
    (hno : ∀ y d q, W.Open y d q → d.kind ≠ .session → d.parent ≠ x) (hy : W.Open y d q) :
    p ∉ d.owners := by
  intro hp
  obtain ⟨z, e, hz, h1⟩ := h.owner_open hy hp
  have hzx : z = x := h.inj z x e c p hz hx
  subst hzx
  rcases h1 with ⟨h2, h3⟩ | ⟨_, s, r, hs, hk, h2⟩
  · exact hno y d q hy (by intro hk; rw [hk] at h3; cases h3) h2.symm
  · exact hno _ s r hs (by rw [hk]; decide) h2

theorem Inv.live_ptr (h : Inv own ex W) (hx : W.Open x c p) : Live W.history p :=
  ⟨_, (h.live x c p hx).1, (h.live x c p hx).2⟩

theorem Inv.live_session (h : Inv own ex W) (hx : W.Open x c p) (hk : c.kind ≠ .session) :
    Live W.history c.session := by
  have hm : c.session ∈ c.owners := by
    cases hc : c.kind <;> simp_all [Obj.owners]
  obtain ⟨y, d, hy, _⟩ := h.owner_open hx hm
  exact h.live_ptr hy

/-! ## calls that release nothing -/

theorem Inv.log_use (h : Inv own ex W) {e : Call} (he : e.events = [.use p])
    (hup : ∀ s cs, up s (e :: cs) = up s cs) (hl : Live W.history p) : Inv own ex (W.log e) := by
  have hh : (W.log e).history = .use p :: W.history := by rw [history_log, he]; rfl
  exact { h with
    sound := by
      rw [hh]
      exact ⟨⟨trivial, fun q hq => by rw [List.mem_singleton.mp hq]; exact hl⟩, h.sound⟩
    live := fun x c q hx => by
      obtain ⟨h1, h2⟩ := h.live x c q hx
      rw [hh]
      exact ⟨List.mem_cons_of_mem _ h1, fun r hr hm => h2 r hr (by simpa using hm)⟩
    started := fun s o q hs hk => by
      rw [calls_log, hup]
      exact h.started s o q hs hk
    serials := fun q os hm => h.serials q os (by rw [hh] at hm; simpa using hm) }

theorem Strict.log_use (h : Strict W) {e : Call} (he : e.events = [.use p]) : Strict (W.log e) := by
  have hh : (W.log e).history = .use p :: W.history := by rw [history_log, he]; rfl
  exact { h with
    owned := fun q os hm => by
      rw [hh] at hm ⊢
      rcases h.owned q os (by simpa using hm) with h1 | h1
      · exact Or.inl (List.mem_cons_of_mem _ h1)
      · exact Or.inr h1
    orderly := by rw [hh]; exact ⟨trivial, h.orderly⟩ }

theorem Inv.use (h : Inv own ex W) (hl : Live W.history p) (fn : UseFn) :
    Inv own ex (W.log (.use fn (some p))) :=
  h.log_use rfl (fun _ _ => rfl) hl

/-! ## releasing the pointer of a wrapper -/

/-- the call that frees `p`, and the field of `x` set to `NULL` -/
def released (fn : FreeFn) (x : Ref) (p : Ptr) (W : World) : World :=
  (W.log (.free fn (some p))).clear x

theorem history_released (fn : FreeFn) (x : Ref) (p : Ptr) (W : World) :
    (released fn x p W).history = .release p :: W.history := by
  rw [released, clear, history_modify, history_log]
  rfl

theorem heap_released (fn : FreeFn) (x : Ref) (p : Ptr) (W : World) (y : Ref) :
    (released fn x p W).heap y =
      if y = x then (W.heap x).map fun o => { o with ptr := none } else W.heap y := by
  rw [released, clear, heap_modify]
  rfl

theorem open_released {fn : FreeFn} {r : Ptr} :
    (released fn x r W).Open y d q ↔ y ≠ x ∧ W.Open y d q := by
  unfold World.Open
  rw [heap_released]
  by_cases hy : y = x
  · subst hy
    cases hc : W.heap y with
    | none => simp
    | some e =>
      simp only [if_true, Option.map_some, Option.some.injEq, ne_eq, not_true_eq_false, false_and,
        iff_false, not_and]
      rintro rfl
      simp
  · simp [hy]

theorem heap_released_some {fn : FreeFn} {r : Ptr} (hy : (released fn x r W).heap y = some d) :
    ∃ e, W.heap y = some e ∧ ((y ≠ x ∧ d = e) ∨ (y = x ∧ d = { e with ptr := none })) := by
  rw [heap_released] at hy
  by_cases hyx : y = x
  · rw [if_pos hyx] at hy
    obtain ⟨e, he, rfl⟩ := Option.map_eq_some_iff.mp hy
    exact ⟨e, hyx ▸ he, Or.inr ⟨hyx, rfl⟩⟩
  · rw [if_neg hyx] at hy
    exact ⟨d, hy, Or.inl ⟨hyx, rfl⟩⟩

theorem Inv.release (h : Inv own ex W) (fn : FreeFn) (hx : W.Open x c p)
    (hno : ∀ y d q, W.Open y d q → d.kind ≠ .session → d.parent ≠ x)
    (hreg : c.kind = .sftp → ∀ k, W.reg x k = []) (hex : c.kind = .session → x ∈ ex) :
    Inv own ex (released fn x p W) := by
  have hh := history_released fn x p W
  have hkeep : ∀ y e, W.heap y = some e → ∃ d, (released fn x p W).heap y = some d ∧
      d.kind = e.kind ∧ d.parent = e.parent ∧ d.session = e.session := by
    intro y e he
    rw [heap_released]
    by_cases hy : y = x
    · subst hy
      exact ⟨{ e with ptr := none }, by rw [if_pos rfl, he]; rfl, rfl, rfl, rfl⟩
    · exact ⟨e, by rw [if_neg hy, he], rfl, rfl, rfl⟩
  constructor
  case sound =>
    rw [hh]
    exact ⟨⟨trivial, fun q hq => by rw [List.mem_singleton.mp hq]; exact h.live_ptr hx⟩, h.sound⟩
  case nodup => exact h.nodup
  case entry =>
    intro o k y hy
    obtain ⟨e, he, h1, h2⟩ := h.entry o k y hy
    obtain ⟨d, hd, h3, h4, _⟩ := hkeep y e he
    exact ⟨d, hd, h3.trans h1, h4.trans h2⟩
  case owner =>
    intro o k y hy
    obtain ⟨s, hs, h1⟩ := h.owner o k y hy
    obtain ⟨d, hd, h3, _⟩ := hkeep o s hs
    exact ⟨d, hd, by rw [h3]; exact h1⟩
  case stored =>
    intro o k y hash d q hy hd
    exact h.stored o k y hash d q hy (open_released.mp hd).2
  case home =>
    intro y d q hd
    exact h.home y d q (open_released.mp hd).2
  case refs =>
    intro y d hd
    obtain ⟨e, he, ⟨_, rfl⟩ | ⟨_, rfl⟩⟩ := heap_released_some hd
    · exact h.refs y d he
    · exact h.refs y e he
  case par =>
    intro y d q hd hk
    obtain ⟨hne, hy⟩ := open_released.mp hd
    obtain ⟨s, r, hs, h1⟩ := h.par y d q hy hk
    exact ⟨s, r, open_released.mpr ⟨hno y d q hy hk, hs⟩, h1⟩
  case kin =>
    intro y d s hd hk hs
    obtain ⟨e, he, h1⟩ := heap_released_some hd
    obtain ⟨t, ht, h2⟩ := heap_released_some hs
    have hde : d.kind = e.kind ∧ d.parent = e.parent ∧ d.session = e.session := by
      rcases h1 with ⟨_, rfl⟩ | ⟨_, rfl⟩ <;> exact ⟨rfl, rfl, rfl⟩
    have hst : s.kind = t.kind ∧ s.session = t.session := by
      rcases h2 with ⟨_, rfl⟩ | ⟨_, rfl⟩ <;> exact ⟨rfl, rfl⟩
    rw [hde.1, hst.1, hst.2, hde.2.2]
    exact h.kin y e t he (hde.1 ▸ hk) (hde.2.1 ▸ ht)
  case live =>
    intro y d q hd
    obtain ⟨hne, hy⟩ := open_released.mp hd
    obtain ⟨h1, h2⟩ := h.live y d q hy
    rw [hh]
    refine ⟨List.mem_cons_of_mem _ h1, fun r hr hm => ?_⟩
    rcases List.mem_cons.mp hm with h3 | h3
    · have hrp : r = p := by cases h3; rfl
      rw [hrp] at hr
      rcases List.mem_cons.mp hr with h4 | h4
      · exact hne (h.inj y x d c p (h4 ▸ hy) hx)
      · exact h.not_owner hx hno hy h4
    · exact h2 r hr h3
  case inj =>
    intro y z d e q hd he
    exact h.inj y z d e q (open_released.mp hd).2 (open_released.mp he).2
  case shut =>
    intro s o hs ho k
    obtain ⟨e, he, ⟨_, rfl⟩ | ⟨hsx, rfl⟩⟩ := heap_released_some hs
    · exact h.shut s o he ho k
    · subst hsx
      have hec : e = c := Option.some.inj (he.symm.trans hx.1)
      subst hec
      rcases ho with h1 | h1
      · exact hreg h1.1 k
      · exact h.shut s e he (Or.inr h1) k
  case started =>
    intro s o q hs hk
    exact h.started s o q (open_released.mp hs).2 hk
  case young =>
    intro y hy
    rw [heap_released]
    split
    · next hyx => rw [← hyx, h.young y hy]; rfl
    · exact h.young y hy
  case parents =>
    intro y d hd
    obtain ⟨e, he, ⟨_, rfl⟩ | ⟨_, rfl⟩⟩ := heap_released_some hd
    · exact h.parents y d he
    · exact h.parents y e he
  case serials =>
    intro q os hm
    rw [hh] at hm
    exact h.serials q os (by simpa using hm)
  case leaf =>
    intro y d hd
    obtain ⟨e, he, ⟨_, rfl⟩ | ⟨_, rfl⟩⟩ := heap_released_some hd
    · exact h.leaf y d he
    · exact h.leaf y e he
  case root =>
    intro y d hd hk hy
    obtain ⟨e, he, ⟨_, rfl⟩ | ⟨hyx, rfl⟩⟩ := heap_released_some hd
    · exact h.root y d he hk hy
    · subst hyx
      have hec : e = c := Option.some.inj (he.symm.trans hx.1)
      exact absurd (hex (hec ▸ hk)) hy

/-- with no open wrapper below, nothing live is left below the pointer either -/
theorem Strict.childless (hs : Strict W) (h : Inv own ex W) (hx : W.Open x c p)
    (hno : ∀ y d q, W.Open y d q → d.kind ≠ .session → d.parent ≠ x) : Childless W.history p := by
  intro r os ha hp
  rcases hs.owned r os ha with h1 | ⟨y, d, hy, rfl⟩
  · exact h1
  · exact absurd hp (h.not_owner hx hno hy)

theorem Strict.release (hs : Strict W) (h : Inv own ex W) (fn : FreeFn) (hx : W.Open x c p)
    (hno : ∀ y d q, W.Open y d q → d.kind ≠ .session → d.parent ≠ x)
    (hout : x ∉ W.members c.parent c.kind) : Strict (released fn x p W) := by
  have hh := history_released fn x p W
  constructor
  case exact =>
    intro o k y d hy hd
    obtain ⟨e, he, ⟨_, rfl⟩ | ⟨hyx, rfl⟩⟩ := heap_released_some hd
    · exact hs.exact o k y d hy he
    · subst hyx
      have hec : e = c := Option.some.inj (he.symm.trans hx.1)
      subst hec
      obtain ⟨e', he', h1, h2⟩ := h.entry o k y hy
      have hee : e' = e := Option.some.inj (he'.symm.trans he)
      subst hee
      exact absurd (h1 ▸ h2 ▸ hy) hout
  case owned =>
    intro r os ha
    rw [hh] at ha ⊢
    rcases hs.owned r os (by simpa using ha) with h1 | ⟨y, d, hy, ho⟩
    · exact Or.inl (List.mem_cons_of_mem _ h1)
    · by_cases hyx : y = x
      · subst hyx
        rw [(Open.unique hx hy).2]
        exact Or.inl List.mem_cons_self
      · exact Or.inr ⟨y, d, open_released.mpr ⟨hyx, hy⟩, ho⟩
  case orderly =>
    rw [hh]
    exact ⟨hs.childless h hx hno, hs.orderly⟩
  case apart =>
    intro o y z d e hy hz hne hd he
    obtain ⟨d', hd', h1⟩ := heap_released_some hd
    obtain ⟨e', he', h2⟩ := heap_released_some he
    have hnx : ∀ w f, w ∈ W.members o .sftp → W.heap w = some f → w ≠ x := by
      rintro w f hw hf rfl
      obtain ⟨f', hf', h3, h4⟩ := h.entry o .sftp w hw
      have hfc : f' = c := Option.some.inj (hf'.symm.trans hx.1)
      subst hfc
      exact hout (h3 ▸ h4 ▸ hw)
    have hy' := hnx y d' hy hd'
    have hz' := hnx z e' hz he'
    rcases h1 with ⟨_, rfl⟩ | ⟨h3, _⟩
    · rcases h2 with ⟨_, rfl⟩ | ⟨h3, _⟩
      · exact hs.apart o y z d e hy hz hne hd' he'
      · exact absurd h3 hz'
    · exact absurd h3 hy'
  case mine =>
    intro y d q hd hk
    exact hs.mine y d q (open_released.mp hd).2 hk

/-! ## taking a wrapper out of its registry -/

/-- `PySet_Pop` gave `x`; the reference of the set is now C's -/
def popped (o : Ref) (k : Kind) (x : Ref) (W : World) : World :=
  W.setReg o k (HashSet.drop x (W.reg o k))

theorem mem_popped {o' : Ref} {k' : Kind} :
    y ∈ (popped o k x W).members o' k' ↔ y ∈ W.members o' k' ∧ ¬ (o' = o ∧ k' = k ∧ y = x) := by
  rw [popped, members_setReg]
  by_cases h : o' = o ∧ k' = k
  · rw [if_pos h, HashSet.mem_keys_drop, h.1, h.2]
    simp [members]
  · rw [if_neg h]
    have : ¬ (o' = o ∧ k' = k ∧ y = x) := fun h' => h ⟨h'.1, h'.2.1⟩
    simp [this]

theorem reg_popped_sub {o' : Ref} {k' : Kind} {e : Ref × BitVec 64}
    (he : e ∈ (popped o k x W).reg o' k') : e ∈ W.reg o' k' := by
  rw [popped, reg_setReg] at he
  by_cases h : o' = o ∧ k' = k
  · rw [if_pos h] at he
    rw [h.1, h.2]
    exact HashSet.mem_of_mem_drop he
  · rwa [if_neg h] at he

theorem Inv.pop (h : Inv own ex W) (hx : x ∈ W.members o k) :
    Inv (x :: own) (x :: ex) (popped o k x W) := by
  exact { h with
    nodup := fun o' k' => by
      rw [popped, members_setReg]
      split
      · exact HashSet.nodup_keys_drop (h.nodup o k)
      · exact h.nodup o' k'
    entry := fun o' k' y hy => h.entry o' k' y (mem_popped.mp hy).1
    owner := fun o' k' y hy => h.owner o' k' y (mem_popped.mp hy).1
    stored := fun o' k' y hash c p hy hc => h.stored o' k' y hash c p (reg_popped_sub hy) hc
    home := fun y c p hc hm hk hy => by
      have hne : y ≠ x := fun h1 => hy (h1 ▸ List.mem_cons_self)
      exact mem_popped.mpr ⟨h.home y c p hc hm hk fun h1 => hy (List.mem_cons_of_mem _ h1),
        fun h1 => hne h1.2.2⟩
    refs := fun y c hc => by
      have h1 := h.refs y c hc
      by_cases hyx : y = x
      · subst hyx
        obtain ⟨c', hc', hk, ho⟩ := h.entry o k y hx
        have hcc : c' = c := Option.some.inj (hc'.symm.trans hc)
        subst hcc
        have hin : y ∈ W.members c'.parent c'.kind := by rw [hk, ho]; exact hx
        have hout : y ∉ (popped o k y W).members c'.parent c'.kind := fun h2 =>
          (mem_popped.mp h2).2 ⟨ho, hk, rfl⟩
        rw [if_pos hin] at h1
        rw [if_neg hout, List.count_cons_self]
        show W.held y + (own.count y + 1) + 0 ≤ c'.refcnt
        omega
      · have hiff : y ∈ (popped o k x W).members c.parent c.kind ↔ y ∈ W.members c.parent c.kind :=
          ⟨fun h2 => (mem_popped.mp h2).1, fun h2 => mem_popped.mpr ⟨h2, fun h3 => hyx h3.2.2⟩⟩
        rw [List.count_cons_of_ne (Ne.symm hyx)]
        simp only [hiff]
        exact h1
    shut := fun s e hs he k' => by
      rw [popped, reg_setReg]
      split
      · next h1 =>
        have h2 := h.shut s e hs he k
        rw [← h1.1, h2]
        rfl
      · exact h.shut s e hs he k'
    root := fun y c hc hk hy => h.root y c hc hk fun h1 => hy (List.mem_cons_of_mem _ h1) }

theorem Strict.pop (h : Strict W) : Strict (popped o k x W) := by
  exact { h with
    exact := fun o' k' y c hy hc => h.exact o' k' y c (mem_popped.mp hy).1 hc
    apart := fun o' y z c d hy hz =>
      h.apart o' y z c d (mem_popped.mp hy).1 (mem_popped.mp hz).1 }

/-! ## changes that leave every object its pointer -/

/-- the same objects up to their reference counts and the field `opened`, the same registries -/
structure Alike (W W' : World) : Prop where
  fwd : ∀ y e, W.heap y = some e → ∃ n w, W'.heap y = some { e with refcnt := n, opened := w }
  back : ∀ y d, W'.heap y = some d →
    ∃ e, W.heap y = some e ∧ d = { e with refcnt := d.refcnt, opened := d.opened }
  reg : W'.reg = W.reg
  fresh : W'.fresh = W.fresh

variable {W' : World}

theorem Alike.members (hs : Alike W W') : W'.members = W.members := by
  unfold World.members
  rw [hs.reg]

theorem Alike.opens (hs : Alike W W') (hd : W'.Open y d q) :
    ∃ e, W.Open y e q ∧ d = { e with refcnt := d.refcnt, opened := d.opened } := by
  obtain ⟨e, he, h1⟩ := hs.back y d hd.1
  refine ⟨e, ⟨he, ?_⟩, h1⟩
  have h2 := hd.2
  rw [h1] at h2
  exact h2

/-- what is left to show is about the counts, the calls and the field `opened` -/
theorem Inv.alike (h : Inv own ex W) (hs : Alike W W') {own' : List Ref}
    (hsound : Sound W'.history)
    (hacq : ∀ p os, .acquire p os ∈ W'.history ↔ .acquire p os ∈ W.history)
    (hrel : ∀ p, .release p ∈ W'.history → .release p ∈ W.history)
    (hrefs : ∀ x c, W'.heap x = some c →
      W'.held x + own'.count x + (if x ∈ W.members c.parent c.kind then 1 else 0) ≤ c.refcnt)
    (hshut : ∀ s o, W'.heap s = some o → o.kind = .session → o.opened = false →
      ∀ k, W.reg s k = [])
    (hstarted : ∀ s o p, W'.Open s o p → o.kind = .session →
      p = o.session ∧ up p W'.calls = o.opened) : Inv own' ex W' := by
  constructor
  case sound => exact hsound
  case nodup => rw [hs.members]; exact h.nodup
  case entry =>
    intro o k y hy
    rw [hs.members] at hy
    obtain ⟨e, he, h1, h2⟩ := h.entry o k y hy
    obtain ⟨n, w, hn⟩ := hs.fwd y e he
    exact ⟨_, hn, h1, h2⟩
  case owner =>
    intro o k y hy
    rw [hs.members] at hy
    obtain ⟨s, hs', h1⟩ := h.owner o k y hy
    obtain ⟨n, w, hn⟩ := hs.fwd o s hs'
    exact ⟨_, hn, h1⟩
  case stored =>
    intro o k y hash d q hy hd
    rw [hs.reg] at hy
    obtain ⟨e, he, h1⟩ := hs.opens hd
    rw [h1]
    exact h.stored o k y hash e q hy he
  case home =>
    intro y d q hd hm hk hy
    rw [hs.members]
    obtain ⟨e, he, h1⟩ := hs.opens hd
    rw [h1] at hm hk ⊢
    exact h.home y e q he hm hk hy
  case refs =>
    intro y d hd
    rw [hs.members]
    exact hrefs y d hd
  case par =>
    intro y d q hd hk
    obtain ⟨e, he, h1⟩ := hs.opens hd
    rw [h1] at hk ⊢
    obtain ⟨s, r, hs', h2, h3⟩ := h.par y e q he hk
    obtain ⟨n, w, hn⟩ := hs.fwd _ s hs'.1
    exact ⟨_, r, ⟨hn, hs'.2⟩, h2, h3⟩
  case kin =>
    intro y d s hd hk hs'
    obtain ⟨e, he, h1⟩ := hs.back y d hd
    obtain ⟨t, ht, h2⟩ := hs.back _ s hs'
    rw [h1] at hk ht ⊢
    rw [h2]
    exact h.kin y e t he hk ht
  case live =>
    intro y d q hd
    obtain ⟨e, he, h1⟩ := hs.opens hd
    obtain ⟨h2, h3⟩ := h.live y e q he
    rw [h1]
    exact ⟨(hacq _ _).mpr h2, fun r hr hm => h3 r hr (hrel r hm)⟩
  case inj =>
    intro y z d e q hd he
    obtain ⟨d', hd', _⟩ := hs.opens hd
    obtain ⟨e', he', _⟩ := hs.opens he
    exact h.inj y z d' e' q hd' he'
  case shut =>
    intro s o hs' ho k
    rw [hs.reg]
    rcases ho with ⟨hk, hp⟩ | ⟨hk, hw⟩
    · obtain ⟨e, he, h1⟩ := hs.back s o hs'
      rw [h1] at hk hp
      exact h.shut s e he (Or.inl ⟨hk, hp⟩) k
    · exact hshut s o hs' hk hw k
  case started => exact hstarted
  case young =>
    intro y hy
    rw [hs.fresh] at hy
    cases hd : W'.heap y with
    | none => rfl
    | some d =>
      obtain ⟨e, he, _⟩ := hs.back y d hd
      rw [h.young y hy] at he
      cases he
  case parents =>
    intro y d hd
    rw [hs.fresh]
    obtain ⟨e, he, h1⟩ := hs.back y d hd
    rw [h1]
    exact h.parents y e he
  case serials =>
    intro p os hm
    rw [hs.fresh]
    exact h.serials p os ((hacq p os).mp hm)
  case leaf =>
    intro y d hd hk
    obtain ⟨e, he, h1⟩ := hs.back y d hd
    rw [h1] at hk ⊢
    exact h.leaf y e he hk
  case root =>
    intro y d hd hk hy
    obtain ⟨e, he, h1⟩ := hs.back y d hd
    rw [h1] at hk ⊢
    exact h.root y e he hk hy

theorem Strict.alike (h : Strict W) (hs : Alike W W') (horderly : Orderly W'.history)
    (hacq : ∀ p os, .acquire p os ∈ W'.history → .acquire p os ∈ W.history)
    (hrel : ∀ p, .release p ∈ W.history → .release p ∈ W'.history) : Strict W' := by
  constructor
  case exact =>
    intro o k y d hy hd
    rw [hs.members] at hy
    obtain ⟨e, he, h1⟩ := hs.back y d hd
    rw [h1]
    exact h.exact o k y e hy he
  case owned =>
    intro r os ha
    rcases h.owned r os (hacq r os ha) with h1 | ⟨y, e, he, ho⟩
    · exact Or.inl (hrel r h1)
    · obtain ⟨n, w, hn⟩ := hs.fwd y e he.1
      exact Or.inr ⟨y, _, ⟨hn, he.2⟩, ho⟩
  case orderly => exact horderly
  case apart =>
    intro o y z d e hy hz hne hd he
    rw [hs.members] at hy hz
    obtain ⟨d', hd', h1⟩ := hs.back y d hd
    obtain ⟨e', he', h2⟩ := hs.back z e he
    rw [h1, h2]
    exact h.apart o y z d' e' hy hz hne hd' he'
  case mine =>
    intro y d q hd hk
    obtain ⟨e, he, h1⟩ := hs.opens hd
    rw [h1] at hk ⊢
    exact h.mine y e q he hk

/-! ## changes of reference counts -/

/-- the same objects up to their reference counts, the same registries and calls -/
structure SameBut (W W' : World) : Prop where
  fwd : ∀ y e, W.heap y = some e → ∃ n, W'.heap y = some { e with refcnt := n }
  back : ∀ y d, W'.heap y = some d → ∃ e, W.heap y = some e ∧ d = { e with refcnt := d.refcnt }
  reg : W'.reg = W.reg
  calls : W'.calls = W.calls
  fresh : W'.fresh = W.fresh

theorem SameBut.alike (hs : SameBut W W') : Alike W W' where
  fwd y e he := by
    obtain ⟨n, hn⟩ := hs.fwd y e he
    exact ⟨n, e.opened, hn⟩
  back y d hd := by
    obtain ⟨e, he, h1⟩ := hs.back y d hd
    exact ⟨e, he, by rw [h1]⟩
  reg := hs.reg
  fresh := hs.fresh

theorem SameBut.history (hs : SameBut W W') : W'.history = W.history := by
  unfold World.history
  rw [hs.calls]

theorem SameBut.opens (hs : SameBut W W') (hd : W'.Open y d q) :
    ∃ e, W.Open y e q ∧ d = { e with refcnt := d.refcnt } := by
  obtain ⟨e, he, h1⟩ := hs.back y d hd.1
  refine ⟨e, ⟨he, ?_⟩, h1⟩
  have h2 := hd.2
  rw [h1] at h2
  exact h2

theorem Inv.same (h : Inv own ex W) (hs : SameBut W W') {own' : List Ref}
    (hrefs : ∀ x c, W'.heap x = some c →
      W'.held x + own'.count x + (if x ∈ W.members c.parent c.kind then 1 else 0) ≤ c.refcnt) :
    Inv own' ex W' := by
  refine h.alike hs.alike (by rw [hs.history]; exact h.sound) (fun _ _ => by rw [hs.history])
    (fun _ => by rw [hs.history]; exact id) hrefs ?_ ?_
  · intro s o hs' hk ho
    obtain ⟨e, he, h1⟩ := hs.back s o hs'
    rw [h1] at hk ho
    exact h.shut s e he (Or.inr ⟨hk, ho⟩)
  · intro s o q hs' hk
    rw [hs.calls]
    obtain ⟨e, he, h1⟩ := hs.opens hs'
    rw [h1] at hk ⊢
    exact h.started s e q he hk

theorem Strict.same (h : Strict W) (hs : SameBut W W') : Strict W' :=
  h.alike hs.alike (by rw [hs.history]; exact h.orderly) (fun _ _ => by rw [hs.history]; exact id)
    fun _ => by rw [hs.history]; exact id

def decd (x : Ref) (W : World) : World := W.modify x fun c => { c with refcnt := c.refcnt - 1 }

theorem heap_decd (x : Ref) (W : World) (y : Ref) : (decd x W).heap y =
    if y = x then (W.heap x).map fun c => { c with refcnt := c.refcnt - 1 } else W.heap y :=
  heap_modify ..

theorem sameBut_decd (x : Ref) (W : World) : SameBut W (decd x W) := by
  refine ⟨fun y e he => ?_, fun y d hd => ?_, rfl, rfl, rfl⟩
  · rw [heap_decd]
    by_cases hy : y = x
    · subst hy
      exact ⟨e.refcnt - 1, by rw [if_pos rfl, he]; rfl⟩
    · exact ⟨e.refcnt, by rw [if_neg hy, he]⟩
  · rw [heap_decd] at hd
    by_cases hy : y = x
    · subst hy
      rw [if_pos rfl] at hd
      obtain ⟨e, he, rfl⟩ := Option.map_eq_some_iff.mp hd
      exact ⟨e, he, rfl⟩
    · rw [if_neg hy] at hd
      exact ⟨d, hd, rfl⟩

theorem Inv.decd (h : Inv (x :: own) ex W) : Inv own ex (decd x W) := by
  apply h.same (sameBut_decd x W)
  intro y d hd
  rw [heap_decd] at hd
  by_cases hy : y = x
  · subst hy
    rw [if_pos rfl] at hd
    obtain ⟨e, he, rfl⟩ := Option.map_eq_some_iff.mp hd
    have h1 := h.refs y e he
    rw [List.count_cons_self] at h1
    show W.held y + own.count y + (if y ∈ W.members e.parent e.kind then 1 else 0) ≤ e.refcnt - 1
    omega
  · rw [if_neg hy] at hd
    have h1 := h.refs y d hd
    rw [List.count_cons_of_ne (Ne.symm hy)] at h1
    exact h1

/-! ## deleting an object -/

theorem open_del : (W.del x).Open y d q ↔ y ≠ x ∧ W.Open y d q := by
  unfold World.Open
  rw [heap_del]
  by_cases hy : y = x <;> simp [hy]

theorem heap_del_some (hy : (W.del x).heap y = some d) : y ≠ x ∧ W.heap y = some d := by
  rw [heap_del] at hy
  by_cases hyx : y = x
  · rw [if_pos hyx] at hy
    cases hy
  · rw [if_neg hyx] at hy
    exact ⟨hyx, hy⟩

theorem Inv.not_member_of_refcnt (h : Inv own ex W) (hx : W.heap x = some c) (h0 : c.refcnt = 0)
    (o : Ref) (k : Kind) : x ∉ W.members o k := by
  intro hm
  obtain ⟨d, hd, hk, ho⟩ := h.entry o k x hm
  have hdc : d = c := Option.some.inj (hd.symm.trans hx)
  subst hdc
  have h1 := h.refs x d hx
  rw [if_pos (by rw [hk, ho]; exact hm)] at h1
  omega

theorem Inv.del (h : Inv own ex W) (hx : W.heap x = some c) (h0 : c.refcnt = 0) (hp : c.ptr = none)
    (hno : ∀ y d q, W.Open y d q → d.kind ≠ .session → d.parent ≠ x)
    (hreg : ∀ k, W.reg x k = []) : Inv own ex (W.del x) := by
  have hnm := h.not_member_of_refcnt hx h0
  constructor
  case sound => exact h.sound
  case nodup => exact h.nodup
  case entry =>
    intro o k y hy
    obtain ⟨e, he, h1⟩ := h.entry o k y hy
    have hne : y ≠ x := fun h2 => hnm o k (h2 ▸ hy)
    exact ⟨e, by rw [heap_del, if_neg hne, he], h1⟩
  case owner =>
    intro o k y hy
    obtain ⟨s, hs, h1⟩ := h.owner o k y hy
    have hne : o ≠ x := by
      rintro rfl
      have hy' : y ∈ W.members o k := hy
      rw [members, hreg k] at hy'
      exact absurd hy' List.not_mem_nil
    exact ⟨s, by rw [heap_del, if_neg hne, hs], h1⟩
  case stored =>
    intro o k y hash d q hy hd
    exact h.stored o k y hash d q hy (open_del.mp hd).2
  case home =>
    intro y d q hd
    exact h.home y d q (open_del.mp hd).2
  case refs =>
    intro y d hd
    exact h.refs y d (heap_del_some hd).2
  case par =>
    intro y d q hd hk
    obtain ⟨_, hy⟩ := open_del.mp hd
    obtain ⟨s, r, hs, h1⟩ := h.par y d q hy hk
    exact ⟨s, r, open_del.mpr ⟨hno y d q hy hk, hs⟩, h1⟩
  case kin =>
    intro y d s hd hk hs
    exact h.kin y d s (heap_del_some hd).2 hk (heap_del_some hs).2
  case live =>
    intro y d q hd
    exact h.live y d q (open_del.mp hd).2
  case inj =>
    intro y z d e q hd he
    exact h.inj y z d e q (open_del.mp hd).2 (open_del.mp he).2
  case shut =>
    intro s o hs
    exact h.shut s o (heap_del_some hs).2
  case started =>
    intro s o q hs
    exact h.started s o q (open_del.mp hs).2
  case young =>
    intro y hy
    rw [heap_del]
    split
    · rfl
    · exact h.young y hy
  case parents =>
    intro y d hd
    exact h.parents y d (heap_del_some hd).2
  case serials => exact h.serials
  case leaf =>
    intro y d hd
    exact h.leaf y d (heap_del_some hd).2
  case root =>
    intro y d hd
    exact h.root y d (heap_del_some hd).2

theorem Strict.del (h : Strict W) (hx : W.heap x = some c) (hp : c.ptr = none) : Strict (W.del x) := by
  constructor
  case exact =>
    intro o k y d hy hd
    exact h.exact o k y d hy (heap_del_some hd).2
  case owned =>
    intro r os ha
    rcases h.owned r os ha with h1 | ⟨y, d, hy, ho⟩
    · exact Or.inl h1
    · have hne : y ≠ x := by
        rintro rfl
        have hdc : d = c := Option.some.inj (hy.1.symm.trans hx)
        rw [← hdc, hy.2] at hp
        cases hp
      exact Or.inr ⟨y, d, open_del.mpr ⟨hne, hy⟩, ho⟩
  case orderly => exact h.orderly
  case apart =>
    intro o y z d e hy hz hne hd he
    exact h.apart o y z d e hy hz hne (heap_del_some hd).2 (heap_del_some he).2
  case mine =>
    intro y d q hd
    exact h.mine y d q (open_del.mp hd).2

/-! ## exemptions -/

theorem Inv.exempt (h : Inv own ex W) : Inv own (x :: ex) W :=
  { h with
    home := fun y c p hc hm hk hy => h.home y c p hc hm hk fun h1 => hy (List.mem_cons_of_mem _ h1)
    root := fun y c hc hk hy => h.root y c hc hk fun h1 => hy (List.mem_cons_of_mem _ h1) }

theorem Inv.settled (h : Inv own (x :: ex) W) (hs : ∀ c, W.heap x = some c → c.kind ≠ .session)
    (hx : ∀ c p, W.Open x c p → c.managed = true → c.kind = .listener) : Inv own ex W :=
  { h with
    home := fun y c p hc hm hk hy => by
      apply h.home y c p hc hm hk
      intro h1
      rcases List.mem_cons.mp h1 with h2 | h2
      · rw [h2] at hc
        exact hk (hx c p hc hm)
      · exact hy h2
    root := fun y c hc hk hy => by
      apply h.root y c hc hk
      intro h1
      rcases List.mem_cons.mp h1 with h2 | h2
      · exact hs c (h2 ▸ hc) hk
      · exact hy h2 }

end PyLibssh2

import PyLibssh2.Ext.Drop
import PyLibssh2.Ext.Use
import PyLibssh2.Ext.Young

/-!
# Keeping the books on references

`Books E g own ex dying W`: every reference to a wrapper is accounted for, in whatever state a program got
to.  Of the references to an object some belong to Python code, some to C code that holds the object in a
local variable (`own`), and one to the set of its parent if that set contains it.  `E` says that there are
no others.  `dying` lists the objects whose deallocators are running and `ex` the files and directories
that were taken out of their set and are about to be closed.

Unlike `Inv` this asks nothing of libssh2, of memory or of the program.  Each section is about one
elementary update.
-/

set_option linter.unusedSectionVars false
set_option linter.unusedVariables false

namespace PyLibssh2

open World

/-- what does not change while objects are followed: the types, which they are, and which objects are not in
which sets any more -/
structure Ghost where
  kind : Ref → Kind
  followed : Ref → Prop
  out : Ref → Ref → Kind → Prop

def Kind.Handle (k : Kind) : Prop := k = .file ∨ k = .dir

/-- the references to `x` that somebody answers for -/
def World.claims (W : World) (own : List Ref) (x : Ref) (c : Obj) : Nat :=
  W.held x + own.count x + if x ∈ W.members c.parent c.kind then 1 else 0

structure Books (E : Prop) (g : Ghost) (own ex dying : List Ref) (W : World) : Prop where
  young : ∀ x, W.fresh ≤ x → W.heap x = none
  kinds : ∀ x c, W.heap x = some c → c.kind = g.kind x
  nodup : ∀ o k, (W.members o k).Nodup
  entry : ∀ o k x, x ∈ W.members o k → ∃ c, W.heap x = some c ∧ c.kind = k ∧ c.parent = o
  owner : ∀ o k x, x ∈ W.members o k → ∃ s, W.heap o = some s ∧ k.parent = some s.kind
  refs : ∀ x c, W.heap x = some c → W.claims own x c ≤ c.refcnt
  even : E → ∀ x c, W.heap x = some c → c.refcnt ≤ W.claims own x c
  alive : ∀ x, x ∈ own ∨ x ∈ dying ∨ 0 < W.held x → W.heap x ≠ none
  spent : ∀ x c, x ∈ dying → W.heap x = some c → c.refcnt = 0
  once : dying.Nodup
  zombie : ∀ x c, W.heap x = some c → c.refcnt = 0 → x ∉ dying → c.kind.Handle
  home : ∀ x c p, W.Open x c p → c.kind.Handle → x ∉ ex → x ∈ W.members c.parent c.kind
  shut : ∀ s o, W.heap s = some o → o.kind = .sftp → o.ptr = none → ∀ k, W.reg s k = []
  root : ∀ x c, W.heap x = some c → c.kind = .session → x ∉ dying → c.ptr ≠ none
  dels : ∀ x ∈ W.dels, W.heap x = none ∧ x < W.fresh
  track : ∀ x, g.followed x → (W.heap x ≠ none ∧ x ∉ W.dels) ∨
    (W.heap x = none ∧ W.dels.count x = 1 ∧ ¬ (g.kind x).Handle)
  away : ∀ x o k, g.out x o k → x < W.fresh ∧ x ∉ W.members o k

variable {E : Prop} {g : Ghost} {own own' ex dying dying' : List Ref} {W W' : World} {x y o s : Ref}
  {c d e : Obj} {p q : Ptr} {k : Kind}

/-! ## consequences -/

theorem Books.member_kind (h : Books E g own ex dying W) (hx : x ∈ W.members o k) : g.kind x = k := by
  obtain ⟨c, hc, hk, _⟩ := h.entry o k x hx
  rw [← hk, h.kinds x c hc]

theorem Books.member_refcnt (h : Books E g own ex dying W) (hx : x ∈ W.members o k)
    (hc : W.heap x = some c) : W.held x + own.count x < c.refcnt := by
  obtain ⟨d, hd, rfl, rfl⟩ := h.entry o k x hx
  have hdc : d = c := Option.some.inj (hd.symm.trans hc)
  subst hdc
  have h1 := h.refs x d hd
  rw [World.claims, if_pos hx] at h1
  omega

/-- an object that is being deallocated is in no set, and nobody refers to it -/
theorem Books.dying_free (h : Books E g own ex dying W) (hx : x ∈ dying) :
    W.held x = 0 ∧ own.count x = 0 ∧ ∀ o k, x ∉ W.members o k := by
  obtain ⟨c, hc⟩ := Option.ne_none_iff_exists'.mp (h.alive x (Or.inr (Or.inl hx)))
  have h0 := h.spent x c hx hc
  have h1 := h.refs x c hc
  unfold World.claims at h1
  refine ⟨by omega, by omega, fun o k hm => ?_⟩
  have h2 := h.member_refcnt hm hc
  omega

theorem Books.reg_nil (h : Books E g own ex dying W) (hk : k.parent ≠ some (g.kind o)) :
    W.reg o k = [] := by
  apply reg_eq_nil_iff.mpr
  intro x hx
  obtain ⟨s, hs, hks⟩ := h.owner o k x hx
  rw [h.kinds o s hs] at hks
  exact hk hks

theorem Books.lt_fresh (h : Books E g own ex dying W) (hx : W.heap x ≠ none) : x < W.fresh :=
  Nat.lt_of_not_le fun h1 => hx (h.young x h1)

theorem Books.followed_lt (h : Books E g own ex dying W) (hx : g.followed x) : x < W.fresh := by
  rcases h.track x hx with ⟨h1, _⟩ | ⟨_, h1, _⟩
  · exact h.lt_fresh h1
  · have h2 : x ∈ W.dels := List.count_pos_iff.mp (by rw [h1]; exact Nat.one_pos)
    exact (h.dels x h2).2

/-- an object is in at most the set of its parent -/
theorem Books.member_iff (h : Books E g own ex dying W) (hc : W.heap x = some c) :
    x ∈ W.members o k ↔ (o = c.parent ∧ k = c.kind) ∧ x ∈ W.members c.parent c.kind := by
  constructor
  · intro hx
    obtain ⟨d, hd, rfl, rfl⟩ := h.entry o k x hx
    have hdc : d = c := Option.some.inj (hd.symm.trans hc)
    subst hdc
    exact ⟨⟨rfl, rfl⟩, hx⟩
  · intro hx
    rw [hx.1.1, hx.1.2]
    exact hx.2

/-! ## calls -/

theorem Books.same (h : Books E g own ex dying W) (hheap : W'.heap = W.heap) (hreg : W'.reg = W.reg)
    (hheld : W'.held = W.held) (hdels : W'.dels = W.dels) (hfresh : W.fresh ≤ W'.fresh) :
    Books E g own ex dying W' := by
  have hmem : W'.members = W.members := by
    unfold World.members
    rw [hreg]
  have hclaims : W'.claims = W.claims := by
    funext own x c
    rw [World.claims, hheld, hmem]
    rfl
  constructor
  case young =>
    rw [hheap]
    exact fun x hx => h.young x (hfresh.trans hx)
  case kinds => rw [hheap]; exact h.kinds
  case nodup => rw [hmem]; exact h.nodup
  case entry => rw [hmem, hheap]; exact h.entry
  case owner => rw [hmem, hheap]; exact h.owner
  case refs => rw [hheap, hclaims]; exact h.refs
  case even => rw [hheap, hclaims]; exact h.even
  case alive => rw [hheap, hheld]; exact h.alive
  case spent => rw [hheap]; exact h.spent
  case once => exact h.once
  case zombie => rw [hheap]; exact h.zombie
  case home =>
    rw [hmem]
    intro x c p hx
    exact h.home x c p ⟨hheap ▸ hx.1, hx.2⟩
  case shut => rw [hheap, hreg]; exact h.shut
  case root => rw [hheap]; exact h.root
  case dels =>
    rw [hheap, hdels]
    exact fun x hx => ⟨(h.dels x hx).1, (h.dels x hx).2.trans_le hfresh⟩
  case track => rw [hheap, hdels]; exact h.track
  case away =>
    rw [hmem]
    exact fun x o k hx => ⟨(h.away x o k hx).1.trans_le hfresh, (h.away x o k hx).2⟩

theorem Books.log (h : Books E g own ex dying W) (e : Call) : Books E g own ex dying (W.log e) :=
  h.same rfl rfl rfl rfl (Nat.le_refl _)

theorem Books.calls (h : Books E g own ex dying W) (hw : OnlyCalls W W') : Books E g own ex dying W' := by
  obtain ⟨cs, rfl⟩ := hw
  exact h.same rfl rfl rfl rfl (Nat.le_refl _)

/-! ## changes of objects -/

/-- the same objects, some of them worn, and the same sets; the counts are still to be shown -/
theorem Books.worn (h : Books E g own ex dying W)
    (hfwd : ∀ y e, W.heap y = some e → ∃ d, W'.heap y = some d ∧ Worn e d)
    (hback : ∀ y d, W'.heap y = some d → ∃ e, W.heap y = some e ∧ Worn e d)
    (hreg : W'.reg = W.reg) (hdels : W'.dels = W.dels) (hfresh : W'.fresh = W.fresh)
    (hrefs : ∀ y d, W'.heap y = some d → W'.claims own' y d ≤ d.refcnt)
    (heven : E → ∀ y d, W'.heap y = some d → d.refcnt ≤ W'.claims own' y d)
    (halive : ∀ y, y ∈ own' ∨ y ∈ dying' ∨ 0 < W'.held y → W.heap y ≠ none)
    (hdying : ∀ y d, y ∈ dying' → W'.heap y = some d → d.refcnt = 0) (honce : dying'.Nodup)
    (hzombie : ∀ y d, W'.heap y = some d → d.refcnt = 0 → y ∉ dying' → d.kind.Handle)
    (hshut : ∀ s d, W'.heap s = some d → d.kind = .sftp → d.ptr = none → ∀ k, W.reg s k = [])
    (hroot : ∀ y d, W'.heap y = some d → d.kind = .session → y ∉ dying' → d.ptr ≠ none) :
    Books E g own' ex dying' W' := by
  have hmem : W'.members = W.members := by
    unfold World.members
    rw [hreg]
  have hnone : ∀ y, W'.heap y = none ↔ W.heap y = none := by
    intro y
    constructor
    · intro hy
      cases he : W.heap y with
      | none => rfl
      | some e =>
        obtain ⟨d, hd, _⟩ := hfwd y e he
        rw [hy] at hd
        cases hd
    · intro hy
      cases hd : W'.heap y with
      | none => rfl
      | some d =>
        obtain ⟨e, he, _⟩ := hback y d hd
        rw [hy] at he
        cases he
  constructor
  case young =>
    rw [hfresh]
    exact fun y hy => (hnone y).mpr (h.young y hy)
  case kinds =>
    intro y d hd
    obtain ⟨e, he, hw⟩ := hback y d hd
    rw [hw.kind]
    exact h.kinds y e he
  case nodup => rw [hmem]; exact h.nodup
  case entry =>
    rw [hmem]
    intro o k y hy
    obtain ⟨e, he, hk, ho⟩ := h.entry o k y hy
    obtain ⟨d, hd, hw⟩ := hfwd y e he
    exact ⟨d, hd, hw.kind.trans hk, hw.parent.trans ho⟩
  case owner =>
    rw [hmem]
    intro o k y hy
    obtain ⟨s, hs, hk⟩ := h.owner o k y hy
    obtain ⟨d, hd, hw⟩ := hfwd o s hs
    exact ⟨d, hd, hw.kind.symm ▸ hk⟩
  case refs => exact hrefs
  case even => exact heven
  case alive => exact fun y hy hn => halive y hy ((hnone y).mp hn)
  case spent => exact hdying
  case once => exact honce
  case zombie => exact hzombie
  case home =>
    rw [hmem]
    intro y d p hd hk hy
    obtain ⟨e, he, hw⟩ := hback y d hd.1
    rw [hw.parent, hw.kind]
    rw [hw.kind] at hk
    refine h.home y e p ⟨he, ?_⟩ hk hy
    rcases hw.ptr with h1 | h1
    · rw [← h1]
      exact hd.2
    · rw [hd.2] at h1
      cases h1
  case shut => rw [hreg]; exact hshut
  case root => exact hroot
  case dels =>
    rw [hdels, hfresh]
    exact fun y hy => ⟨(hnone y).mpr (h.dels y hy).1, (h.dels y hy).2⟩
  case track =>
    rw [hdels]
    intro y hy
    rw [Ne, hnone y]
    exact h.track y hy
  case away =>
    rw [hmem, hfresh]
    exact h.away

theorem modify_fwd {f : Obj → Obj} (hf : ∀ e, Worn e (f e)) (hy : W.heap y = some e) :
    ∃ d, (W.modify x f).heap y = some d ∧ Worn e d := by
  rw [heap_modify]
  by_cases hyx : y = x
  · subst hyx
    exact ⟨f e, by rw [if_pos rfl, hy]; rfl, hf e⟩
  · exact ⟨e, by rw [if_neg hyx, hy], Worn.refl e⟩

theorem modify_back {f : Obj → Obj} (hy : (W.modify x f).heap y = some d) :
    (y = x ∧ ∃ e, W.heap x = some e ∧ d = f e) ∨ (y ≠ x ∧ W.heap y = some d) := by
  rw [heap_modify] at hy
  by_cases hyx : y = x
  · rw [if_pos hyx] at hy
    obtain ⟨e, he, rfl⟩ := Option.map_eq_some_iff.mp hy
    exact Or.inl ⟨hyx, e, he, rfl⟩
  · rw [if_neg hyx] at hy
    exact Or.inr ⟨hyx, hy⟩

theorem Books.touch (h : Books E g own ex dying W) (x : Ref) (f : Obj → Obj) (hf : ∀ e, Worn e (f e))
    (hcnt : ∀ e, (f e).refcnt = e.refcnt)
    (hshut : g.kind x = .sftp → ∀ e, W.heap x = some e → (f e).ptr = none → ∀ k, W.reg x k = [])
    (hroot : g.kind x = .session → ∀ e, W.heap x = some e → (f e).ptr = none → x ∈ dying) :
    Books E g own ex dying (W.modify x f) := by
  have hclaims : ∀ y e d, Worn e d → (W.modify x f).claims own y d = W.claims own y e := by
    intro y e d hw
    rw [World.claims, hw.parent, hw.kind]
    rfl
  have hback : ∀ y d, (W.modify x f).heap y = some d →
      ∃ e, W.heap y = some e ∧ Worn e d ∧ d.refcnt = e.refcnt := by
    intro y d hd
    rcases modify_back hd with ⟨rfl, e, he, rfl⟩ | ⟨_, hd'⟩
    · exact ⟨e, he, hf e, hcnt e⟩
    · exact ⟨d, hd', Worn.refl d, rfl⟩
  refine h.worn (fun y e he => modify_fwd hf he) (fun y d hd => ?_) rfl rfl rfl (fun y d hd => ?_)
    (fun hE y d hd => ?_) h.alive (fun y d hy hd => ?_) h.once (fun y d hd h0 hy => ?_)
    (fun s d hd hk hp => ?_) (fun y d hd hk hy => ?_)
  · obtain ⟨e, he, hw, _⟩ := hback y d hd
    exact ⟨e, he, hw⟩
  · obtain ⟨e, he, hw, hn⟩ := hback y d hd
    rw [hclaims y e d hw, hn]
    exact h.refs y e he
  · obtain ⟨e, he, hw, hn⟩ := hback y d hd
    rw [hclaims y e d hw, hn]
    exact h.even hE y e he
  · obtain ⟨e, he, _, hn⟩ := hback y d hd
    rw [hn]
    exact h.spent y e hy he
  · obtain ⟨e, he, hw, hn⟩ := hback y d hd
    rw [hw.kind]
    exact h.zombie y e he (hn ▸ h0) hy
  · rcases modify_back hd with ⟨rfl, e, he, rfl⟩ | ⟨_, hd'⟩
    · rw [(hf e).kind, h.kinds s e he] at hk
      exact hshut hk e he hp
    · exact h.shut s d hd' hk hp
  · rcases modify_back hd with ⟨rfl, e, he, rfl⟩ | ⟨_, hd'⟩
    · rw [(hf e).kind, h.kinds y e he] at hk
      exact fun hp => hy (hroot hk e he hp)
    · exact h.root y d hd' hk hy

theorem Books.clear (h : Books E g own ex dying W) (hs : g.kind x ≠ .sftp) (hr : g.kind x ≠ .session) :
    Books E g own ex dying (W.clear x) :=
  h.touch x _ (fun _ => ⟨rfl, rfl, rfl, rfl, rfl, Or.inr rfl⟩) (fun _ => rfl)
    (fun hk => absurd hk hs) fun hk => absurd hk hr

/-! ## references -/

/-- C gives up a reference it holds; the last one leaves the object to its deallocator -/
theorem Books.decd (h : Books E g (x :: own) ex dying W) (hx : W.heap x = some c) :
    Books E g own ex (if c.refcnt = 1 then x :: dying else dying) (decd x W) := by
  have hpos : 0 < c.refcnt := by
    have h1 := h.refs x c hx
    rw [World.claims, List.count_cons_self] at h1
    omega
  have hfresh : x ∉ dying := fun hd => by
    rw [h.spent x c hd hx] at hpos
    exact Nat.lt_irrefl _ hpos
  have hback : ∀ y d, (PyLibssh2.decd x W).heap y = some d →
      (y = x ∧ d = { c with refcnt := c.refcnt - 1 }) ∨ (y ≠ x ∧ W.heap y = some d) := by
    intro y d hd
    rcases modify_back hd with ⟨rfl, e, he, rfl⟩ | h1
    · have hec : e = c := Option.some.inj (he.symm.trans hx)
      rw [hec]
      exact Or.inl ⟨rfl, rfl⟩
    · exact Or.inr h1
  have hself : W.claims (x :: own) x c = W.claims own x c + 1 := by
    rw [World.claims, World.claims, List.count_cons_self]
    omega
  have hother : ∀ y d, y ≠ x → W.claims (x :: own) y d = W.claims own y d := by
    intro y d hy
    rw [World.claims, World.claims, List.count_cons_of_ne (Ne.symm hy)]
  have hclaims : ∀ y d, (PyLibssh2.decd x W).claims own y d = W.claims own y d := fun _ _ => rfl
  have hdying : ∀ y, y ∈ (if c.refcnt = 1 then x :: dying else dying) →
      (y = x ∧ c.refcnt = 1) ∨ (y ≠ x ∧ y ∈ dying) := by
    intro y hy
    by_cases h1 : c.refcnt = 1
    · rw [if_pos h1] at hy
      rcases List.mem_cons.mp hy with h2 | h2
      · exact Or.inl ⟨h2, h1⟩
      · exact Or.inr ⟨fun h3 => hfresh (h3 ▸ h2), h2⟩
    · rw [if_neg h1] at hy
      exact Or.inr ⟨fun h3 => hfresh (h3 ▸ hy), hy⟩
  have hyet : ∀ y, y ∉ (if c.refcnt = 1 then x :: dying else dying) → y ∉ dying := by
    intro y hy h1
    apply hy
    by_cases h2 : c.refcnt = 1
    · rw [if_pos h2]
      exact List.mem_cons_of_mem x h1
    · rw [if_neg h2]
      exact h1
  refine h.worn (fun y e he => modify_fwd (fun _ => ⟨rfl, rfl, rfl, rfl, rfl, Or.inl rfl⟩) he)
    (fun y d hd => ?_) rfl rfl rfl (fun y d hd => ?_) (fun hE y d hd => ?_) (fun y hy => ?_)
    (fun y d hy hd => ?_) ?_ (fun y d hd h0 hy => ?_) (fun s d hd hk hp => ?_) (fun y d hd hk hy => ?_)
  · rcases hback y d hd with ⟨rfl, rfl⟩ | ⟨_, hd'⟩
    · exact ⟨c, hx, rfl, rfl, rfl, rfl, rfl, Or.inl rfl⟩
    · exact ⟨d, hd', Worn.refl d⟩
  · rw [hclaims]
    rcases hback y d hd with ⟨rfl, rfl⟩ | ⟨hne, hd'⟩
    · have h1 := h.refs y c hx
      rw [hself] at h1
      exact Nat.le_sub_of_add_le h1
    · rw [← hother y d hne]
      exact h.refs y d hd'
  · rw [hclaims]
    rcases hback y d hd with ⟨rfl, rfl⟩ | ⟨hne, hd'⟩
    · have h1 := h.even hE y c hx
      rw [hself] at h1
      exact Nat.sub_le_of_le_add h1
    · rw [← hother y d hne]
      exact h.even hE y d hd'
  · rcases hy with h1 | h1 | h1
    · exact h.alive y (Or.inl (List.mem_cons_of_mem x h1))
    · rcases hdying y h1 with ⟨rfl, _⟩ | ⟨_, h2⟩
      · exact h.alive y (Or.inl List.mem_cons_self)
      · exact h.alive y (Or.inr (Or.inl h2))
    · exact h.alive y (Or.inr (Or.inr h1))
  · rcases hback y d hd with ⟨rfl, rfl⟩ | ⟨hne, hd'⟩
    · rcases hdying y hy with ⟨_, h1⟩ | ⟨h1, _⟩
      · show c.refcnt - 1 = 0
        omega
      · exact absurd rfl h1
    · rcases hdying y hy with ⟨h1, _⟩ | ⟨_, h1⟩
      · exact absurd h1 hne
      · exact h.spent y d h1 hd'
  · by_cases h1 : c.refcnt = 1
    · rw [if_pos h1]
      exact List.nodup_cons.mpr ⟨hfresh, h.once⟩
    · rw [if_neg h1]
      exact h.once
  · rcases hback y d hd with ⟨rfl, rfl⟩ | ⟨_, hd'⟩
    · have h0 : c.refcnt - 1 = 0 := h0
      rw [if_pos (by omega)] at hy
      exact absurd List.mem_cons_self hy
    · exact h.zombie y d hd' h0 (hyet y hy)
  · rcases hback s d hd with ⟨rfl, rfl⟩ | ⟨_, hd'⟩
    · exact h.shut s c hx hk hp
    · exact h.shut s d hd' hk hp
  · rcases hback y d hd with ⟨rfl, rfl⟩ | ⟨_, hd'⟩
    · exact h.root y c hx hk (hyet y hy)
    · exact h.root y d hd' hk (hyet y hy)

/-! ## sets -/

theorem Books.thin (h : Books E g own ex dying W) {r : PySet} {ex' : List Ref}
    (hr : ∀ y ∈ HashSet.keys r, y ∈ W.members o k) (hnd : (HashSet.keys r).Nodup)
    (hin : ∀ y ∈ W.members o k, own'.count y + (if y ∈ HashSet.keys r then 1 else 0) = own.count y + 1)
    (hout : ∀ y, y ∉ W.members o k → own'.count y = own.count y)
    (hex : ∀ y ∈ ex, y ∈ ex')
    (hhome : k.Handle → ∀ y ∈ W.members o k, y ∉ HashSet.keys r → y ∈ ex') :
    Books E g own' ex' dying (W.setReg o k r) := by
  have hmem : ∀ o' k' y, y ∈ (W.setReg o k r).members o' k' → y ∈ W.members o' k' := by
    intro o' k' y hy
    rw [members_setReg] at hy
    split at hy
    · rename_i h1
      rw [h1.1, h1.2]
      exact hr y hy
    · exact hy
  have hclaims : ∀ y c, W.heap y = some c →
      (W.setReg o k r).claims own' y c = W.claims own y c := by
    intro y c hc
    rw [World.claims, World.claims, held_setReg, members_setReg]
    by_cases hy : y ∈ W.members o k
    · obtain ⟨d, hd, rfl, rfl⟩ := h.entry o k y hy
      have hdc : d = c := Option.some.inj (hd.symm.trans hc)
      subst hdc
      have h1 := hin y hy
      rw [if_pos (show d.parent = d.parent ∧ d.kind = d.kind from ⟨rfl, rfl⟩), if_pos hy]
      omega
    · rw [hout y hy]
      by_cases h1 : c.parent = o ∧ c.kind = k
      · have h2 : y ∉ HashSet.keys r := fun h3 => hy (hr y h3)
        rw [if_pos h1, if_neg h2, h1.1, h1.2, if_neg hy]
      · rw [if_neg h1]
  constructor
  case young => exact h.young
  case kinds => exact h.kinds
  case nodup =>
    intro o' k'
    rw [members_setReg]
    split
    · exact hnd
    · exact h.nodup o' k'
  case entry => exact fun o' k' y hy => h.entry o' k' y (hmem o' k' y hy)
  case owner => exact fun o' k' y hy => h.owner o' k' y (hmem o' k' y hy)
  case refs =>
    intro y c hc
    rw [hclaims y c hc]
    exact h.refs y c hc
  case even =>
    intro hE y c hc
    rw [hclaims y c hc]
    exact h.even hE y c hc
  case alive =>
    intro y hy
    by_cases hm : y ∈ W.members o k
    · obtain ⟨c, hc, _⟩ := h.entry o k y hm
      show W.heap y ≠ none
      rw [hc]
      exact Option.some_ne_none c
    · apply h.alive
      rcases hy with h1 | h1
      · refine Or.inl (List.count_pos_iff.mp ?_)
        rw [← hout y hm]
        exact List.count_pos_iff.mpr h1
      · exact Or.inr h1
  case spent => exact h.spent
  case once => exact h.once
  case zombie => exact h.zombie
  case home =>
    intro y c p hc hk hy
    have h1 := h.home y c p hc hk fun h2 => hy (hex y h2)
    rw [members_setReg]
    split
    · rename_i h2
      rw [h2.1, h2.2] at h1
      by_contra h3
      exact hy (hhome (h2.2 ▸ hk) y h1 h3)
    · exact h1
  case shut =>
    intro s d hd hk hp j
    apply reg_eq_nil_iff.mpr
    intro y hy
    exact reg_eq_nil_iff.mp (h.shut s d hd hk hp j) y (hmem s j y hy)
  case root => exact h.root
  case dels => exact h.dels
  case track => exact h.track
  case away =>
    exact fun y o' k' hy => ⟨(h.away y o' k' hy).1, fun hm => (h.away y o' k' hy).2 (hmem o' k' y hm)⟩

theorem Books.pop (h : Books E g own ex dying W) (hx : x ∈ W.members o k) :
    Books E g (x :: own) (x :: ex) dying (popped o k x W) := by
  refine h.thin (fun y hy => (HashSet.mem_keys_drop.mp hy).1) (HashSet.nodup_keys_drop (h.nodup o k))
    (fun y hy => ?_) (fun y hy => ?_) (fun y hy => List.mem_cons_of_mem x hy) fun _ y hy hn => ?_
  · by_cases hyx : y = x
    · have h1 : x ∉ HashSet.keys (HashSet.drop x (W.reg o k)) := fun h2 => (HashSet.mem_keys_drop.mp h2).2 rfl
      rw [hyx, if_neg h1, List.count_cons_self]
    · rw [if_pos (HashSet.mem_keys_drop.mpr ⟨hy, hyx⟩), List.count_cons_of_ne (Ne.symm hyx)]
  · have hne : x ≠ y := fun h1 => hy (h1 ▸ hx)
    exact List.count_cons_of_ne hne
  · by_contra h1
    exact hn (HashSet.mem_keys_drop.mpr ⟨hy, fun h2 => h1 (h2 ▸ List.mem_cons_self)⟩)

theorem Books.takeAll (h : Books E g own ex dying W) (hk : ¬ k.Handle) :
    Books E g (W.members o k ++ own) ex dying (W.setReg o k []) := by
  refine h.thin (fun y hy => absurd hy List.not_mem_nil) List.nodup_nil (fun y hy => ?_) (fun y hy => ?_)
    (fun y hy => hy) fun h1 => absurd h1 hk
  · have h1 : y ∉ HashSet.keys ([] : PySet) := List.not_mem_nil
    rw [List.count_append, List.Nodup.count (h.nodup o k), if_pos hy, if_neg h1]
    omega
  · rw [List.count_append, List.count_eq_zero_of_not_mem hy]
    omega

/-- an object that is in the set of its parent needs no exemption -/
theorem Books.settled (h : Books E g own (x :: ex) dying W)
    (hx : ∀ c p, W.Open x c p → c.kind.Handle → x ∈ W.members c.parent c.kind) :
    Books E g own ex dying W :=
  { h with
    home := fun y c p hc hk hy => by
      by_cases h1 : y = x
      · rw [h1] at hc ⊢
        exact hx c p hc hk
      · apply h.home y c p hc hk
        intro h2
        rcases List.mem_cons.mp h2 with h3 | h3
        · exact h1 h3
        · exact hy h3 }

theorem Books.settle (h : Books E g own (x :: ex) dying W)
    (hx : ∀ c p, W.Open x c p → ¬ c.kind.Handle) : Books E g own ex dying W :=
  h.settled fun c p hc hk => absurd hk (hx c p hc)

theorem Books.settle_kind (h : Books E g own (x :: ex) dying W) (hk : ¬ (g.kind x).Handle) :
    Books E g own ex dying W :=
  h.settle fun c _ hc hh => hk (h.kinds x c hc.1 ▸ hh)

/-! ## deletion -/

/-- a deallocator that does nothing more leaves the object where it is -/
theorem Books.lay (h : Books E g own ex (x :: dying) W) (hk : (g.kind x).Handle) :
    Books E g own ex dying W :=
  { h with
    alive := fun y hy => h.alive y (by
      rcases hy with h1 | h1 | h1
      · exact Or.inl h1
      · exact Or.inr (Or.inl (List.mem_cons_of_mem x h1))
      · exact Or.inr (Or.inr h1))
    spent := fun y c hy => h.spent y c (List.mem_cons_of_mem x hy)
    once := (List.nodup_cons.mp h.once).2
    zombie := fun y c hc h0 hy => by
      by_cases hyx : y = x
      · rw [h.kinds y c hc, hyx]
        exact hk
      · apply h.zombie y c hc h0
        intro h1
        rcases List.mem_cons.mp h1 with h2 | h2
        · exact hyx h2
        · exact hy h2
    root := fun y c hc hs hy => by
      apply h.root y c hc hs
      intro h1
      rcases List.mem_cons.mp h1 with h2 | h2
      · rw [h.kinds y c hc, h2] at hs
        rcases hk with h3 | h3
        · rw [h3] at hs
          cases hs
        · rw [h3] at hs
          cases hs
      · exact hy h2 }

theorem Books.del (h : Books E g own ex (x :: dying) W) (hk : ¬ (g.kind x).Handle)
    (hreg : ∀ k, W.reg x k = []) : Books E g own ex dying (W.del x) := by
  obtain ⟨hheld, hown, hmem⟩ := h.dying_free List.mem_cons_self
  have hlive : W.heap x ≠ none := h.alive x (Or.inr (Or.inl List.mem_cons_self))
  have hold : ∀ {y c}, (W.del x).heap y = some c → y ≠ x ∧ W.heap y = some c := heap_del_some
  have hkeep : ∀ {y}, y ≠ x → (W.del x).heap y = W.heap y := by
    intro y hy
    rw [heap_del, if_neg hy]
  have hnot : ∀ {y}, y ≠ x → y ∉ dying → y ∉ x :: dying := by
    intro y h1 h2 h3
    rcases List.mem_cons.mp h3 with h4 | h4
    · exact h1 h4
    · exact h2 h4
  constructor
  case young =>
    intro y hy
    rw [heap_del, h.young y hy, ite_self]
  case kinds => exact fun y c hc => h.kinds y c (hold hc).2
  case nodup => exact h.nodup
  case entry =>
    intro o k y hy
    obtain ⟨c, hc, h1⟩ := h.entry o k y hy
    refine ⟨c, ?_, h1⟩
    rw [hkeep fun h2 => hmem o k (h2 ▸ hy)]
    exact hc
  case owner =>
    intro o k y hy
    obtain ⟨s, hs, h1⟩ := h.owner o k y hy
    refine ⟨s, ?_, h1⟩
    rw [hkeep fun h2 => reg_eq_nil_iff.mp (hreg k) y (h2 ▸ hy)]
    exact hs
  case refs => exact fun y c hc => h.refs y c (hold hc).2
  case even => exact fun hE y c hc => h.even hE y c (hold hc).2
  case alive =>
    intro y hy
    have hyx : y ≠ x := by
      rintro rfl
      rcases hy with h1 | h1 | h1
      · rw [List.count_eq_zero] at hown
        exact hown h1
      · exact (List.nodup_cons.mp h.once).1 h1
      · rw [held_del, hheld] at h1
        exact Nat.lt_irrefl 0 h1
    rw [hkeep hyx]
    apply h.alive
    rcases hy with h1 | h1 | h1
    · exact Or.inl h1
    · exact Or.inr (Or.inl (List.mem_cons_of_mem x h1))
    · exact Or.inr (Or.inr h1)
  case spent => exact fun y c hy hc => h.spent y c (List.mem_cons_of_mem x hy) (hold hc).2
  case once => exact (List.nodup_cons.mp h.once).2
  case zombie => exact fun y c hc h0 hy => h.zombie y c (hold hc).2 h0 (hnot (hold hc).1 hy)
  case home => exact fun y c p hc => h.home y c p ⟨(hold hc.1).2, hc.2⟩
  case shut => exact fun s d hd => h.shut s d (hold hd).2
  case root => exact fun y c hc hs hy => h.root y c (hold hc).2 hs (hnot (hold hc).1 hy)
  case dels =>
    intro y hy
    by_cases hyx : y = x
    · rw [hyx, heap_del, if_pos rfl]
      exact ⟨rfl, h.lt_fresh hlive⟩
    · rw [hkeep hyx]
      apply h.dels
      rcases List.mem_cons.mp hy with h1 | h1
      · exact absurd h1 hyx
      · exact h1
  case track =>
    intro y hy
    show ((W.del x).heap y ≠ none ∧ y ∉ x :: W.dels) ∨
      ((W.del x).heap y = none ∧ (x :: W.dels).count y = 1 ∧ ¬ (g.kind y).Handle)
    by_cases hyx : y = x
    · subst hyx
      refine Or.inr ⟨by rw [heap_del, if_pos rfl], ?_, hk⟩
      rcases h.track y hy with ⟨_, h2⟩ | ⟨h1, _⟩
      · rw [List.count_cons_self, List.count_eq_zero_of_not_mem h2]
      · exact absurd h1 hlive
    · rw [hkeep hyx, List.count_cons_of_ne (Ne.symm hyx)]
      rcases h.track y hy with ⟨h1, h2⟩ | h1
      · refine Or.inl ⟨h1, fun h3 => ?_⟩
        rcases List.mem_cons.mp h3 with h4 | h4
        · exact hyx h4
        · exact h2 h4
      · exact Or.inr h1
  case away => exact h.away

/-! ## new objects -/

def Ghost.grown (g : Ghost) (x : Ref) (k : Kind) : Ghost :=
  { g with kind := Function.update g.kind x k }

theorem Books.new (h : Books E g own ex dying W) (c : Obj) (hp : c.ptr ≠ none) :
    Books E (g.grown W.fresh c.kind) (W.fresh :: own) (W.fresh :: ex) dying (new c W).1 := by
  have hnone : W.heap W.fresh = none := h.young _ (Nat.le_refl _)
  have hself : (PyLibssh2.new c W).1.heap W.fresh = some { c with refcnt := 1 } :=
    Function.update_self ..
  have hother : ∀ y, y ≠ W.fresh → (PyLibssh2.new c W).1.heap y = W.heap y :=
    fun y hy => Function.update_of_ne hy ..
  have hkind : ∀ y, y ≠ W.fresh → (g.grown W.fresh c.kind).kind y = g.kind y :=
    fun y hy => Function.update_of_ne hy ..
  have hkeep : ∀ y, W.heap y ≠ none → y ≠ W.fresh := fun y hy h1 => hy (h1 ▸ hnone)
  have hback : ∀ y d, (PyLibssh2.new c W).1.heap y = some d →
      (y = W.fresh ∧ d = { c with refcnt := 1 }) ∨ (y ≠ W.fresh ∧ W.heap y = some d) := by
    intro y d hd
    by_cases hy : y = W.fresh
    · rw [hy, hself] at hd
      exact Or.inl ⟨hy, (Option.some.inj hd).symm⟩
    · rw [hother y hy] at hd
      exact Or.inr ⟨hy, hd⟩
  have hmem : ∀ o k, W.fresh ∉ W.members o k := by
    intro o k h1
    obtain ⟨d, hd, _⟩ := h.entry o k _ h1
    rw [hnone] at hd
    cases hd
  have hzero : W.held W.fresh = 0 ∧ W.fresh ∉ own ∧ W.fresh ∉ dying := by
    refine ⟨Nat.eq_zero_of_not_pos fun h1 => ?_, fun h1 => ?_, fun h1 => ?_⟩
    · exact h.alive _ (Or.inr (Or.inr h1)) hnone
    · exact h.alive _ (Or.inl h1) hnone
    · exact h.alive _ (Or.inr (Or.inl h1)) hnone
  have hclaims : ∀ y d, y ≠ W.fresh →
      (PyLibssh2.new c W).1.claims (W.fresh :: own) y d = W.claims own y d := by
    intro y d hy
    rw [World.claims, World.claims, List.count_cons_of_ne (Ne.symm hy)]
    rfl
  have hone : (PyLibssh2.new c W).1.claims (W.fresh :: own) W.fresh { c with refcnt := 1 } = 1 := by
    have h1 : W.fresh ∉ (PyLibssh2.new c W).1.members c.parent c.kind := hmem _ _
    have h2 : (PyLibssh2.new c W).1.held W.fresh = 0 := hzero.1
    rw [World.claims, if_neg h1, h2, List.count_cons_self, List.count_eq_zero_of_not_mem hzero.2.1]
  constructor
  case young =>
    intro y hy
    have hlt : W.fresh < y := hy
    rw [hother y hlt.ne']
    exact h.young y hlt.le
  case kinds =>
    intro y d hd
    rcases hback y d hd with ⟨rfl, rfl⟩ | ⟨hy, hd'⟩
    · exact (Function.update_self W.fresh c.kind g.kind).symm
    · rw [hkind y hy]
      exact h.kinds y d hd'
  case nodup => exact h.nodup
  case entry =>
    intro o k y hy
    obtain ⟨d, hd, h1⟩ := h.entry o k y hy
    refine ⟨d, ?_, h1⟩
    rw [hother y fun h2 => hmem o k (h2 ▸ hy)]
    exact hd
  case owner =>
    intro o k y hy
    obtain ⟨s, hs, h1⟩ := h.owner o k y hy
    refine ⟨s, ?_, h1⟩
    rw [hother o (hkeep o (hs ▸ Option.some_ne_none s))]
    exact hs
  case refs =>
    intro y d hd
    rcases hback y d hd with ⟨rfl, rfl⟩ | ⟨hy, hd'⟩
    · exact hone.le
    · rw [hclaims y d hy]
      exact h.refs y d hd'
  case even =>
    intro hE y d hd
    rcases hback y d hd with ⟨rfl, rfl⟩ | ⟨hy, hd'⟩
    · exact hone.ge
    · rw [hclaims y d hy]
      exact h.even hE y d hd'
  case alive =>
    intro y hy
    by_cases h1 : y = W.fresh
    · rw [h1, hself]
      exact Option.some_ne_none _
    · rw [hother y h1]
      apply h.alive
      rcases hy with h2 | h2
      · exact Or.inl ((List.mem_cons.mp h2).resolve_left h1)
      · exact Or.inr h2
  case spent =>
    intro y d hy hd
    rcases hback y d hd with ⟨rfl, _⟩ | ⟨_, hd'⟩
    · exact absurd hy hzero.2.2
    · exact h.spent y d hy hd'
  case once => exact h.once
  case zombie =>
    intro y d hd h0 hy
    rcases hback y d hd with ⟨_, rfl⟩ | ⟨_, hd'⟩
    · cases h0
    · exact h.zombie y d hd' h0 hy
  case home =>
    intro y d q hd hk hy
    rcases hback y d hd.1 with ⟨rfl, _⟩ | ⟨_, hd'⟩
    · exact absurd List.mem_cons_self hy
    · exact h.home y d q ⟨hd', hd.2⟩ hk fun h1 => hy (List.mem_cons_of_mem _ h1)
  case shut =>
    intro s d hd hk hn
    rcases hback s d hd with ⟨_, rfl⟩ | ⟨_, hd'⟩
    · exact absurd hn hp
    · exact h.shut s d hd' hk hn
  case root =>
    intro y d hd hk hy
    rcases hback y d hd with ⟨_, rfl⟩ | ⟨_, hd'⟩
    · exact hp
    · exact h.root y d hd' hk hy
  case dels =>
    intro y hy
    obtain ⟨h1, h2⟩ := h.dels y hy
    rw [hother y h2.ne]
    exact ⟨h1, Nat.lt_succ_of_lt h2⟩
  case track =>
    intro y hy
    have hne : y ≠ W.fresh := (h.followed_lt hy).ne
    rw [hother y hne, hkind y hne]
    exact h.track y hy
  case away => exact fun y o k hy => ⟨Nat.lt_succ_of_lt (h.away y o k hy).1, (h.away y o k hy).2⟩

/-- `x` is entered in a set under the hash `v`; the set has a reference to it now -/
def enter (o : Ref) (k : Kind) (x : Ref) (v : BitVec 64) (W : World) : World :=
  (W.setReg o k (W.reg o k ++ [(x, v)])).modify x fun e => { e with refcnt := e.refcnt + 1 }

theorem mem_enter {o' : Ref} {k' : Kind} {v : BitVec 64} :
    y ∈ (enter o k x v W).members o' k' ↔ (y = x ∧ o' = o ∧ k' = k) ∨ y ∈ W.members o' k' := by
  rw [enter, members_modify, members_setReg, HashSet.keys_append_single]
  by_cases h1 : o' = o ∧ k' = k
  · rw [if_pos h1, List.mem_append, List.mem_singleton, h1.1, h1.2]
    constructor
    · intro h2
      rcases h2 with h3 | h3
      · exact Or.inr h3
      · exact Or.inl ⟨h3, rfl, rfl⟩
    · intro h2
      rcases h2 with h3 | h3
      · exact Or.inr h3.1
      · exact Or.inl h3
  · rw [if_neg h1]
    exact ⟨Or.inr, fun h2 => h2.resolve_left fun h3 => h1 h3.2⟩

theorem enter_back {v : BitVec 64} (hy : (enter o k x v W).heap y = some d) :
    ∃ e, W.heap y = some e ∧ Worn e d := by
  rcases modify_back hy with ⟨rfl, e, he, rfl⟩ | ⟨_, h1⟩
  · exact ⟨e, he, rfl, rfl, rfl, rfl, rfl, Or.inl rfl⟩
  · exact ⟨d, h1, Worn.refl d⟩

theorem Books.add (h : Books E g own ex dying W) (hx : W.heap x = some c) (hout : x ∉ W.members c.parent c.kind)
    (hd : x ∉ dying) (hin : ¬ g.out x c.parent c.kind) {v : BitVec 64} (hs : W.heap c.parent = some d) (hk : c.kind.parent = some d.kind)
    (hop : d.kind = .sftp → d.ptr ≠ none) :
    Books E g own ex dying (enter c.parent c.kind x v W) := by
  have hback : ∀ y e, (enter c.parent c.kind x v W).heap y = some e →
      (y = x ∧ e = { c with refcnt := c.refcnt + 1 }) ∨ (y ≠ x ∧ W.heap y = some e) := by
    intro y e he
    rcases modify_back he with ⟨rfl, e', he', rfl⟩ | h1
    · have hec : e' = c := Option.some.inj (he'.symm.trans hx)
      rw [hec]
      exact Or.inl ⟨rfl, rfl⟩
    · exact Or.inr h1
  have hfwd : ∀ y e, W.heap y = some e → ∃ e', (enter c.parent c.kind x v W).heap y =
      some e' ∧ Worn e e' := fun y e he => modify_fwd (fun _ => ⟨rfl, rfl, rfl, rfl, rfl, Or.inl rfl⟩) he
  have hwas : ∀ y e, (enter c.parent c.kind x v W).heap y = some e → ∃ e', W.heap y = some e' ∧
      e.kind = e'.kind ∧ e.ptr = e'.ptr ∧ e.parent = e'.parent := by
    intro y e he
    rcases hback y e he with ⟨rfl, rfl⟩ | ⟨_, h1⟩
    · exact ⟨c, hx, rfl, rfl, rfl⟩
    · exact ⟨e, h1, rfl, rfl, rfl⟩
  have hnone : ∀ y, (enter c.parent c.kind x v W).heap y = none ↔ W.heap y = none := by
    intro y
    rw [enter, heap_modify]
    split
    · rename_i h1
      rw [h1, heap_setReg, hx]
      simp
    · exact Iff.rfl
  have hclaims : ∀ y e, y ≠ x → (enter c.parent c.kind x v W).claims own y e = W.claims own y e := by
    intro y e hy
    have h1 : y ∈ (enter c.parent c.kind x v W).members e.parent e.kind ↔ y ∈ W.members e.parent e.kind :=
      mem_enter.trans (or_iff_right fun h2 => hy h2.1)
    rw [World.claims, World.claims, if_congr h1 rfl rfl]
    rfl
  have hself : (enter c.parent c.kind x v W).claims own x { c with refcnt := c.refcnt + 1 } =
      W.claims own x c + 1 := by
    have h1 : x ∈ (enter c.parent c.kind x v W).members c.parent c.kind :=
      mem_enter.mpr (Or.inl ⟨rfl, rfl, rfl⟩)
    rw [World.claims, World.claims, if_pos h1, if_neg hout]
    rfl
  constructor
  case young => exact fun y hy => (hnone y).mpr (h.young y hy)
  case kinds =>
    intro y e he
    obtain ⟨e', he', h1, _⟩ := hwas y e he
    rw [h1]
    exact h.kinds y e' he'
  case nodup =>
    intro o k
    rw [enter, members_modify, members_setReg]
    split
    · rw [HashSet.keys_append_single]
      refine List.nodup_append.mpr ⟨h.nodup _ _, List.pairwise_singleton _ x, fun y hy z hz => ?_⟩
      rw [List.mem_singleton.mp hz]
      exact fun h1 => hout (h1 ▸ hy)
    · exact h.nodup o k
  case entry =>
    intro o k y hy
    rcases mem_enter.mp hy with ⟨rfl, rfl, rfl⟩ | h1
    · obtain ⟨e, he, hw⟩ := hfwd y c hx
      exact ⟨e, he, hw.kind, hw.parent⟩
    · obtain ⟨e, he, h2, h3⟩ := h.entry o k y h1
      obtain ⟨e', he', hw⟩ := hfwd y e he
      exact ⟨e', he', hw.kind.trans h2, hw.parent.trans h3⟩
  case owner =>
    intro o k y hy
    rcases mem_enter.mp hy with ⟨rfl, rfl, rfl⟩ | h1
    · obtain ⟨e, he, hw⟩ := hfwd _ d hs
      exact ⟨e, he, hw.kind.symm ▸ hk⟩
    · obtain ⟨s, hs, h2⟩ := h.owner o k y h1
      obtain ⟨e, he, hw⟩ := hfwd o s hs
      exact ⟨e, he, hw.kind.symm ▸ h2⟩
  case refs =>
    intro y e he
    rcases hback y e he with ⟨rfl, rfl⟩ | ⟨hy, h1⟩
    · rw [hself]
      exact Nat.succ_le_succ (h.refs y c hx)
    · rw [hclaims y e hy]
      exact h.refs y e h1
  case even =>
    intro hE y e he
    rcases hback y e he with ⟨rfl, rfl⟩ | ⟨hy, h1⟩
    · rw [hself]
      exact Nat.succ_le_succ (h.even hE y c hx)
    · rw [hclaims y e hy]
      exact h.even hE y e h1
  case alive =>
    intro y hy
    rw [Ne, hnone y]
    exact h.alive y hy
  case spent =>
    intro y e hy he
    rcases hback y e he with ⟨rfl, _⟩ | ⟨_, h1⟩
    · exact absurd hy hd
    · exact h.spent y e hy h1
  case once => exact h.once
  case zombie =>
    intro y e he h0 hy
    rcases hback y e he with ⟨_, rfl⟩ | ⟨_, h1⟩
    · cases h0
    · exact h.zombie y e h1 h0 hy
  case home =>
    intro y e q he hh hy
    obtain ⟨e', he', h1, h2, h3⟩ := hwas y e he.1
    rw [h1] at hh
    rw [h1, h3]
    exact mem_enter.mpr (Or.inr (h.home y e' q ⟨he', h2 ▸ he.2⟩ hh hy))
  case shut =>
    intro s e he hh hn j
    obtain ⟨e', he', h1, h2, _⟩ := hwas s e he
    rw [h1] at hh
    rw [h2] at hn
    apply reg_eq_nil_iff.mpr
    intro y hy
    rcases mem_enter.mp hy with ⟨_, rfl, _⟩ | h3
    · have hed : e' = d := Option.some.inj (he'.symm.trans hs)
      rw [hed] at hh hn
      exact hop hh hn
    · exact reg_eq_nil_iff.mp (h.shut s e' he' hh hn j) y h3
  case root =>
    intro y e he hh hy
    obtain ⟨e', he', h1, h2, _⟩ := hwas y e he
    rw [h1] at hh
    rw [h2]
    exact h.root y e' he' hh hy
  case dels => exact fun y hy => ⟨(hnone y).mpr (h.dels y hy).1, (h.dels y hy).2⟩
  case track =>
    intro y hy
    rw [Ne, hnone y]
    exact h.track y hy
  case away =>
    intro y o k hy
    refine ⟨(h.away y o k hy).1, fun hm => ?_⟩
    rcases mem_enter.mp hm with ⟨rfl, rfl, rfl⟩ | h1
    · exact hin hy
    · exact (h.away y o k hy).2 h1

/-! ## Python code and C code -/

theorem Books.exchange (h : Books E g own ex dying W) (f : Ref → Nat)
    (hf : ∀ y, f y + own'.count y = W.held y + own.count y) :
    Books E g own' ex dying { W with held := f } := by
  have hclaims : ∀ y c, ({ W with held := f } : World).claims own' y c = W.claims own y c := by
    intro y c
    show f y + own'.count y + (if y ∈ W.members c.parent c.kind then 1 else 0) = W.claims own y c
    rw [hf y]
    rfl
  exact
    { h with
      refs := fun y c hc => by
        rw [hclaims]
        exact h.refs y c hc
      even := fun hE y c hc => by
        rw [hclaims]
        exact h.even hE y c hc
      alive := fun y hy => by
        have h1 := hf y
        have hpos : y ∈ own' ∨ 0 < f y → 0 < W.held y + own.count y := by
          intro h2
          rcases h2 with h3 | h3
          · have h4 := List.count_pos_iff.mpr h3
            omega
          · omega
        have hleft : 0 < W.held y + own.count y → W.heap y ≠ none := by
          intro h2
          by_cases h3 : 0 < W.held y
          · exact h.alive y (Or.inr (Or.inr h3))
          · exact h.alive y (Or.inl (List.count_pos_iff.mp (by omega)))
        rcases hy with h2 | h2 | h2
        · exact hleft (hpos (Or.inl h2))
        · exact h.alive y (Or.inr (Or.inl h2))
        · exact hleft (hpos (Or.inr h2)) }

theorem Books.handOver (h : Books E g (x :: own) ex dying W) (hx : W.held x = 0) :
    Books E g own ex dying { W with held := Function.update W.held x 1 } := by
  apply h.exchange _
  intro y
  by_cases hy : y = x
  · rw [hy, Function.update_self, hx, List.count_cons_self]
    omega
  · rw [Function.update_of_ne hy, List.count_cons_of_ne (Ne.symm hy)]

theorem Books.giveUp (h : Books E g own ex dying W) (hx : 0 < W.held x) :
    Books E g (x :: own) ex dying { W with held := Function.update W.held x (W.held x - 1) } := by
  apply h.exchange _
  intro y
  by_cases hy : y = x
  · rw [hy, Function.update_self, List.count_cons_self]
    omega
  · rw [Function.update_of_ne hy, List.count_cons_of_ne (Ne.symm hy)]

theorem Books.leak (h : Books E g own ex [] W) (x : Ref) {n : Nat} (hn : E → n = 0) :
    Books E g own ex [] (W.modify x fun c => { c with refcnt := c.refcnt + n }) := by
  have hback : ∀ y d, (W.modify x fun c => { c with refcnt := c.refcnt + n }).heap y = some d →
      ∃ e m, W.heap y = some e ∧ d = { e with refcnt := e.refcnt + m } ∧ m ≤ n := by
    intro y d hd
    rcases modify_back hd with ⟨rfl, e, he, rfl⟩ | ⟨_, hd'⟩
    · exact ⟨e, n, he, rfl, Nat.le_refl n⟩
    · exact ⟨d, 0, hd', rfl, Nat.zero_le n⟩
  refine h.worn (fun y e he => modify_fwd (fun _ => ⟨rfl, rfl, rfl, rfl, rfl, Or.inl rfl⟩) he)
    (fun y d hd => ?_) rfl rfl rfl (fun y d hd => ?_) (fun hE y d hd => ?_) h.alive
    (fun y d hy => absurd hy List.not_mem_nil) h.once (fun y d hd h0 hy => ?_)
    (fun s d hd hk hp => ?_) (fun y d hd hk hy => ?_)
  · obtain ⟨e, m, he, rfl, _⟩ := hback y d hd
    exact ⟨e, he, rfl, rfl, rfl, rfl, rfl, Or.inl rfl⟩
  · obtain ⟨e, m, he, rfl, _⟩ := hback y d hd
    exact (h.refs y e he).trans (Nat.le_add_right _ m)
  · obtain ⟨e, m, he, rfl, hm⟩ := hback y d hd
    have hm0 : m = 0 := Nat.le_zero.mp (hn hE ▸ hm)
    subst hm0
    exact h.even hE y e he
  · obtain ⟨e, m, he, rfl, _⟩ := hback y d hd
    have h1 : e.refcnt + m = 0 := h0
    exact h.zombie y e he (by omega) hy
  · obtain ⟨e, m, he, rfl, _⟩ := hback s d hd
    exact h.shut s e he hk hp
  · obtain ⟨e, m, he, rfl, _⟩ := hback y d hd
    exact h.root y e he hk hy

/-! ## the empty world -/

def blank : Ghost := ⟨fun _ => .session, fun _ => False, fun _ _ _ => False⟩

theorem books_empty : Books E blank [] [] [] World.empty where
  young _ _ := rfl
  kinds _ _ hc := (nomatch hc)
  nodup _ _ := List.nodup_nil
  entry _ _ _ hx := absurd hx List.not_mem_nil
  owner _ _ _ hx := absurd hx List.not_mem_nil
  refs _ _ hc := (nomatch hc)
  even _ _ _ hc := (nomatch hc)
  alive x hx := by
    rcases hx with h1 | h1 | h1
    · exact absurd h1 List.not_mem_nil
    · exact absurd h1 List.not_mem_nil
    · exact absurd h1 (Nat.lt_irrefl 0)
  spent _ _ hx := absurd hx List.not_mem_nil
  once := List.nodup_nil
  zombie _ _ hc := (nomatch hc)
  home _ _ _ hc := (nomatch hc.1)
  shut _ _ hs := (nomatch hs)
  root _ _ hc := (nomatch hc)
  dels _ hx := absurd hx List.not_mem_nil
  track _ hx := hx.elim
  away _ _ _ hx := hx.elim

theorem Books.follow (h : Books E g own ex dying W) (hx : W.heap x = some c) :
    Books E { g with followed := (· = x) } own ex dying W :=
  { h with
    track := fun y hy => by
      have hyx : y = x := hy
      refine Or.inl ⟨?_, fun h1 => ?_⟩
      · rw [hyx, hx]
        exact Option.some_ne_none c
      · have h2 := (h.dels y h1).1
        rw [hyx, hx] at h2
        cases h2 }

theorem Books.exclude (h : Books E g own ex dying W) (hx : x < W.fresh) :
    Books E { g with out := fun y o k => y = x ∧ x ∉ W.members o k } own ex dying W :=
  { h with
    away := fun y o k hy => by
      rw [hy.1]
      exact ⟨hx, hy.2⟩ }

end PyLibssh2

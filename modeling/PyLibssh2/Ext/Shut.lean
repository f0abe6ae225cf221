import PyLibssh2.Ext.Leaf

/-!
# Closing an sftp

`Sftp_shutdown` pops its directories and its files, closes each and gives up the reference the set
had, then shuts the sftp down.  `loop_good` is the rule for such loops: the rounds touch disjoint
parts of the heap (the footprint `T x` of a member `x`), so each member is as it was at the start
when its turn comes, and as its round left it at the end.

* `good_sftpShutdown`, `good_sftpDealloc`, `good_decrefSftp`: the invariant is kept, and nothing but
  the sftp and what is below it changes.
-/

set_option linter.unusedSectionVars false
set_option linter.unusedVariables false

namespace PyLibssh2

open World Lifetime

variable {b n : Prop} {own ex : List Ref} {W V : World} {x y o f : Ref} {c d : Obj} {p q : Ptr}
  {k : Kind} {pick : Pick}

/-! ## loops over a registry -/

/-- the footprints of the members of a registry -/
def Touched (W : World) (o : Ref) (k : Kind) (T : Ref → Ref → Prop) (y : Ref) : Prop :=
  ∃ x ∈ W.members o k, T x y

/-- the registries that a loop over a registry may change -/
def Drained (W : World) (o : Ref) (k : Kind) (R : Ref → Ref → Kind → Prop) (y : Ref) (j : Kind) :
    Prop := (y = o ∧ j = k) ∨ ∃ x ∈ W.members o k, R x y j

/-- **A loop over a registry with disjoint rounds.**  Every round keeps the invariant and stays inside
the footprint of the member it pops; `D x` is what the round of `x` makes of `x`. -/
theorem loop_good (pick : Pick) (body : Ref → World → World) {T : Ref → Ref → Prop}
    {R : Ref → Ref → Kind → Prop} {D : Ref → Option Obj → Prop}
    (h : Good b n own ex W)
    (hself : ∀ x, T x x)
    (hT : ∀ x x' y, x ∈ W.members o k → x' ∈ W.members o k → T x y → T x' y → x = x')
    (hR : ∀ x ∈ W.members o k, ¬ R x o k)
    (hbody : ∀ V x, Good b n own ex V → x ∈ W.members o k → x ∈ V.members o k →
      Only (Touched W o k T) (Drained W o k R) W V →
      (∀ y, T x y → V.heap y = W.heap y) →
      Good b n own ex (body x (popped o k x V)) ∧
      Only (T x) (R x) (popped o k x V) (body x (popped o k x V)) ∧
      D x ((body x (popped o k x V)).heap x)) :
    Good b n own ex (drainAll body o k pick W) ∧
    Only (Touched W o k T) (Drained W o k R) W (drainAll body o k pick W) ∧
    (drainAll body o k pick W).reg o k = [] ∧
    ∀ x ∈ W.members o k, D x ((drainAll body o k pick W).heap x) := by
  let P : World → Prop := fun V =>
    Good b n own ex V ∧ Only (Touched W o k T) (Drained W o k R) W V ∧
    (∀ x ∈ V.members o k, ∀ y, T x y → V.heap y = W.heap y) ∧
    ∀ x ∈ W.members o k, x ∉ V.members o k → D x (V.heap x)
  have hP : P W := ⟨h, Only.refl, fun _ _ _ _ => rfl, fun x hx hx' => absurd hx hx'⟩
  have hround : ∀ V x, P V → x ∈ V.members o k →
      P (body x (popped o k x V)) ∧
      (body x (popped o k x V)).reg o k = (popped o k x V).reg o k := by
    rintro V x ⟨hg, honly, hfoot, hdone⟩ hx
    have hxW : x ∈ W.members o k := honly.members o k x hx
    obtain ⟨hg', honly', hD⟩ := hbody V x hg hxW hx honly (hfoot x hx)
    have hreg : (body x (popped o k x V)).reg o k = (popped o k x V).reg o k :=
      honly'.reg o k (hR x hxW)
    have hmem : ∀ z, z ∈ (body x (popped o k x V)).members o k ↔ z ∈ V.members o k ∧ z ≠ x := by
      intro z
      have h1 : (body x (popped o k x V)).members o k = (popped o k x V).members o k := by
        rw [World.members, hreg]
        rfl
      rw [h1, mem_popped]
      simp
    -- the footprints of the other members are not touched in this round
    have hother : ∀ z ∈ W.members o k, z ≠ x → ∀ y, T z y →
        (body x (popped o k x V)).heap y = V.heap y := by
      intro z hz hne y hy
      exact honly'.heap y fun h1 => hne (hT z x y hz hxW hy h1)
    refine ⟨⟨hg', ?_, ?_, ?_⟩, hreg⟩
    · have h1 : Only (Touched W o k T) (Drained W o k R) V (popped o k x V) :=
        only_popped (Or.inl ⟨rfl, rfl⟩)
      have h2 := honly'.mono (U := Touched W o k T) (S := Drained W o k R)
        (fun y hy => ⟨x, hxW, hy⟩) fun y j hy => Or.inr ⟨x, hxW, hy⟩
      exact (honly.trans h1).trans h2
    · intro z hz y hy
      obtain ⟨hzV, hne⟩ := (hmem z).mp hz
      rw [hother z (honly.members o k z hzV) hne y hy]
      exact hfoot z hzV y hy
    · intro z hz hz'
      by_cases hne : z = x
      · rw [hne]
        exact hD
      · rw [hother z hz hne z (hself z)]
        exact hdone z hz fun h1 => hz' ((hmem z).mpr ⟨h1, hne⟩)
  obtain ⟨⟨h1, h2, _, h4⟩, h5⟩ :=
    drainAll_rule pick P (fun V hV => hV.1.inv.nodup o k) hround hP
  refine ⟨h1, h2, h5, fun x hx => h4 x hx ?_⟩
  exact (reg_eq_nil_iff.mp h5) x

/-! ## the loops over files and directories -/

def Below (W : World) (o y : Ref) : Prop := ∃ c, W.heap y = some c ∧ c.kind ≠ .session ∧ c.parent = o

/-- the members of the registries of `f` are open -/
def Tidy (f : Ref) (W : World) : Prop :=
  ∀ k x c, x ∈ W.members f k → W.heap x = some c → c.ptr ≠ none

theorem Inv.below (h : Inv own ex W) (hk : k ≠ .session) (hx : x ∈ W.members o k) : Below W o x := by
  obtain ⟨c, hc, h1, h2⟩ := h.entry o k x hx
  exact ⟨c, hc, h1 ▸ hk, h2⟩

theorem Inv.popped_out (h : Inv own ex W) (hx : W.heap x = some c) (hm : x ∈ W.members o k) :
    x ∉ (popped o k x W).members c.parent c.kind := by
  obtain ⟨hk, ho⟩ := h.member_kind hx hm
  exact fun h1 => (mem_popped.mp h1).2 ⟨ho, hk, rfl⟩

theorem Good.handle_round {dealloc : Ref → World → World} (h : Good b n own ex W)
    (hd : Deallocs b n dealloc k) (hk : k.Leaf) (hm : x ∈ W.members f k)
    (htidy : n → ∀ c, W.heap x = some c → c.ptr ≠ none) :
    Good b n own ex (decrefBy dealloc x (sftpdirClose x (popped f k x W))) ∧
    Only (· = x) (fun _ _ => False) (popped f k x W)
      (decrefBy dealloc x (sftpdirClose x (popped f k x W))) ∧
    Shut x (decrefBy dealloc x (sftpdirClose x (popped f k x W))) := by
  obtain ⟨c, hx, hck, hcf⟩ := h.inv.entry f k x hm
  have hx' : (popped f k x W).heap x = some c := hx
  have hcloses := closes_giveBack (W := popped f k x W) .sftpCloseHandle hx'
  have hheap : (sftpdirClose x (popped f k x W)).heap x = some { c with ptr := none } := by
    rw [show sftpdirClose x _ = giveBack .sftpCloseHandle x _ from rfl, hcloses.heap, hx']
    rfl
  have hshut : Shut x (sftpdirClose x (popped f k x W)) := hcloses.shut hx' (hck ▸ hk.1)
  have h1 : Good b n (x :: own) (x :: ex) (sftpdirClose x (popped f k x W)) :=
    good_giveBack (h.pop hm) .sftpCloseHandle hx' (hck ▸ hk) (fun hn => htidy hn c hx)
      fun _ _ => h.inv.popped_out hx hm
  refine ⟨hd.decref (h1.shut hshut) hheap hck, ?_, hd.decref_shut hheap hck hshut⟩
  exact hcloses.only.trans (hd.decref_only hheap hck)

theorem Good.handle_loop {dealloc : Ref → World → World} (pick : Pick) (h : Good b n own ex W)
    (hd : Deallocs b n dealloc k) (hk : k.Leaf)
    (htidy : n → ∀ x c, x ∈ W.members f k → W.heap x = some c → c.ptr ≠ none) :
    Good b n own ex (drainAll (fun x W => decrefBy dealloc x (sftpdirClose x W)) f k pick W) ∧
    Only (· ∈ W.members f k) (fun y j => y = f ∧ j = k) W
      (drainAll (fun x W => decrefBy dealloc x (sftpdirClose x W)) f k pick W) ∧
    (drainAll (fun x W => decrefBy dealloc x (sftpdirClose x W)) f k pick W).reg f k = [] := by
  obtain ⟨h1, h2, h3, _⟩ := loop_good pick (fun x W => decrefBy dealloc x (sftpdirClose x W))
    (W := W) (o := f) (k := k)
    (T := fun x y => y = x) (R := fun _ _ _ => False) (D := fun _ _ => True) h (fun _ => rfl)
    (fun x x' y _ _ h1 h2 => h1.symm.trans h2) (fun _ _ h1 => h1)
    (fun V x hV hxW hx honly hfoot => by
      obtain ⟨h1, h2, _⟩ := hV.handle_round hd hk hx fun hn c hc =>
        htidy hn x c hxW (hfoot x rfl ▸ hc)
      exact ⟨h1, h2, trivial⟩)
  refine ⟨h1, h2.mono ?_ ?_, h3⟩
  · rintro y ⟨x, hx, rfl⟩
    exact hx
  · rintro y j (h4 | ⟨x, _, h4⟩)
    · exact h4
    · exact absurd h4 id

/-! ## `Sftp_shutdown` -/

theorem sftpShutdown_closed (hx : W.heap f = some c) (hp : c.ptr = none) :
    sftpShutdown pick f W = W := by
  rw [sftpShutdown, ptr_of_heap hx, hp]

theorem sftpShutdown_open (hx : W.Open f c p) : sftpShutdown pick f W =
    released .sftpShutdown f p (drainAll (fun x W => decrefFile x (sftpdirClose x W)) f .file pick
      (drainAll (fun x W => decrefDir x (sftpdirClose x W)) f .dir pick W)) := by
  rw [sftpShutdown, ptr_of_heap hx.1, hx.2]
  rfl

/-- what shutting down the sftp `f` leaves behind -/
structure ShutsDown (b n : Prop) (own ex : List Ref) (f : Ref) (c : Obj) (W W' : World) : Prop where
  good : Good b n own ex W'
  only : Only (fun y => y = f ∨ Below W f y) (fun y _ => y = f) W W'
  heap : W'.heap f = some { c with ptr := none }

theorem good_sftpShutdown (pick : Pick) (h : Good b n own ex W) (hx : W.heap f = some c)
    (hk : c.kind = .sftp) (hex : ∀ y ∈ ex, y = f) (htidy : n → Tidy f W)
    (hout : b → c.ptr ≠ none → f ∉ W.members c.parent .sftp) :
    ShutsDown b n own ex f c W (sftpShutdown pick f W) := by
  cases hp : c.ptr with
  | none =>
    rw [sftpShutdown_closed hx hp]
    exact ⟨h, Only.refl, by rw [hx, ← hp]⟩
  | some p =>
    rw [sftpShutdown_open ⟨hx, hp⟩]
    -- the directories
    obtain ⟨h1, ho1, hr1⟩ := h.handle_loop pick (f := f) deallocs_dir
      ⟨by decide, by decide⟩ fun hn x d hm hd => htidy hn .dir x d hm hd
    generalize hW1 : drainAll (fun x W => decrefBy sftpdirDealloc x (sftpdirClose x W)) f .dir pick W
      = W1 at h1 ho1 hr1
    have hW1' : drainAll (fun x W => decrefDir x (sftpdirClose x W)) f .dir pick W = W1 := hW1
    rw [hW1']
    -- the files, which the first loop did not touch
    have hfile : ∀ x d, x ∈ W1.members f .file → W1.heap x = some d →
        x ∈ W.members f .file ∧ W.heap x = some d := by
      intro x d hm hd
      have hmW := ho1.members f .file x hm
      obtain ⟨e, he, hek, _⟩ := h.inv.entry f .file x hmW
      refine ⟨hmW, ?_⟩
      rw [← hd, ho1.heap x fun hdir => ?_]
      have := (h.inv.member_kind he hdir).1
      rw [hek] at this
      cases this
    obtain ⟨h2, ho2, hr2⟩ := h1.handle_loop pick (f := f) deallocs_file
      ⟨by decide, by decide⟩ fun hn x d hm hd =>
        htidy hn .file x d (hfile x d hm hd).1 (hfile x d hm hd).2
    generalize hW2 : drainAll (fun x W => decrefBy sftpfileDealloc x (sftpdirClose x W)) f .file pick W1
      = W2 at h2 ho2 hr2
    have hW2' : drainAll (fun x W => decrefFile x (sftpdirClose x W)) f .file pick W1 = W2 := hW2
    rw [hW2']
    have hno_self : ∀ k, k ≠ .sftp → f ∉ W.members f k := by
      intro k hk' hm
      exact hk' ((h.inv.member_kind hx hm).1.symm.trans hk)
    have hf1 : W1.heap f = some c := by rw [ho1.heap f (hno_self _ (by decide)), hx]
    have hf2 : W2.heap f = some c := by
      rw [ho2.heap f fun hm => hno_self _ (by decide) (ho1.members f .file f hm), hf1]
    have honly : Only (fun y => y = f ∨ Below W f y) (fun y _ => y = f) W W2 := by
      apply (ho1.mono (fun y hy => Or.inr (h.inv.below (by decide) hy)) fun y j hy => hy.1).trans
      exact ho2.mono (fun y hy => Or.inr (h.inv.below (by decide) (ho1.members f .file y hy)))
        fun y j hy => hy.1
    -- both registries are empty now, so nothing open is left below
    have hreg : ∀ k, k = .file ∨ k = .dir → W2.reg f k = [] := by
      rintro k (rfl | rfl)
      · exact hr2
      · apply reg_eq_nil_iff.mpr
        intro y hy
        exact reg_eq_nil_iff.mp hr1 y (ho2.members f .dir y hy)
    have hregAll : ∀ k, W2.reg f k = [] := by
      intro k
      apply reg_eq_nil_iff.mpr
      intro y hy
      obtain ⟨s, hs, h3⟩ := h2.inv.owner f k y hy
      rw [hf2] at hs
      cases hs
      have hfd : k = .file ∨ k = .dir := by
        rw [hk] at h3
        cases k <;> simp_all [Kind.parent]
      exact reg_eq_nil_iff.mp (hreg k hfd) y hy
    have hno : ∀ y d q, W2.Open y d q → d.kind ≠ .session → d.parent ≠ f := by
      intro y d q hy hdk hyf
      obtain ⟨s, r, hs, h3, _⟩ := h2.inv.par y d q hy hdk
      rw [hyf] at hs
      have hsc : s = c := Option.some.inj (hs.1.symm.trans hf2)
      have hfd : d.kind = .file ∨ d.kind = .dir := by
        rw [hsc, hk] at h3
        cases hd : d.kind <;> rw [hd] at h3 <;> simp_all [Kind.parent]
      have hyx : y ∉ ex := by
        intro hye
        rw [hex y hye] at hy
        have hdc : d = c := Option.some.inj (hy.1.symm.trans hf2)
        rw [hdc, hk] at hfd
        rcases hfd with h4 | h4 <;> cases h4
      have hm := h2.inv.home y d q hy (h2.inv.leaf y d hy.1 hfd).2
        (by rcases hfd with h4 | h4 <;> rw [h4] <;> decide) hyx
      rw [hyf] at hm
      exact reg_eq_nil_iff.mp (hregAll d.kind) y hm
    have h3 : Good b n own ex (released .sftpShutdown f p W2) :=
      h2.release .sftpShutdown ⟨hf2, hp⟩ hno (fun _ => hregAll)
        (fun h4 => by rw [hk] at h4; cases h4) fun hb hm => by
          rw [hk] at hm
          exact hout hb (by rw [hp]; exact Option.some_ne_none p) (honly.members _ _ f hm)
    refine ⟨h3, honly.trans (only_released _ p (Or.inl rfl)), ?_⟩
    rw [heap_released_self, hf2]
    rfl

theorem ShutsDown.shut {W' : World} (h : ShutsDown b n own ex f c W W') (hk : c.kind = .sftp) :
    Shut f W' := by
  intro d hd
  rw [h.heap] at hd
  cases hd
  exact ⟨rfl, by show c.kind ≠ _; rw [hk]; decide⟩

/-! ## `PYLIBSSH2_Sftp_dealloc` -/

theorem sftpDealloc_closed (h : Inv own ex W) (hx : W.heap f = some c) (hk : c.kind = .sftp)
    (hp : c.ptr = none) : sftpDealloc pick f W = W.del f := by
  have hreg := h.shut f c hx (Or.inl ⟨hk, hp⟩)
  simp only [sftpDealloc, ptr_of_heap hx, hp]
  rw [decrefSet_nil (hreg .dir), decrefSet_nil (hreg .file)]

theorem sftpDealloc_open (h : ShutsDown b n own ex f c W (sftpShutdown pick f W)) (hx : W.Open f c p)
    (hk : c.kind = .sftp) : sftpDealloc pick f W = (sftpShutdown pick f W).del f := by
  have hreg := h.good.inv.shut f _ h.heap (Or.inl ⟨hk, rfl⟩)
  simp only [sftpDealloc, ptr_of_heap hx.1, hx.2]
  rw [clear_of_closed h.heap rfl, decrefSet_nil (hreg .dir), decrefSet_nil (hreg .file)]

theorem good_sftpDealloc (pick : Pick) (h : Good b n own ex W) (hx : W.heap f = some c)
    (hk : c.kind = .sftp) (hex : ∀ y ∈ ex, y = f) (htidy : n → Tidy f W) (h0 : c.refcnt = 0) :
    Good b n own ex (sftpDealloc pick f W) ∧
    Only (fun y => y = f ∨ Below W f y) (fun y _ => y = f) W (sftpDealloc pick f W) ∧
    Shut f (sftpDealloc pick f W) := by
  have hout : f ∉ W.members c.parent .sftp := h.inv.not_member_of_refcnt hx h0 _ _
  cases hp : c.ptr with
  | none =>
    rw [sftpDealloc_closed h.inv hx hk hp]
    exact ⟨h.del hx h0 hp (h.inv.shut f c hx (Or.inl ⟨hk, hp⟩)), only_del (Or.inl rfl), shut_del⟩
  | some p =>
    have h1 := good_sftpShutdown pick h hx hk hex htidy fun _ _ => hout
    rw [sftpDealloc_open h1 ⟨hx, hp⟩ hk]
    refine ⟨?_, h1.only.trans (only_del (Or.inl rfl)), shut_del⟩
    exact h1.good.del h1.heap h0 rfl (h1.good.inv.shut f _ h1.heap (Or.inl ⟨hk, rfl⟩))

theorem below_decd : Below (decd x W) o y ↔ Below W o y := by
  constructor
  · rintro ⟨c, hc, h1⟩
    obtain ⟨e, he, h2⟩ := (sameBut_decd x W).back y c hc
    rw [h2] at h1
    exact ⟨e, he, h1⟩
  · rintro ⟨c, hc, h1⟩
    obtain ⟨m, hm⟩ := (sameBut_decd x W).fwd y c hc
    exact ⟨_, hm, h1⟩

theorem tidy_decd (h : Tidy f W) (x : Ref) : Tidy f (decd x W) := by
  intro k y d hy hd
  obtain ⟨e, he, h1⟩ := (sameBut_decd x W).back y d hd
  rw [h1]
  exact h k y e hy he

theorem good_decrefSftp (pick : Pick) (h : Good b n (f :: own) ex W) (hx : W.heap f = some c)
    (hk : c.kind = .sftp) (hex : ∀ y ∈ ex, y = f) (htidy : n → c.refcnt = 1 → Tidy f W) :
    Good b n own ex (decrefSftp pick f W) ∧
    Only (fun y => y = f ∨ Below W f y) (fun y _ => y = f) W (decrefSftp pick f W) ∧
    (Shut f W → Shut f (decrefSftp pick f W)) := by
  by_cases h1 : c.refcnt = 1
  · have hlast : decrefSftp pick f W = sftpDealloc pick f (decd f W) := decrefBy_last hx h1
    obtain ⟨h2, h3, h4⟩ := good_sftpDealloc pick (good_decd h) (heap_decd_self hx) hk hex
      (fun hn => tidy_decd (htidy hn h1) f) (by simp [h1])
    rw [hlast]
    refine ⟨h2, (only_decd (Or.inl rfl)).trans (h3.mono ?_ fun y j hy => hy), fun _ => h4⟩
    rintro y (hy | hy)
    · exact Or.inl hy
    · exact Or.inr (below_decd.mp hy)
  · have hmore : decrefSftp pick f W = decd f W := decrefBy_more hx h1
    rw [hmore]
    refine ⟨good_decd h, only_decd (Or.inl rfl), fun hs d hd => ?_⟩
    rw [heap_decd_self hx] at hd
    cases hd
    exact hs c hx

end PyLibssh2

import PyLibssh2.Ext.Frame

/-!
# Closing wrappers that own nothing

Channels, files, directories and listeners have no registries of their own.  For each function that
closes, deallocates or gives up a reference to one of them: it keeps the invariant, it changes that
wrapper only, and the wrapper is not open afterwards.

`Good b n own ex W` is the invariant in the strength a client needs: with the strict part if `b`, and
with the fact that no call was given `NULL` if `n`.
-/

set_option linter.unusedSectionVars false
set_option linter.unusedVariables false

namespace PyLibssh2

open World Lifetime

/-- no call was given `NULL` -/
def Clean (W : World) : Prop := ∀ e ∈ W.calls, e.arg ≠ none

structure Good (b n : Prop) (own ex : List Ref) (W : World) : Prop where
  inv : Inv own ex W
  strict : b → Strict W
  clean : n → Clean W

variable {b n : Prop} {own ex : List Ref} {W : World} {x y o : Ref} {c d : Obj} {p q : Ptr} {k : Kind}

/-- a type whose objects have no registries -/
def Kind.Leaf (k : Kind) : Prop := k ≠ .session ∧ k ≠ .sftp

/-! ## what is below a wrapper -/

/-- nothing open is below a leaf or a closed wrapper -/
theorem Inv.no_child (h : Inv own ex W) (hx : W.heap x = some c) (hc : c.kind.Leaf ∨ c.ptr = none) :
    ∀ y d q, W.Open y d q → d.kind ≠ .session → d.parent ≠ x := by
  intro y d q hy hk hyx
  obtain ⟨s, r, hs, h1, _⟩ := h.par y d q hy hk
  rw [hyx] at hs
  have hsc : s = c := Option.some.inj (hs.1.symm.trans hx)
  subst hsc
  rcases hc with h2 | h2
  · have h3 : s.kind = .session ∨ s.kind = .sftp := by
      cases hd : d.kind <;> rw [hd] at h1 hk <;> simp [Kind.parent] at h1 <;> simp [← h1]
    rcases h3 with h3 | h3
    · exact h2.1 h3
    · exact h2.2 h3
  · rw [hs.2] at h2
    cases h2

theorem Inv.no_reg (h : Inv own ex W) (hx : W.heap x = some c) (hc : c.kind.Leaf) (k : Kind) :
    W.reg x k = [] := by
  apply reg_eq_nil_iff.mpr
  intro y hy
  obtain ⟨s, hs, h1⟩ := h.owner x k y hy
  have hsc : s = c := Option.some.inj (hs.symm.trans hx)
  subst hsc
  cases hk : k <;> rw [hk] at h1 <;> simp only [Kind.parent, Option.some.injEq, reduceCtorEq] at h1
  all_goals first | exact hc.1 h1.symm | exact hc.2 h1.symm

theorem Inv.member_kind (h : Inv own ex W) (hx : W.heap x = some c) (hm : x ∈ W.members o k) :
    c.kind = k ∧ c.parent = o := by
  obtain ⟨d, hd, h1⟩ := h.entry o k x hm
  have hdc : d = c := Option.some.inj (hd.symm.trans hx)
  rwa [hdc] at h1

/-! ## elementary steps -/

theorem Clean.log (h : Clean W) {e : Call} (he : e.arg ≠ none) : Clean (W.log e) := by
  intro f hf
  rcases List.mem_cons.mp hf with h1 | h1
  · rw [h1]
    exact he
  · exact h f h1

theorem Good.use (h : Good b n own ex W) (hl : Live W.history p) (fn : UseFn) :
    Good b n own ex (W.log (.use fn (some p))) :=
  ⟨h.inv.use hl fn, fun hb => (h.strict hb).log_use rfl,
    fun hn => (h.clean hn).log (by simp [Call.arg])⟩

theorem Inv.log_null (h : Inv own ex W) {e : Call} (he : e.events = [])
    (hup : ∀ s cs, up s (e :: cs) = up s cs) : Inv own ex (W.log e) := by
  have hh : (W.log e).history = W.history := by rw [history_log, he]; rfl
  exact { h with
    sound := by rw [hh]; exact h.sound
    live := by rw [hh]; exact h.live
    started := fun s o q hs hk => by
      rw [calls_log, hup]
      exact h.started s o q hs hk
    serials := by rw [hh]; exact h.serials }

theorem Strict.log_null (h : Strict W) {e : Call} (he : e.events = []) : Strict (W.log e) := by
  have hh : (W.log e).history = W.history := by rw [history_log, he]; rfl
  exact { h with
    owned := by rw [hh]; exact h.owned
    orderly := by rw [hh]; exact h.orderly }

theorem Good.freeNull (h : Good b n own ex W) (fn : FreeFn) (hn : ¬ n) :
    Good b n own ex (W.log (.free fn none)) :=
  ⟨h.inv.log_null rfl fun _ _ => rfl, fun hb => (h.strict hb).log_null rfl, fun h1 => absurd h1 hn⟩

theorem Good.release (h : Good b n own ex W) (fn : FreeFn) (hx : W.Open x c p)
    (hno : ∀ y d q, W.Open y d q → d.kind ≠ .session → d.parent ≠ x)
    (hreg : c.kind = .sftp → ∀ k, W.reg x k = []) (hex : c.kind = .session → x ∈ ex)
    (hout : b → x ∉ W.members c.parent c.kind) : Good b n own ex (released fn x p W) :=
  ⟨h.inv.release fn hx hno hreg hex, fun hb => (h.strict hb).release h.inv fn hx hno (hout hb),
    fun hn => (h.clean hn).log (by simp [Call.arg])⟩

theorem Good.pop (h : Good b n own ex W) (hx : x ∈ W.members o k) :
    Good b n (x :: own) (x :: ex) (popped o k x W) :=
  ⟨h.inv.pop hx, fun hb => (h.strict hb).pop, h.clean⟩

theorem good_decd (h : Good b n (x :: own) ex W) : Good b n own ex (decd x W) :=
  ⟨h.inv.decd, fun hb => (h.strict hb).same (sameBut_decd x W), h.clean⟩

theorem Good.del (h : Good b n own ex W) (hx : W.heap x = some c) (h0 : c.refcnt = 0)
    (hp : c.ptr = none) (hreg : ∀ k, W.reg x k = []) : Good b n own ex (W.del x) :=
  ⟨h.inv.del hx h0 hp (h.inv.no_child hx (Or.inr hp)) hreg, fun hb => (h.strict hb).del hx hp, h.clean⟩

theorem Good.exempt (h : Good b n own ex W) : Good b n own (x :: ex) W :=
  ⟨h.inv.exempt, h.strict, h.clean⟩

theorem Good.settled (h : Good b n own (x :: ex) W) (hs : ∀ c, W.heap x = some c → c.kind ≠ .session)
    (hx : ∀ c p, W.Open x c p → c.managed = true → c.kind = .listener) : Good b n own ex W :=
  ⟨h.inv.settled hs hx, h.strict, h.clean⟩

/-- no wrapper stands at `x`, or a closed one that is no session -/
def Shut (x : Ref) (W : World) : Prop := ∀ c, W.heap x = some c → c.ptr = none ∧ c.kind ≠ .session

theorem Good.shut (h : Good b n own (x :: ex) W) (hx : Shut x W) : Good b n own ex W :=
  h.settled (fun c hc => (hx c hc).2) fun c p hc _ => by
    have h1 := (hx c hc.1).1
    rw [hc.2] at h1
    cases h1

theorem clear_of_closed (hx : W.heap x = some c) (hp : c.ptr = none) : W.clear x = W := by
  have hc : ({ c with ptr := none } : Obj) = c := by rw [← hp]
  have h1 : (W.heap x).map (fun o : Obj => { o with ptr := none }) = W.heap x := by
    rw [hx, Option.map_some, hc]
  show { W with heap := Function.update W.heap x ((W.heap x).map _) } = W
  rw [h1, Function.update_eq_self]

/-! ## the closing functions -/

theorem ptr_of_heap (hx : W.heap x = some c) : (W.heap x).bind Obj.ptr = c.ptr := by rw [hx]; rfl

theorem channelClose_closed (hx : W.heap x = some c) (hp : c.ptr = none) : channelClose x W = W := by
  rw [channelClose, ptr_of_heap hx, hp]

theorem channelClose_open (hx : W.Open x c p) :
    channelClose x W = released .channelFree x p (W.log (.use .channelClose (some p))) := by
  rw [channelClose, ptr_of_heap hx.1, hx.2]
  rfl

theorem giveBack_closed (fn : FreeFn) (hx : W.heap x = some c) (hp : c.ptr = none) :
    giveBack fn x W = W.log (.free fn none) := by
  rw [giveBack, ptr_of_heap hx, hp]
  exact clear_of_closed (W := W.log _) hx hp

theorem giveBack_open (fn : FreeFn) (hx : W.Open x c p) : giveBack fn x W = released fn x p W := by
  rw [giveBack, ptr_of_heap hx.1, hx.2]
  rfl

/-- what a function that closes the leaf `x` has to do -/
structure Closes (close : Ref → World → World) (x : Ref) (W : World) : Prop where
  only : Only (· = x) (fun _ _ => False) W (close x W)
  heap : (close x W).heap x = (W.heap x).map fun o => { o with ptr := none }

theorem heap_released_self (fn : FreeFn) :
    (released fn x p W).heap x = (W.heap x).map fun o => { o with ptr := none } := by
  rw [heap_released, if_pos rfl]

theorem closes_channelClose (hx : W.heap x = some c) : Closes channelClose x W := by
  cases hp : c.ptr with
  | none =>
    have h1 := channelClose_closed hx hp
    have hc : ({ c with ptr := none } : Obj) = c := by rw [← hp]
    exact ⟨h1.symm ▸ Only.refl, by rw [h1, hx, Option.map_some, hc]⟩
  | some p =>
    have h1 := channelClose_open (W := W) ⟨hx, hp⟩
    refine ⟨?_, ?_⟩
    · rw [h1]
      exact (only_log _).trans (only_released .channelFree p rfl)
    · rw [h1, heap_released_self]
      rfl

theorem closes_giveBack (fn : FreeFn) (hx : W.heap x = some c) : Closes (giveBack fn) x W := by
  cases hp : c.ptr with
  | none =>
    have h1 := giveBack_closed fn hx hp
    have hc : ({ c with ptr := none } : Obj) = c := by rw [← hp]
    refine ⟨?_, ?_⟩
    · rw [h1]
      exact only_log _
    · rw [h1, heap_log, hx, Option.map_some, hc]
  | some p =>
    have h1 := giveBack_open fn (W := W) ⟨hx, hp⟩
    refine ⟨?_, ?_⟩
    · rw [h1]
      exact only_released fn p rfl
    · rw [h1, heap_released_self]

theorem Closes.shut {close : Ref → World → World} (h : Closes close x W) (hx : W.heap x = some c)
    (hk : c.kind ≠ .session) : Shut x (close x W) := by
  intro d hd
  rw [h.heap, hx, Option.map_some] at hd
  cases hd
  exact ⟨rfl, hk⟩

theorem good_channelClose (h : Good b n own ex W) (hx : W.heap x = some c) (hk : c.kind.Leaf)
    (hout : b → c.ptr ≠ none → x ∉ W.members c.parent c.kind) :
    Good b n own ex (channelClose x W) := by
  cases hp : c.ptr with
  | none =>
    rw [channelClose_closed hx hp]
    exact h
  | some p =>
    have hxo : W.Open x c p := ⟨hx, hp⟩
    rw [channelClose_open hxo]
    have h1 := h.use (h.inv.live_ptr hxo) .channelClose
    exact h1.release .channelFree hxo (h.inv.no_child hx (Or.inl hk)) (fun h2 => absurd h2 hk.2)
      (fun h2 => absurd h2 hk.1) fun hb => hout hb (by rw [hp]; exact Option.some_ne_none p)

theorem good_giveBack (h : Good b n own ex W) (fn : FreeFn) (hx : W.heap x = some c)
    (hk : c.kind.Leaf) (hnull : n → c.ptr ≠ none)
    (hout : b → c.ptr ≠ none → x ∉ W.members c.parent c.kind) : Good b n own ex (giveBack fn x W) := by
  cases hp : c.ptr with
  | none =>
    rw [giveBack_closed fn hx hp]
    exact h.freeNull fn fun hn => hnull hn hp
  | some p =>
    have hxo : W.Open x c p := ⟨hx, hp⟩
    rw [giveBack_open fn hxo]
    exact h.release fn hxo (h.inv.no_child hx (Or.inl hk)) (fun h2 => absurd h2 hk.2)
      (fun h2 => absurd h2 hk.1) fun hb => hout hb (by rw [hp]; exact Option.some_ne_none p)

/-! ## deallocation -/

/-- a deallocator of a leaf: it is called with no reference left -/
structure Deallocs (b n : Prop) (dealloc : Ref → World → World) (k : Kind) : Prop where
  good : ∀ own ex x c W, Good b n own ex W → W.heap x = some c → c.kind = k → c.refcnt = 0 →
    Good b n own ex (dealloc x W)
  only : ∀ x c W, W.heap x = some c → c.kind = k →
    Only (· = x) (fun _ _ => False) W (dealloc x W)
  shut : ∀ x c W, W.heap x = some c → c.kind = k → Shut x (dealloc x W)

theorem shut_del : Shut x (W.del x) := by
  intro c hc
  exact absurd rfl (heap_del_some hc).1

theorem deallocWith_open {close : Ref → World → World} (hx : W.Open x c p) :
    deallocWith close x W = (close x W).del x := by
  rw [deallocWith, ptr_of_heap hx.1, hx.2]

theorem deallocWith_closed {close : Ref → World → World} (hx : W.heap x = some c) (hp : c.ptr = none) :
    deallocWith close x W = W.del x := by
  rw [deallocWith, ptr_of_heap hx, hp]

theorem handleDealloc_open (hx : W.Open x c p) :
    handleDealloc x W = deallocWith (giveBack .sftpCloseHandle) x W := by
  rw [deallocWith_open hx, handleDealloc, ptr_of_heap hx.1, hx.2]

theorem handleDealloc_closed (hx : W.heap x = some c) (hp : c.ptr = none) : handleDealloc x W = W := by
  rw [handleDealloc, ptr_of_heap hx, hp]

theorem deallocs_deallocWith {close : Ref → World → World} (hk : k.Leaf)
    (hclose : ∀ x c W, W.heap x = some c → Closes close x W)
    (hgood : ∀ own ex x c W, Good b n own ex W → W.heap x = some c → c.kind = k → c.ptr ≠ none →
      x ∉ W.members c.parent c.kind → Good b n own ex (close x W)) :
    Deallocs b n (deallocWith close) k := by
  constructor
  case good =>
    intro own ex x c W h hx hxk h0
    have hleaf : c.kind.Leaf := hxk ▸ hk
    cases hp : c.ptr with
    | none =>
      rw [deallocWith_closed hx hp]
      exact h.del hx h0 hp (h.inv.no_reg hx hleaf)
    | some p =>
      rw [deallocWith_open ⟨hx, hp⟩]
      have hnm := h.inv.not_member_of_refcnt hx h0 c.parent c.kind
      have h1 := hgood own ex x c W h hx hxk (by rw [hp]; exact Option.some_ne_none p) hnm
      have h2 : (close x W).heap x = some { c with ptr := none } := by
        rw [(hclose x c W hx).heap, hx]
        rfl
      exact h1.del h2 h0 rfl (h1.inv.no_reg h2 hleaf)
  case only =>
    intro x c W hx _
    cases hp : c.ptr with
    | none =>
      rw [deallocWith_closed hx hp]
      exact only_del rfl
    | some p =>
      rw [deallocWith_open ⟨hx, hp⟩]
      exact (hclose x c W hx).only.trans (only_del rfl)
  case shut =>
    intro x c W hx _
    cases hp : c.ptr with
    | none =>
      rw [deallocWith_closed hx hp]
      exact shut_del
    | some p =>
      rw [deallocWith_open ⟨hx, hp⟩]
      exact shut_del

theorem deallocs_channel : Deallocs b n channelDealloc .channel :=
  deallocs_deallocWith ⟨by decide, by decide⟩ (fun x c W hx => closes_channelClose hx)
    fun own ex x c W h hx hk hp hnm =>
      good_channelClose h hx (by rw [hk]; exact ⟨by decide, by decide⟩) fun _ _ => hnm

theorem deallocs_listener : Deallocs b n listenerDealloc .listener :=
  deallocs_deallocWith ⟨by decide, by decide⟩ (fun x c W hx => closes_giveBack _ hx)
    fun own ex x c W h hx hk hp hnm =>
      good_giveBack h _ hx (by rw [hk]; exact ⟨by decide, by decide⟩) (fun _ => hp) fun _ _ => hnm

/-- files and directories that are closed stay where they are -/
theorem deallocs_handle (hk : k.Leaf) : Deallocs b n handleDealloc k := by
  have hw : Deallocs b n (deallocWith (giveBack .sftpCloseHandle)) k :=
    deallocs_deallocWith hk (fun x c W hx => closes_giveBack _ hx)
      fun own ex x c W h hx hxk hp hnm => good_giveBack h _ hx (hxk ▸ hk) (fun _ => hp) fun _ _ => hnm
  constructor
  case good =>
    intro own ex x c W h hx hxk h0
    cases hp : c.ptr with
    | none =>
      rw [handleDealloc_closed hx hp]
      exact h
    | some p =>
      rw [handleDealloc_open ⟨hx, hp⟩]
      exact hw.good own ex x c W h hx hxk h0
  case only =>
    intro x c W hx hxk
    cases hp : c.ptr with
    | none =>
      rw [handleDealloc_closed hx hp]
      exact Only.refl
    | some p =>
      rw [handleDealloc_open ⟨hx, hp⟩]
      exact hw.only x c W hx hxk
  case shut =>
    intro x c W hx hxk
    cases hp : c.ptr with
    | none =>
      rw [handleDealloc_closed hx hp]
      intro d hd
      have hdc : d = c := Option.some.inj (hd.symm.trans hx)
      rw [hdc, hxk]
      exact ⟨hp, hk.1⟩
    | some p =>
      rw [handleDealloc_open ⟨hx, hp⟩]
      exact hw.shut x c W hx hxk

theorem deallocs_file : Deallocs b n sftpfileDealloc .file := deallocs_handle ⟨by decide, by decide⟩

theorem deallocs_dir : Deallocs b n sftpdirDealloc .dir := deallocs_handle ⟨by decide, by decide⟩

/-! ## giving up a reference -/

theorem heap_decd_self (hx : W.heap x = some c) :
    (decd x W).heap x = some { c with refcnt := c.refcnt - 1 } := by
  rw [heap_decd, if_pos rfl, hx]
  rfl

theorem decrefBy_last {dealloc : Ref → World → World} (hx : W.heap x = some c) (h1 : c.refcnt = 1) :
    decrefBy dealloc x W = dealloc x (decd x W) := by
  simp only [decrefBy, hx, h1]
  rfl

theorem decrefBy_more {dealloc : Ref → World → World} (hx : W.heap x = some c) (h1 : c.refcnt ≠ 1) :
    decrefBy dealloc x W = decd x W := by
  simp only [decrefBy, hx, if_neg h1]
  rfl

theorem good_decrefBy {dealloc : Ref → World → World} (h : Good b n (x :: own) ex W)
    (hx : W.heap x = some c)
    (hd : c.refcnt = 1 → Good b n own ex (decd x W) →
      Good b n own ex (dealloc x (decd x W))) :
    Good b n own ex (decrefBy dealloc x W) := by
  by_cases h1 : c.refcnt = 1
  · rw [decrefBy_last hx h1]
    exact hd h1 (good_decd h)
  · rw [decrefBy_more hx h1]
    exact good_decd h

section leaves

variable {dealloc : Ref → World → World}

theorem Deallocs.decref (hd : Deallocs b n dealloc k) (h : Good b n (x :: own) ex W)
    (hx : W.heap x = some c) (hk : c.kind = k) : Good b n own ex (decrefBy dealloc x W) :=
  good_decrefBy h hx fun h1 h2 => hd.good own ex x _ _ h2 (heap_decd_self hx) hk (by simp [h1])

theorem Deallocs.decref_only (hd : Deallocs b n dealloc k) (hx : W.heap x = some c) (hk : c.kind = k) :
    Only (· = x) (fun _ _ => False) W (decrefBy dealloc x W) := by
  by_cases h1 : c.refcnt = 1
  · rw [decrefBy_last hx h1]
    exact Only.trans (only_decd (T := (· = x)) rfl) (hd.only x _ _ (heap_decd_self hx) hk)
  · rw [decrefBy_more hx h1]
    exact only_decd rfl

theorem Deallocs.decref_shut (hd : Deallocs b n dealloc k) (hx : W.heap x = some c) (hk : c.kind = k)
    (hs : Shut x W) : Shut x (decrefBy dealloc x W) := by
  by_cases h1 : c.refcnt = 1
  · rw [decrefBy_last hx h1]
    exact hd.shut x _ _ (heap_decd_self hx) hk
  · rw [decrefBy_more hx h1]
    intro d hd'
    rw [heap_decd_self hx] at hd'
    cases hd'
    exact hs c hx

theorem Deallocs.decref_last (hd : Deallocs b n dealloc k) (hx : W.heap x = some c) (hk : c.kind = k)
    (h1 : c.refcnt = 1) : Shut x (decrefBy dealloc x W) := by
  rw [decrefBy_last hx h1]
  exact hd.shut x _ _ (heap_decd_self hx) hk

end leaves

end PyLibssh2

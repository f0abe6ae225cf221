import PyLibssh2.Ext.Own
import PyLibssh2.Threads.Sections

/-!
# Releasing a channel in several threads

`Channel_close` frees the channel and forgets the pointer without giving up the lock in between, and
every call reads the pointer anew, so no channel is freed twice (`channel_release`).  Another thread may
still be working on the channel when that happens: it is, exactly in the interleavings where the
section that frees it comes between the moment another call reads the pointer and the moment that call
comes back (`Alone`).

* `Channels`  what holds in every interleaving: different wrappers, different channels, none freed;
* `Effect`    what a section does to channels: it frees none, or one that a wrapper stands for;
* `Safe`      no thread is, or will be, or has been in libssh2 with a channel freed before.
-/

set_option linter.unusedSectionVars false
set_option linter.unusedVariables false

namespace PyLibssh2.Threads

open World Lifetime

variable {W W' W'' : World} {Y Y' : Sys} {t u : Tid} {s x y : Ref} {c d e : Obj} {p q : Ptr}
  {a : Call}

/-! ## channels -/

def freeOf (p : Ptr) : Call := .free .channelFree (some p)

def Freed (W : World) (p : Ptr) : Prop := freeOf p ∈ W.calls

structure Channels (W : World) : Prop where
  inj : ∀ x y c d p, W.Open x c p → W.Open y d p → c.kind = .channel → d.kind = .channel → x = y
  unfreed : ∀ x c p, W.Open x c p → c.kind = .channel → ¬ Freed W p
  once : ∀ p, W.calls.count (freeOf p) ≤ 1
  entry : ∀ s x c, x ∈ W.members s .channel → W.heap x = some c → c.kind = .channel

theorem channelArg_use {fn : UseFn} {r : Option Ptr} (h : channelArg (.use fn r) = some p) :
    r = some p := by
  have h1 : (if fn ∈ channelFns then r else none) = some p := h
  split at h1
  · exact h1
  · cases h1

/-- no call was about a channel that had been freed -/
def Given (W : World) : Prop :=
  ∀ a t t', W.calls = t' ++ a :: t → ∀ p, channelArg a = some p → freeOf p ∉ t

theorem given_log (h : Given W) (ha : ∀ p, channelArg a = some p → ¬ Freed W p) : Given (W.log a) := by
  intro b t t' ht p hp
  cases t' with
  | nil =>
    have hcons : a :: W.calls = b :: t := ht
    injection hcons with h1 h2
    rw [← h1] at hp
    rw [← h2]
    exact ha p hp
  | cons b' t' =>
    have hcons : a :: W.calls = b' :: (t' ++ b :: t) := ht
    injection hcons with h1 h2
    exact h b t t' h2 p hp

theorem given_append {cs : List Call} (h : Given W) (hW : W'.calls = cs ++ W.calls)
    (hcs : ∀ a ∈ cs, ∀ p, channelArg a = some p → a ≠ freeOf p ∧ ¬ Freed W p) : Given W' := by
  induction cs generalizing W' with
  | nil =>
    intro b t t' ht
    rw [hW] at ht
    exact h b t t' ht
  | cons a cs ih =>
    have h1 : Given { W' with calls := cs ++ W.calls } :=
      ih rfl fun b hb => hcs b (List.mem_cons_of_mem _ hb)
    have h2 := given_log h1 (a := a) fun p hp hf => ?_
    · intro b t t' ht
      rw [hW] at ht
      exact h2 b t t' ht
    · rcases List.mem_append.mp hf with h3 | h3
      · exact (hcs _ (List.mem_cons_of_mem _ h3) p rfl).1 rfl
      · exact (hcs a List.mem_cons_self p hp).2 h3

/-! ## sections that free nothing -/

structure Quiet (W W' : World) : Prop where
  worn : ∀ y d, W'.heap y = some d → ∃ e, W.heap y = some e ∧ Worn e d
  members : ∀ s x, x ∈ W'.members s .channel → x ∈ W.members s .channel
  calls : ∃ cs, W'.calls = cs ++ W.calls ∧ ∀ a ∈ cs, ∀ p, channelArg a = some p →
    a ≠ freeOf p ∧ ∃ x c, W.Open x c p ∧ c.kind = .channel

theorem Quiet.opens (h : Quiet W W') (hy : W'.Open y d q) : ∃ e, W.Open y e q ∧ e.kind = d.kind := by
  obtain ⟨e, he, hw⟩ := h.worn y d hy.1
  refine ⟨e, ⟨he, ?_⟩, hw.kind.symm⟩
  rcases hw.ptr with h1 | h1
  · exact h1.symm.trans hy.2
  · have h2 := hy.2
    rw [h1] at h2
    cases h2

theorem Quiet.trans (h : Quiet W W') (h' : Quiet W' W'') : Quiet W W'' := by
  refine ⟨fun y d hd => ?_, fun s x hx => h.members s x (h'.members s x hx), ?_⟩
  · obtain ⟨e, he, h1⟩ := h'.worn y d hd
    obtain ⟨f, hf, h2⟩ := h.worn y e he
    exact ⟨f, hf, h2.trans h1⟩
  · obtain ⟨cs, hcs, h1⟩ := h.calls
    obtain ⟨ds, hds, h2⟩ := h'.calls
    refine ⟨ds ++ cs, by rw [hds, hcs, List.append_assoc], fun a ha p hp => ?_⟩
    rcases List.mem_append.mp ha with h3 | h3
    · obtain ⟨h4, x, c, hx, hk⟩ := h2 a h3 p hp
      obtain ⟨e, he, hke⟩ := h.opens hx
      exact ⟨h4, x, e, he, hke.trans hk⟩
    · exact h1 a h3 p hp

theorem quiet_only {T : Ref → Prop} {R : Ref → Kind → Prop} (h : Only T R W W')
    (hc : W'.calls = W.calls) : Quiet W W' :=
  ⟨h.worn, fun s x hx => h.members s _ x hx, [], hc, fun a ha => absurd ha List.not_mem_nil⟩

theorem Quiet.refl : Quiet W W := quiet_only (T := fun _ => False) (R := fun _ _ => False) Only.refl rfl

theorem quiet_log (ha : ∀ p, channelArg a = some p →
    a ≠ freeOf p ∧ ∃ x c, W.Open x c p ∧ c.kind = .channel) : Quiet W (W.log a) := by
  refine ⟨fun y d hd => ⟨d, hd, Worn.refl d⟩, fun _ _ h => h, [a], rfl, fun b hb p hp => ?_⟩
  rw [List.mem_singleton.mp hb] at hp ⊢
  exact ha p hp

theorem quiet_use {fn : UseFn} (hx : W.Open x c p) (hk : c.kind = .channel) :
    Quiet W (W.log (.use fn (some p))) := by
  refine quiet_log fun q hq => ⟨fun h => (by cases h), x, c, ?_, hk⟩
  rw [← Option.some.inj (channelArg_use hq)]
  exact hx

theorem quiet_elsewhere (h : Elsewhere W W') : Quiet W W' := by
  obtain ⟨cs, hcs, h1⟩ := h.calls
  refine ⟨h.only.worn, fun s x hx => h.only.members s _ x hx, cs, hcs, fun a ha p hp => ?_⟩
  rw [h1 a ha] at hp
  cases hp

theorem Quiet.count (h : Quiet W W') (p : Ptr) :
    W'.calls.count (freeOf p) = W.calls.count (freeOf p) := by
  obtain ⟨cs, hcs, h1⟩ := h.calls
  have h2 : cs.count (freeOf p) = 0 := List.count_eq_zero.mpr fun hm => (h1 _ hm p rfl).1 rfl
  rw [hcs, List.count_append, h2, Nat.zero_add]

theorem Channels.of_worn (h : Channels W)
    (hworn : ∀ y d, W'.heap y = some d → ∃ e, W.heap y = some e ∧ Worn e d)
    (hmem : ∀ s x, x ∈ W'.members s .channel → x ∈ W.members s .channel)
    (hcount : ∀ p, W'.calls.count (freeOf p) = W.calls.count (freeOf p)) : Channels W' := by
  have hopen : ∀ y d q, W'.Open y d q → ∃ e, W.Open y e q ∧ e.kind = d.kind := by
    intro y d q hy
    obtain ⟨e, he, hw⟩ := hworn y d hy.1
    refine ⟨e, ⟨he, ?_⟩, hw.kind.symm⟩
    rcases hw.ptr with h1 | h1
    · exact h1.symm.trans hy.2
    · have h2 := hy.2
      rw [h1] at h2
      cases h2
  constructor
  case inj =>
    intro x y c d p hx hy hc hd
    obtain ⟨c', hx', hkc⟩ := hopen x c p hx
    obtain ⟨d', hy', hkd⟩ := hopen y d p hy
    exact h.inj x y c' d' p hx' hy' (hkc.trans hc) (hkd.trans hd)
  case unfreed =>
    intro x c p hx hc hf
    obtain ⟨c', hx', hkc⟩ := hopen x c p hx
    refine h.unfreed x c' p hx' (hkc.trans hc) (List.count_pos_iff.mp ?_)
    rw [← hcount p]
    exact List.count_pos_iff.mpr hf
  case once => exact fun p => by rw [hcount p]; exact h.once p
  case entry =>
    intro s x c hx hc
    obtain ⟨e, he, hw⟩ := hworn x c hc
    exact hw.kind.trans (h.entry s x e (hmem s x hx) he)

theorem Channels.quiet (h : Channels W) (hq : Quiet W W') : Channels W' :=
  h.of_worn hq.worn hq.members hq.count

theorem Channels.given (h : Channels W) (hg : Given W) (hq : Quiet W W') : Given W' := by
  obtain ⟨cs, hcs, h1⟩ := hq.calls
  apply given_append hg hcs
  intro a ha p hp
  obtain ⟨h2, x, c, hx, hk⟩ := h1 a ha p hp
  exact ⟨h2, h.unfreed x c p hx hk⟩

/-! ## freeing a channel -/

theorem Channels.released (h : Channels W) (hx : W.Open x c p) (hk : c.kind = .channel) :
    Channels (released .channelFree x p W) := by
  have hcalls : (PyLibssh2.released .channelFree x p W).calls = freeOf p :: W.calls := rfl
  constructor
  case inj =>
    intro y z d e q hy hz hd he
    exact h.inj y z d e q (open_released.mp hy).2 (open_released.mp hz).2 hd he
  case unfreed =>
    intro y d q hy hd hf
    obtain ⟨hne, hy'⟩ := open_released.mp hy
    rcases List.mem_cons.mp hf with h1 | h1
    · cases h1
      exact hne (h.inj y x d c p hy' hx hd hk)
    · exact h.unfreed y d q hy' hd h1
  case once =>
    intro q
    rw [hcalls]
    by_cases hq : freeOf p = freeOf q
    · cases hq
      have h0 : W.calls.count (freeOf p) = 0 := List.count_eq_zero.mpr (h.unfreed x c p hx hk)
      rw [List.count_cons_self]
      omega
    · rw [List.count_cons_of_ne hq]
      exact h.once q
  case entry =>
    intro s y d hy hd
    obtain ⟨e, he, ⟨_, rfl⟩ | ⟨_, rfl⟩⟩ := heap_released_some hd
    · exact h.entry s y d hy he
    · exact h.entry s y e hy he

inductive Effect (W W' : World) : Prop
  | quiet (h : Quiet W W')
  | frees (x : Ref) (c : Obj) (p : Ptr) (W₁ : World) (h₁ : Quiet W W₁) (hx : W₁.Open x c p)
      (hk : c.kind = .channel) (h₂ : Quiet (released .channelFree x p W₁) W')

theorem Effect.channels (h : Channels W) (he : Effect W W') : Channels W' := by
  cases he with
  | quiet hq => exact h.quiet hq
  | frees x c p W₁ h₁ hx hk h₂ => exact ((h.quiet h₁).released hx hk).quiet h₂

theorem Effect.given (h : Channels W) (hg : Given W) (he : Effect W W') : Given W' := by
  cases he with
  | quiet hq => exact h.given hg hq
  | frees x c p W₁ h₁ hx hk h₂ =>
    have hc := h.quiet h₁
    refine (hc.released hx hk).given ?_ h₂
    have hlog := given_log (a := freeOf p) (h.given hg h₁) fun q hq => ?_
    · exact fun a t t' ht => hlog a t t' ht
    · cases hq
      exact hc.unfreed x c p hx hk

theorem Effect.kind (he : Effect W W') (hd : W'.heap y = some d) :
    ∃ e, W.heap y = some e ∧ e.kind = d.kind := by
  cases he with
  | quiet hq =>
    obtain ⟨e, h1, h2⟩ := hq.worn y d hd
    exact ⟨e, h1, h2.kind.symm⟩
  | frees x c p W₁ h₁ hx hk h₂ =>
    obtain ⟨e, h1, h2⟩ := h₂.worn y d hd
    obtain ⟨f, h3, h4⟩ := heap_released_some h1
    obtain ⟨g, h5, h6⟩ := h₁.worn y f h3
    refine ⟨g, h5, ?_⟩
    rcases h4 with ⟨_, rfl⟩ | ⟨_, rfl⟩
    · exact (h2.kind.trans h6.kind).symm
    · exact (h2.kind.trans h6.kind).symm

theorem Effect.andQuiet (he : Effect W W') (h : Quiet W' W'') : Effect W W'' := by
  cases he with
  | quiet hq => exact .quiet (hq.trans h)
  | frees x c p W₁ h₁ hx hk h₂ => exact .frees x c p W₁ h₁ hx hk (h₂.trans h)

theorem Quiet.effect (h : Quiet W W') (h' : Effect W' W'') : Effect W W'' := by
  cases h' with
  | quiet hq => exact .quiet (h.trans hq)
  | frees x c p W₁ h₁ hx hk h₂ => exact .frees x c p W₁ (h.trans h₁) hx hk h₂

/-! ## what the sections do -/

theorem quiet_decd : Quiet W (decd y W) :=
  quiet_only (only_decd (T := (· = y)) (R := fun _ _ => False) rfl) rfl

theorem quiet_del : Quiet W (W.del y) :=
  quiet_only (only_del (T := (· = y)) (R := fun _ _ => False) rfl) rfl

theorem quiet_decrefChannel (hp : (W.heap y).bind Obj.ptr = none) : Quiet W (decrefChannel y W) := by
  cases hy : W.heap y with
  | none =>
    have h1 : decrefChannel y W = W := by simp only [decrefChannel, decrefBy, hy]
    rw [h1]
    exact .refl
  | some c =>
    rw [hy] at hp
    by_cases h1 : c.refcnt = 1
    · rw [decrefChannel, decrefBy_last hy h1, channelDealloc, deallocWith_closed (heap_decd_self hy) hp]
      exact quiet_decd.trans quiet_del
    · rw [decrefChannel, decrefBy_more hy h1]
      exact quiet_decd

theorem effect_decrefChannel (hk : ∀ c, W.heap y = some c → c.kind = .channel) :
    Effect W (decrefChannel y W) := by
  cases hp : (W.heap y).bind Obj.ptr with
  | none => exact .quiet (quiet_decrefChannel hp)
  | some p =>
    obtain ⟨c, hy, hcp⟩ := Option.bind_eq_some_iff.mp hp
    by_cases h1 : c.refcnt = 1
    · have ho : (decd y W).Open y { c with refcnt := c.refcnt - 1 } p := ⟨heap_decd_self hy, hcp⟩
      rw [decrefChannel, decrefBy_last hy h1, channelDealloc, deallocWith_open ho, channelClose_open ho]
      exact quiet_decd.effect
        (.frees y _ p _ (quiet_use ho (hk c hy)) ho (hk c hy) quiet_del)
    · rw [decrefChannel, decrefBy_more hy h1]
      exact .quiet quiet_decd

theorem effect_setDiscard (h : Channels W) :
    Effect W (setDiscard decrefChannel s .channel x W) := by
  unfold setDiscard
  split
  · exact .quiet .refl
  · rename_i y hy
    have hmem : y ∈ W.members s .channel := by
      obtain ⟨r, hr, rfl⟩ := Option.map_eq_some_iff.mp hy
      exact List.mem_map_of_mem (List.mem_of_find?_eq_some hr)
    have hq : Quiet W
        (W.setReg s .channel (HashSet.discard W.equal x (W.hashOf x) (W.reg s .channel))) := by
      refine ⟨fun z d hd => ⟨d, hd, Worn.refl d⟩, fun o z hz => ?_, [], rfl,
        fun a ha => absurd ha List.not_mem_nil⟩
      rw [members_setReg] at hz
      split at hz
      · rename_i ho
        rw [ho.1]
        exact (List.eraseP_sublist.map _).subset hz
      · exact hz
    exact hq.effect (effect_decrefChannel fun c hc => h.entry s y c hmem hc)

theorem quiet_popped : Quiet W (popped s .channel x W) :=
  quiet_only (only_popped (T := fun _ => False) (R := fun o k => o = s ∧ k = .channel) ⟨rfl, rfl⟩) rfl

theorem quiet_failUse {b : Body} {o : Obj} {rc : Int} : Quiet W (failUse b o rc W) := by
  have h1 : ∀ (V : World) (q : Option Ptr), Quiet V (V.log (.use .sessionLastError q)) := fun V q =>
    quiet_log fun p hp => by cases hp
  have h2 : ∀ (V : World) (q : Option Ptr), Quiet V (V.log (.use .sftpLastError q)) := fun V q =>
    quiet_log fun p hp => by cases hp
  unfold failUse
  simp only
  split
  · split
    · exact (h1 _ _).trans (h2 _ _)
    · exact h2 _ _
  · split
    · exact h1 _ _
    · exact .refl

theorem effect_giveBack (hk : ∀ c, W.heap x = some c → c.kind = .channel) :
    Effect W (giveBack .channelFree x W) := by
  cases hp : (W.heap x).bind Obj.ptr with
  | none =>
    unfold giveBack
    rw [hp]
    refine .quiet ((quiet_log fun q hq => ?_).trans
      (quiet_only (only_clear (T := (· = x)) (R := fun _ _ => False) rfl) rfl))
    cases hq
  | some p =>
    obtain ⟨c, hx, hcp⟩ := Option.bind_eq_some_iff.mp hp
    rw [giveBack_open _ ⟨hx, hcp⟩]
    exact .frees x c p W .refl ⟨hx, hcp⟩ (hk c hx) .refl

/-! ## steps -/

def Pc.site : Pc → Option Site
  | .released c | .loaded c _ | .inside c _ => some c
  | _ => none

/-- the pointer a thread has read and works with until it is back from libssh2 -/
def Pc.arg : Pc → Option Ptr
  | .loaded _ p | .inside _ p => p
  | _ => none

/-- the call is on a wrapper of a channel, if the wrapper is still there -/
def OnChannel (W : World) (c : Site) : Prop := ∀ o, W.heap c.self = some o → o.kind = .channel

/-- what a section leaves: a thread outside of calls, or one that has just given up the lock -/
structure Moves (W : World) (r : World × Pc) : Prop where
  effect : Effect W r.1
  pc : (r.2.site = none ∧ r.2.arg = none) ∨ ∃ c, r.2 = .released c ∧ OnChannel W c

theorem onChannel_of_holds {b : Body} {f : After} (hx : W.Holds x .channel) :
    OnChannel W ⟨b, x, f⟩ := by
  intro o ho
  obtain ⟨_, c, hc, hk⟩ := hx
  cases hc.symm.trans ho
  exact hk

theorem moves_readSection {eof : Int} (hx : W.Holds x .channel) : Moves W (readSection x eof W) := by
  have hsite := onChannel_of_holds (b := readBody) (f := .check) hx
  obtain ⟨_, c, hc, hk⟩ := hx
  have hptr : (W.heap x).bind Obj.ptr = c.ptr := by rw [hc]; rfl
  unfold readSection
  rw [hptr]
  cases hp : c.ptr with
  | none => exact ⟨.quiet .refl, Or.inl ⟨rfl, rfl⟩⟩
  | some p =>
    have hq : Quiet W (W.log (.use .channelEof (some p))) := quiet_use ⟨hc, hp⟩ hk
    simp only
    split
    · exact ⟨.quiet hq, Or.inl ⟨rfl, rfl⟩⟩
    · exact ⟨.quiet hq, Or.inr ⟨_, rfl, hsite⟩⟩

theorem moves_writeSection (hx : W.Holds x .channel) : Moves W (writeSection x W) := by
  unfold writeSection
  split
  · exact ⟨.quiet .refl, Or.inl ⟨rfl, rfl⟩⟩
  · exact ⟨.quiet .refl, Or.inr ⟨_, rfl, onChannel_of_holds hx⟩⟩

theorem moves_channelCloseSection (h : Channels W) (hx : W.Holds x .channel) :
    Moves W (channelCloseSection s x W) := by
  unfold channelCloseSection
  simp only
  split
  · exact ⟨effect_setDiscard h, Or.inl ⟨rfl, rfl⟩⟩
  · exact ⟨effect_setDiscard h, Or.inr ⟨_, rfl, onChannel_of_holds hx⟩⟩

theorem moves_closeSection : Moves W (closeSection s W) := by
  unfold closeSection
  split
  · exact ⟨.quiet .refl, Or.inl ⟨rfl, rfl⟩⟩
  · split
    · exact ⟨.quiet .refl, Or.inl ⟨rfl, rfl⟩⟩
    · exact ⟨.quiet .refl, Or.inl ⟨rfl, rfl⟩⟩

theorem moves_popSection (h : Channels W) (n : Nat) : Moves W (popSection s n W) := by
  unfold popSection
  split
  · exact ⟨.quiet .refl, Or.inl ⟨rfl, rfl⟩⟩
  · rename_i y hy
    have hk : ∀ c, W.heap y = some c → c.kind = .channel := fun c hc =>
      h.entry s y c (HashSet.popKey_mem hy) hc
    simp only
    split
    · exact ⟨quiet_popped.effect (effect_decrefChannel hk), Or.inl ⟨rfl, rfl⟩⟩
    · exact ⟨.quiet quiet_popped, Or.inr ⟨_, rfl, hk⟩⟩

theorem moves_backSection {c : Site} {rc : Int} (hk : OnChannel W c) :
    Moves W (backSection c rc W) := by
  unfold backSection
  split
  · split
    · exact ⟨.quiet .refl, Or.inl ⟨rfl, rfl⟩⟩
    · split
      · exact ⟨.quiet quiet_failUse, Or.inl ⟨rfl, rfl⟩⟩
      · exact ⟨.quiet .refl, Or.inl ⟨rfl, rfl⟩⟩
  · exact ⟨effect_giveBack hk, Or.inl ⟨rfl, rfl⟩⟩
  · -- the wrapper is closed when the reference of the set is given up
    refine ⟨(effect_giveBack hk).andQuiet (quiet_decrefChannel ?_), Or.inl ⟨rfl, rfl⟩⟩
    unfold giveBack World.clear
    rw [heap_modify_self, heap_log]
    cases W.heap c.self <;> rfl

structure SysInv (Y : Sys) : Prop where
  channels : Channels Y.world
  site : ∀ t c, (Y.pc t).site = some c → OnChannel Y.world c

/-- **What a step can do.** -/
theorem step_cases (hi : SysInv Y) (h : Step Y t Y') :
    (∃ r, Moves Y.world r ∧ Y' = Y.set t r) ∨
    (∃ c, Y.pc t = .released c ∧
      Y' = Y.set t (Y.world, .loaded c ((Y.world.heap c.self).bind Obj.ptr))) ∨
    (∃ c p, Y.pc t = .loaded c p ∧ Y' = Y.set t (Y.world.log (.use c.body.fn p), .inside c p)) := by
  cases h with
  | read x eof h hx => exact Or.inl ⟨_, moves_readSection hx, rfl⟩
  | write x h hx => exact Or.inl ⟨_, moves_writeSection hx, rfl⟩
  | channelClose s x h hs hx => exact Or.inl ⟨_, moves_channelCloseSection hi.channels hx, rfl⟩
  | close s h hs => exact Or.inl ⟨_, moves_closeSection, rfl⟩
  | load h => exact Or.inr (Or.inl ⟨_, h, rfl⟩)
  | enter h => exact Or.inr (Or.inr ⟨_, _, h, rfl⟩)
  | back rc h => exact Or.inl ⟨_, moves_backSection (hi.site t _ (by rw [h]; rfl)), rfl⟩
  | elsewhere W h hst hW =>
    exact Or.inl ⟨_, ⟨.quiet (quiet_elsewhere hW), Or.inl ⟨rfl, rfl⟩⟩, rfl⟩
  | sftpsDone h hs => exact Or.inl ⟨_, ⟨.quiet .refl, Or.inl ⟨rfl, rfl⟩⟩, rfl⟩
  | pop n h => exact Or.inl ⟨_, moves_popSection hi.channels n, rfl⟩
  | listenersDone h hs =>
    exact Or.inl ⟨_, ⟨.quiet (quiet_log fun p hp => by cases hp), Or.inl ⟨rfl, rfl⟩⟩, rfl⟩
  | disconnected h =>
    refine Or.inl ⟨_, ⟨.quiet (quiet_only (only_modify (T := fun _ => True) (R := fun _ _ => False) _
      (fun e => ?_) trivial) rfl), Or.inl ⟨rfl, rfl⟩⟩, rfl⟩
    exact ⟨rfl, rfl, rfl, rfl, rfl, Or.inl rfl⟩

theorem SysInv.site_set (hi : SysInv Y) {r : World × Pc} {v : Tid} {d : Site}
    (hr : r.2.site = (Y.pc t).site) (hd : ((Y.set t r).pc v).site = some d) :
    OnChannel Y.world d := by
  by_cases hu : v = t
  · rw [hu, set_pc_self, hr] at hd
    exact hi.site t d hd
  · rw [set_pc_of_ne _ hu] at hd
    exact hi.site v d hd

/-- **Every step keeps the invariant.** -/
theorem inv_step (hi : SysInv Y) (h : Step Y t Y') : SysInv Y' := by
  rcases step_cases hi h with ⟨r, hr, rfl⟩ | ⟨c, hc, rfl⟩ | ⟨c, p, hc, rfl⟩
  · have hkeep : ∀ d, OnChannel Y.world d → OnChannel r.1 d := by
      intro d hd o ho
      obtain ⟨e, he, hek⟩ := hr.effect.kind ho
      exact hek.symm.trans (hd e he)
    refine ⟨hr.effect.channels hi.channels, fun u d hd => ?_⟩
    by_cases hu : u = t
    · rw [hu, set_pc_self] at hd
      rcases hr.pc with ⟨h1, _⟩ | ⟨c, h1, h2⟩
      · rw [h1] at hd
        cases hd
      · rw [h1] at hd
        cases hd
        exact hkeep _ h2
    · rw [set_pc_of_ne r hu] at hd
      exact hkeep d (hi.site u d hd)
  · refine ⟨hi.channels, fun u d hd => hi.site_set ?_ hd⟩
    rw [hc]
    rfl
  · refine ⟨hi.channels.of_worn (fun y d hd => ⟨d, hd, Worn.refl d⟩) (fun _ _ h => h) fun q => ?_,
      fun u d hd => ?_⟩
    · exact List.count_cons_of_ne fun h1 => by cases h1
    · refine hi.site_set ?_ hd
      rw [hc]
      rfl

/-! ## no thread works on a channel that has been freed -/

structure Safe (Y : Sys) : Prop where
  /-- no thread is inside libssh2 with a channel that has been freed, or about to enter it -/
  inside : ∀ t p, (Y.pc t).arg = some p → ¬ Freed Y.world p
  /-- and none was given one when it entered -/
  given : Given Y.world

/-- a step that frees a channel finds no thread that has read the pointer and is not back yet -/
def Alone (Y Y' : Sys) : Prop :=
  ∀ p, Freed Y'.world p → ¬ Freed Y.world p → ∀ t, (Y'.pc t).arg ≠ some p

theorem safe_step (hi : SysInv Y) (hs : Safe Y) (h : Step Y t Y') (ha : Alone Y Y') : Safe Y' := by
  have hi' := inv_step hi h
  -- a pointer read before this step
  have hold : ∀ u p, (Y'.pc u).arg = some p → (Y.pc u).arg = some p → ¬ Freed Y'.world p := by
    intro u p h1 h2 hf
    exact ha p hf (hs.inside u p h2) u h1
  rcases step_cases hi h with ⟨r, hr, rfl⟩ | ⟨c, hc, rfl⟩ | ⟨c, p, hc, rfl⟩
  · refine ⟨fun u p hp => ?_, hr.effect.given hi.channels hs.given⟩
    by_cases hu : u = t
    · rw [hu, set_pc_self] at hp
      rcases hr.pc with ⟨_, h1⟩ | ⟨c, h1, _⟩
      · rw [h1] at hp
        cases hp
      · rw [h1] at hp
        cases hp
    · exact hold u p hp (by rw [← set_pc_of_ne r hu]; exact hp)
  · refine ⟨fun u p hp => ?_, hs.given⟩
    by_cases hu : u = t
    · rw [hu, set_pc_self] at hp
      obtain ⟨o, ho, hop⟩ := Option.bind_eq_some_iff.mp hp
      exact hi.channels.unfreed c.self o p ⟨ho, hop⟩ (hi.site t c (by rw [hc]; rfl) o ho)
    · exact hold u p hp (by rw [← set_pc_of_ne _ hu]; exact hp)
  · refine ⟨fun u q hq => ?_, given_log hs.given fun q hq => ?_⟩
    · apply hold u q hq
      by_cases hu : u = t
      · rw [hu, set_pc_self] at hq
        rw [hu, hc]
        exact hq
      · rw [← set_pc_of_ne (Y := Y) (t := t) _ hu]
        exact hq
    · apply hs.inside t q
      rw [hc]
      exact channelArg_use hq

/-! ## whole interleavings -/

theorem channels_of_inv (h : PyLibssh2.Inv [] [] W) : Channels W := by
  have hrel : ∀ p, Freed W p → .release p ∈ W.history := fun p hp =>
    List.mem_flatMap.mpr ⟨_, hp, List.mem_singleton.mpr rfl⟩
  refine ⟨fun x y c d p hx hy _ _ => h.inj x y c d p hx hy, fun x c p hx _ hf => ?_, fun p => ?_,
    fun s x c hx hc => ?_⟩
  · exact (h.live x c p hx).2 p List.mem_cons_self (hrel p hf)
  · refine Nat.le_trans ?_ (h.sound.release_once p)
    show _ ≤ (PyLibssh2.history W.calls).count (.release p)
    rw [← count_frees]
    apply List.countP_mono_left
    intro a _ ha
    rw [eq_of_beq ha]
    exact decide_eq_true rfl
  · obtain ⟨e, he, hk, _⟩ := h.entry s _ x hx
    cases hc.symm.trans he
    exact hk

theorem given_of_inv (h : PyLibssh2.Inv [] [] W) : Given W := by
  intro a t t' ht p hp hf
  have hh : W.history = history t' ++ (a.events ++ history t) := by
    show W.calls.flatMap Call.events = _
    rw [ht, List.flatMap_append, List.flatMap_cons]
    rfl
  have hs := h.sound
  rw [hh] at hs
  have hrel : .release p ∈ history t := List.mem_flatMap.mpr ⟨_, hf, List.mem_singleton.mpr rfl⟩
  -- a call about a channel needs the channel
  have hlive : ∀ ev : Event Ptr, a.events = [ev] → ev.needs = [p] → False := by
    intro ev hev hneed
    rw [hev] at hs
    obtain ⟨os, _, hno⟩ := hs.no_use_after_release (h := p)
      (by rw [hneed]; exact List.mem_singleton.mpr rfl)
    exact hno p List.mem_cons_self hrel
  cases a with
  | use fn r =>
    cases channelArg_use hp
    exact hlive (.use p) rfl rfl
  | free fn r =>
    cases fn <;> cases hp
    exact hlive (.release p) rfl rfl
  | init s => cases hp
  | startup r rc => cases hp
  | disconnect r => cases hp
  | acquire fn r got os => cases hp

theorem sysInv_start (h : PyLibssh2.Inv [] [] W) : SysInv (Sys.start W) :=
  ⟨channels_of_inv h, fun t c hc => by cases hc⟩

theorem safe_start (h : PyLibssh2.Inv [] [] W) : Safe (Sys.start W) :=
  ⟨fun t p hp => (by cases hp), given_of_inv h⟩

theorem sysInv_run {ts : List Tid} (h : PyLibssh2.Inv [] [] W)
    (hr : Trans.Run Step (Sys.start W) ts Y) : SysInv Y :=
  hr.inv SysInv (sysInv_start h) fun _ _ _ => inv_step

/-- **Releasing channels in any interleaving.**  The threads start in a state that the calls of a
program lead to (`good_run`).  No channel is freed twice; and all along the interleaving no thread is in
libssh2 with a channel that has been freed, or goes there, if and only if every step that frees a
channel finds no thread between reading the pointer and coming back from libssh2. -/
theorem channel_release (W : World) (h0 : PyLibssh2.Inv [] [] W) (ts : List Tid) (Y : Sys)
    (hr : Trans.Run Step (Sys.start W) ts Y) :
    (∀ p, Y.world.calls.count (.free .channelFree (some p)) ≤ 1) ∧
    (Trans.Run (fun Y t Y' => Step Y t Y' ∧ Safe Y') (Sys.start W) ts Y ↔
      Trans.Run (fun Y t Y' => Step Y t Y' ∧ Alone Y Y') (Sys.start W) ts Y) := by
  refine ⟨(sysInv_run h0 hr).channels.once, fun h => ?_, fun h => ?_⟩
  · refine h.mono fun Y t Y' hst => ⟨hst.1, fun p hp _ u hu => ?_⟩
    exact hst.2.inside u p hu hp
  · have h1 := h.strengthen (fun Y => SysInv Y ∧ Safe Y) ⟨sysInv_start h0, safe_start h0⟩
      fun Y t Y' hi hst => ⟨inv_step hi.1 hst.1, safe_step hi.1 hi.2 hst.1 hst.2⟩
    exact h1.mono fun Y t Y' hst => ⟨hst.2.1, safe_step hst.1.1 hst.1.2 hst.2.1 hst.2.2⟩

/-! ### a reader and a closer -/

/-- a session with one channel, the object 3 -/
def oneChannel : World := (PyLibssh2.step startedSession (.openSession 1 (answer 1))).1

theorem oneChannel_run : ∃ as, Trans.Run (StepIf Owning) World.empty as oneChannel := by
  have h3 : StepIf Owning startedSession (.openSession 1 (answer 1)) oneChannel := by
    refine ⟨⟨rfl, fun e he _ => ?_⟩, ⟨by decide, _, rfl, rfl⟩, rfl⟩
    cases he
    decide
  exact ⟨_, (startedSession_run Owning trivial trivial).snoc h3⟩

theorem oneChannel_inv : PyLibssh2.Inv [] [] oneChannel := by
  obtain ⟨as, hr⟩ := oneChannel_run
  exact (owning_good hr).inv

def thePtr : Ptr := ⟨2, pageAddr 1⟩

theorem holds_oneChannel : oneChannel.Holds 1 .session ∧ oneChannel.Holds 3 .channel :=
  ⟨⟨by decide, _, rfl, rfl⟩, by decide, _, rfl, rfl⟩

def readSite : Site := ⟨readBody, 3, .check⟩

def closeSite : Site := ⟨closeBody, 3, .free none⟩

/-- thread 1 is inside `libssh2_channel_read` -/
def reading : Sys :=
  let Y := (Sys.start oneChannel).set 1 (readSection 3 0 oneChannel)
  let Y := Y.set 1 (Y.world, .loaded readSite ((Y.world.heap 3).bind Obj.ptr))
  Y.set 1 (Y.world.log (.use .channelRead (some thePtr)), .inside readSite (some thePtr))

/-- thread 2 has followed, to close the channel -/
def closing : Sys :=
  let Y := reading.set 2 (channelCloseSection 1 3 reading.world)
  let Y := Y.set 2 (Y.world, .loaded closeSite ((Y.world.heap 3).bind Obj.ptr))
  Y.set 2 (Y.world.log (.use .channelClose (some thePtr)), .inside closeSite (some thePtr))

/-- thread 1 is back before thread 2 frees the channel -/
def closedLast : Sys :=
  let Y := closing.set 1 (backSection readSite 0 closing.world)
  Y.set 2 (backSection closeSite 0 Y.world)

theorem alone_of_calls (h : Y'.world.calls = Y.world.calls) : Alone Y Y' := by
  intro p hp hn
  have h1 : freeOf p ∈ Y'.world.calls := hp
  rw [h] at h1
  exact absurd h1 hn

theorem alone_of_use {fn : UseFn} {r : Option Ptr} (h : Y'.world.calls = .use fn r :: Y.world.calls) :
    Alone Y Y' := by
  intro p hp hn
  have h1 : freeOf p ∈ Y'.world.calls := hp
  rw [h] at h1
  exact absurd (List.mem_of_ne_of_mem (fun h2 => by cases h2) h1) hn

theorem reading_run : Trans.Run (fun Y t Y' => Step Y t Y' ∧ Alone Y Y') (Sys.start oneChannel) [1, 1, 1]
    reading := by
  have h1 : Step (Sys.start oneChannel) 1 _ := Step.read 3 0 rfl holds_oneChannel.2
  have h2 : Step _ 1 _ := Step.load (Y := (Sys.start oneChannel).set 1 (readSection 3 0 oneChannel))
    (t := 1) (c := readSite) rfl
  have h3 : Step _ 1 reading := Step.enter (c := readSite) (p := some thePtr) rfl
  exact ((Trans.Run.nil.snoc ⟨h1, alone_of_use rfl⟩).snoc ⟨h2, alone_of_calls rfl⟩).snoc ⟨h3, alone_of_use rfl⟩

theorem closedLast_run : Trans.Run (fun Y t Y' => Step Y t Y' ∧ Alone Y Y') (Sys.start oneChannel)
    [1, 1, 1, 2, 2, 2, 1, 2] closedLast := by
  have h1 : Step reading 2 _ := Step.channelClose 1 3 rfl ⟨by decide, _, rfl, rfl⟩ ⟨by decide, _, rfl, rfl⟩
  have h2 : Step _ 2 _ := Step.load (Y := reading.set 2 (channelCloseSection 1 3 reading.world))
    (t := 2) (c := closeSite) rfl
  have h3 : Step _ 2 closing := Step.enter (c := closeSite) (p := some thePtr) rfl
  have h4 : Step closing 1 _ := Step.back (c := readSite) (p := some thePtr) 0 rfl
  have h5 : Step _ 2 closedLast := Step.back (c := closeSite) (p := some thePtr) 0 rfl
  have halone : Alone (closing.set 1 (backSection readSite 0 closing.world)) closedLast := by
    intro p _ _ t ht
    by_cases h2 : t = 2
    · subst h2
      cases ht
    by_cases h1 : t = 1
    · subst h1
      cases ht
    have hpc : closedLast.pc t = .idle := by
      simp [closedLast, closing, reading, Sys.set, Sys.start, Function.update_of_ne, h1, h2]
    rw [hpc] at ht
    cases ht
  exact ((((reading_run.snoc ⟨h1, alone_of_calls rfl⟩).snoc ⟨h2, alone_of_calls rfl⟩).snoc
    ⟨h3, alone_of_use rfl⟩).snoc ⟨h4, alone_of_calls rfl⟩).snoc ⟨h5, halone⟩

theorem channel_release_closedLast :
    closedLast.world.calls.count (.free .channelFree (some thePtr)) ≤ 1 ∧
    Trans.Run (fun Y t Y' => Step Y t Y' ∧ Safe Y') (Sys.start oneChannel) [1, 1, 1, 2, 2, 2, 1, 2]
      closedLast := by
  have h := channel_release oneChannel oneChannel_inv _ closedLast (closedLast_run.mono fun _ _ _ h => h.1)
  exact ⟨h.1 thePtr, h.2.mpr closedLast_run⟩

/-- the channel is freed over a thread that reads from it -/
theorem read_overtaken : ¬ ∀ (W : World) (ts : List Tid) (Y : Sys), PyLibssh2.Inv [] [] W →
    Trans.Run Step (Sys.start W) ts Y →
    (∀ p, Y.world.calls.count (.free .channelFree (some p)) ≤ 1) ∧ Safe Y := by
  intro hall
  obtain ⟨ts, _, hr⟩ := solo_channelClose (Y := reading) (t := 2) (s := 1) (x := 3) rfl
    ⟨by decide, _, rfl, rfl⟩ ⟨by decide, _, rfl, rfl⟩
  have h := (hall oneChannel _ _ oneChannel_inv ((reading_run.mono fun _ _ _ h => h.1).trans hr)).2
  have hfreed : freeOf thePtr ∈ (Session.channelClose 1 3 reading.world).1.calls := by decide
  exact h.inside 1 thePtr rfl hfreed

end PyLibssh2.Threads

import PyLibssh2.Ext.Calls
import PyLibssh2.Ext.Young

/-!
# Calls on a wrapper after its session has ended

* `Act.On x`        the calls that are made on the wrapper `x`, giving up a reference to it among them;
* `Spares q`        a step hands libssh2 nothing that belongs to the session with the handle `q`;
* `Harmless q x`    every call on `x` spares the session, whatever a program does before it;
* `spent_harmless`  a channel that has been closed is harmless;
* `accept_passes`   a listener that has been cancelled is not: `accept` asks the session for its error.
-/

set_option linter.unusedSectionVars false
set_option linter.unusedVariables false

namespace PyLibssh2

open World Lifetime

variable {W W' V : World} {x y s : Ref} {c d e : Obj} {p q : Ptr} {k : Kind} {as : List Act} {a : Act}

/-- the call is made on `x`: a method, a close through some session, or a reference given up -/
def Act.On (x : Ref) : Act → Prop
  | .accept l _ | .forwardCancel _ l => l = x
  | .channelClose _ c => c = x
  | .method y _ | .drop y _ => y = x
  | _ => False

/-- `p` is the handle `q` of a session or was opened below it -/
def World.Belongs (W : World) (q p : Ptr) : Prop := p = q ∨ ∃ os, .acquire p os ∈ W.history ∧ q ∈ os

/-- between `W` and `W'` libssh2 is handed nothing that belongs to the session with the handle `q` -/
def Spares (q : Ptr) (W W' : World) : Prop :=
  ∃ cs, W'.calls = cs ++ W.calls ∧ ∀ e ∈ cs, ∀ p, e.arg = some p → ¬ W'.Belongs q p

/-- from `V` on, no call on `x` hands libssh2 anything of that session -/
def Harmless (q : Ptr) (x : Ref) (V : World) : Prop :=
  ∀ as W a W', Trans.Run Step V as W → a.On x → Step W a W' → Spares q W W'

/-! ## channels that have been closed -/

/-- if `x` still exists it is a channel that has been closed -/
def Spent (x : Ref) (W : World) : Prop := x < W.fresh ∧ ∀ c, W.heap x = some c → c.kind = .channel ∧ c.ptr = none

/-- no object has become another one -/
def Aging (W W' : World) : Prop :=
  W'.fresh = W.fresh ∧ ∀ y d, W'.heap y = some d → ∃ e, W.heap y = some e ∧ Worn e d

theorem Aging.trans {W'' : World} (h : Aging W W') (h' : Aging W' W'') : Aging W W'' := by
  refine ⟨h'.1.trans h.1, fun y d hd => ?_⟩
  obtain ⟨e, he, h1⟩ := h'.2 y d hd
  obtain ⟨f, hf, h2⟩ := h.2 y e he
  exact ⟨f, hf, h2.trans h1⟩

theorem Aging.of_only {T : Ref → Prop} {R : Ref → Kind → Prop} (h : Only T R W W') : Aging W W' :=
  ⟨h.fresh, h.worn⟩

theorem closing_aging : Closing Aging where
  refl W := ⟨rfl, fun y d hd => ⟨d, hd, Worn.refl d⟩⟩
  trans := Aging.trans
  log e h _ _ := h
  wear W x f hf := Aging.of_only (T := fun _ => True) (R := fun _ _ => True) (only_modify f hf trivial)
  thin W o k r hr := ⟨rfl, fun y d hd => ⟨d, hd, Worn.refl d⟩⟩
  del W x := Aging.of_only (T := fun _ => True) (R := fun _ _ => True) (only_del trivial)

theorem Spent.aging (h : Spent x W) (ha : Aging W W') : Spent x W' := by
  refine ⟨ha.1 ▸ h.1, fun d hd => ?_⟩
  obtain ⟨e, he, hw⟩ := ha.2 x d hd
  obtain ⟨hk, hp⟩ := h.2 e he
  refine ⟨hw.kind.trans hk, ?_⟩
  rcases hw.ptr with h1 | h1
  · exact h1.trans hp
  · exact h1

theorem Spent.new (h : Spent x W) (c : Obj) : Spent x (new c W).1 := by
  refine ⟨Nat.lt_succ_of_lt h.1, fun d hd => h.2 d ?_⟩
  rw [← hd]
  exact (Function.update_of_ne h.1.ne ..).symm

theorem Spent.setAdd (h : Spent x W) : Spent x (setAdd W s k y) := by
  unfold PyLibssh2.setAdd
  split
  · exact h
  · have h1 : Spent x (W.setReg s k (W.reg s k ++ [(y, W.hashOf y)])) := h
    exact h1.aging (closing_aging.wear _ _ _ fun _ => ⟨rfl, rfl, rfl, rfl, rfl, Or.inl rfl⟩)

theorem passing_spent (x : Ref) : Passing Aging (Spent x) where
  closing := closing_aging
  keep ha h := h.aging ha
  got e raw h _ _ := ⟨Nat.lt_succ_of_lt h.1, h.2⟩
  new c h _ := h.new c
  add _ _ _ h _ := h.setAdd
  hand _ h := h

theorem spent_run (h : Spent x V) (hr : Trans.Run Step V as W) : Spent x W := by
  apply hr.inv (Spent x) h
  intro t a u h hs
  rw [hs.2]
  exact (passing_spent x).step h a fun _ _ _ => h

/-! ### calls on them -/

theorem calls_decref_closed (hx : W.heap x = some c) (hp : c.ptr = none) :
    (decrefChannel x W).calls = W.calls ∧
      ∀ d, (decrefChannel x W).heap x = some d → d.ptr = none := by
  by_cases h1 : c.refcnt = 1
  · have hd : decrefChannel x W = (decd x W).del x := by
      rw [decrefChannel, decrefBy_last hx h1, channelDealloc, deallocWith, ptr_of_heap (heap_decd_self hx)]
      simp only [hp]
    rw [hd]
    refine ⟨rfl, fun d hd => ?_⟩
    rw [heap_del, if_pos rfl] at hd
    cases hd
  · have hd : decrefChannel x W = decd x W := decrefBy_more hx h1
    rw [hd]
    refine ⟨rfl, fun d hd => ?_⟩
    rw [heap_decd_self hx] at hd
    cases hd
    exact hp

theorem calls_channelClose_closed (hx : W.heap x = some c) (hk : c.kind = .channel) (hp : c.ptr = none) :
    (Session.channelClose s x W).1.calls = W.calls := by
  have hnone : ∀ V : World, V.calls = W.calls → (∀ d, V.heap x = some d → d.ptr = none) →
      (channelClose x V).calls = W.calls := by
    intro V hV hd
    cases h1 : V.heap x with
    | none => rw [channelClose, h1, Option.bind_none, hV]
    | some d => rw [channelClose_closed h1 (hd d h1), hV]
  show (channelClose x (setDiscard decrefChannel s .channel x W)).calls = W.calls
  unfold PyLibssh2.setDiscard
  cases hf : HashSet.found W.equal x (W.hashOf x) (W.reg s .channel) with
  | none =>
    apply hnone W rfl
    intro d hd
    cases hx.symm.trans hd
    exact hp
  | some y =>
    -- only the channel itself is found
    have hyx : y = x := by
      obtain ⟨r, hr, rfl⟩ := Option.map_eq_some_iff.mp hf
      exact hit_self_only hx (by rw [hk]; decide) (List.find?_some hr)
    rw [hyx]
    have h1 := calls_decref_closed
      (W := W.setReg s .channel (HashSet.discard W.equal x (W.hashOf x) (W.reg s .channel))) hx hp
    exact hnone _ h1.1 h1.2

/-- a call on a channel that has been closed calls nothing -/
theorem Spent.calls (h : Spent x W) (ha : a.On x) (hs : Step W a W') : W'.calls = W.calls := by
  obtain ⟨hen, rfl⟩ := hs
  cases a with
  | accept l A =>
    cases ha
    obtain ⟨_, c, hc, hk⟩ := hen
    cases (h.2 c hc).1.symm.trans hk
  | forwardCancel s l =>
    cases ha
    obtain ⟨_, _, c, hc, hk⟩ := hen
    cases (h.2 c hc).1.symm.trans hk
  | channelClose s y =>
    cases ha
    obtain ⟨_, _, c, hc, hk⟩ := hen
    exact calls_channelClose_closed hc hk (h.2 c hc).2
  | method y m =>
    cases ha
    obtain ⟨_, c, hc, _⟩ := hen
    show (m.run x W).1.calls = W.calls
    rw [method_closed hc (h.2 c hc).2]
  | drop y pick =>
    cases ha
    obtain ⟨_, _, c, hc, _⟩ := hen
    obtain ⟨hk, hp⟩ := h.2 c hc
    let W1 : World := { W with held := Function.update W.held x (W.held x - 1) }
    have hx1 : W1.heap x = some c := hc
    show (decref pick x W1).calls = W1.calls
    rw [decref_of_heap pick hx1, hk]
    exact (calls_decref_closed hx1 hp).1
  | session A => exact absurd ha id
  | startup s rc => exact absurd ha id
  | openSession s A => exact absurd ha id
  | scpSend s A => exact absurd ha id
  | scpRecv s A => exact absurd ha id
  | sftpInit s A => exact absurd ha id
  | directTcpip s A => exact absurd ha id
  | forwardListen s A => exact absurd ha id
  | openFile f A => exact absurd ha id
  | openDir f A => exact absurd ha id
  | sftpShutdown s f pick => exact absurd ha id
  | closeFile f x => exact absurd ha id
  | closeDir f x => exact absurd ha id
  | close s pick rc => exact absurd ha id
  | sessionMethod s fn => exact absurd ha id

theorem spent_harmless (h : Spent x V) (q : Ptr) : Harmless q x V := by
  intro as W a W' hr ha hs
  exact ⟨[], (spent_run h hr).calls ha hs, fun e he => absurd he List.not_mem_nil⟩

/-! ## listeners that have been cancelled -/

def refusal : Answer := ⟨none, 0, true⟩

theorem accept_passes (hx : V.heap x = some c) (hk : c.kind = .listener) (hp : c.ptr = none)
    (hheld : 0 < V.held x) : ¬ Harmless c.session x V := by
  intro h
  have hs : Step V (.accept x refusal) (step V (.accept x refusal)).1 := ⟨⟨hheld, c, hx, hk⟩, rfl⟩
  obtain ⟨cs, hcs, h1⟩ := h [] V (.accept x refusal) _ Trans.Run.nil rfl hs
  have hcalls : (step V (.accept x refusal)).1.calls =
      [.use .sessionLastError (some c.session), .acquire .channelForwardAccept none none []] ++ V.calls := by
    show (Listener.accept x refusal V).1.calls = _
    simp only [Listener.accept, hx, hp]
    rfl
  rw [hcalls] at hcs
  have hcs' := List.append_cancel_right hcs
  exact h1 _ (hcs' ▸ List.mem_cons_self) c.session rfl (Or.inl rfl)

end PyLibssh2

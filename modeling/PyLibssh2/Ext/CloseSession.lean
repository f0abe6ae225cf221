import PyLibssh2.Ext.Shut

/-!
# Closing a session

`Session_close` shuts down the sftps of the session, closes its channels and gives up its listeners,
each in a loop that pops the set, and disconnects.  `PYLIBSSH2_Session_dealloc` closes the session if
it is open and frees it.

* `marked`            the field `opened` written after a call, by a close and by a startup;
* `sessionClose_spec` what a close does to the wrappers of the session: sftps and channels in the sets
  are closed, a listener only if the set had the last reference, nothing else changes;
* `good_decref`       giving up a reference keeps the invariant, if whatever is still open below a
  session to be freed is closed on the way (`Releasable`).
-/

set_option linter.unusedSectionVars false
set_option linter.unusedVariables false

namespace PyLibssh2

open World Lifetime

variable {b n : Prop} {own ex : List Ref} {W W' V : World} {x y o s f : Ref} {c d e : Obj} {p q : Ptr}
  {k : Kind} {pick : Pick} {v : Bool} {call : Call} {ev : Event Ptr}

/-! ## the field `opened` -/

def marked (v : Bool) (s : Ref) (call : Call) (W : World) : World :=
  (W.log call).modify s fun c => { c with opened := v }

theorem heap_marked : (marked v s call W).heap y =
    if y = s then (W.heap s).map fun c => { c with opened := v } else W.heap y := heap_modify ..

theorem heap_marked_some (hy : (marked v s call W).heap y = some d) :
    ∃ e, W.heap y = some e ∧ ((y ≠ s ∧ d = e) ∨ (y = s ∧ d = { e with opened := v })) := by
  rw [heap_marked] at hy
  by_cases hys : y = s
  · rw [if_pos hys] at hy
    obtain ⟨e, he, rfl⟩ := Option.map_eq_some_iff.mp hy
    exact ⟨e, hys ▸ he, Or.inr ⟨hys, rfl⟩⟩
  · rw [if_neg hys] at hy
    exact ⟨d, hy, Or.inl ⟨hys, rfl⟩⟩

theorem heap_marked_of (v : Bool) (s : Ref) (call : Call) (hy : W.heap y = some e) :
    ∃ w, (marked v s call W).heap y = some { e with opened := w } := by
  rw [heap_marked]
  by_cases hys : y = s
  · exact ⟨v, by rw [if_pos hys, ← hys, hy]; rfl⟩
  · exact ⟨e.opened, by rw [if_neg hys, hy]⟩

theorem history_marked (he : call.events = [ev]) :
    (marked v s call W).history = ev :: W.history := by
  rw [marked, history_modify, history_log, he]
  rfl

theorem alike_marked (v : Bool) (s : Ref) (call : Call) (W : World) :
    Alike W (marked v s call W) where
  fwd y e he := by
    obtain ⟨w, hw⟩ := heap_marked_of v s call he
    exact ⟨e.refcnt, w, hw⟩
  back y d hd := by
    obtain ⟨e, he, ⟨_, rfl⟩ | ⟨_, rfl⟩⟩ := heap_marked_some hd <;> exact ⟨_, he, rfl⟩
  reg := rfl
  fresh := rfl

theorem Inv.mark {o' : Obj} (h : Inv own ex W) (ev : Event Ptr) (hs : W.Open s o' p)
    (hk : o'.kind = .session) (he : call.events = [ev]) (hev : ev = .use p ∨ ev = .settle p)
    (hup : ∀ r cs, up r (call :: cs) = if r = p then v else up r cs)
    (hreg : v = false → ∀ k, W.reg s k = []) : Inv own ex (marked v s call W) := by
  have hh := history_marked (v := v) (s := s) (W := W) he
  have hneeds : ev.needs = [p] ∧ Fresh W.history ev := by
    rcases hev with rfl | rfl <;> exact ⟨rfl, trivial⟩
  refine h.alike (alike_marked v s call W) ?_ ?_ ?_ ?_ ?_ ?_
  · rw [hh]
    refine ⟨⟨hneeds.2, fun r hr => ?_⟩, h.sound⟩
    rw [hneeds.1] at hr
    rw [List.mem_singleton.mp hr]
    exact h.live_ptr hs
  · intro r os
    rw [hh]
    rcases hev with rfl | rfl <;> simp
  · intro r
    rw [hh]
    rcases hev with rfl | rfl <;> simp
  · intro y d hd
    obtain ⟨e, he, ⟨_, rfl⟩ | ⟨_, rfl⟩⟩ := heap_marked_some hd
    · exact h.refs y d he
    · exact h.refs y e he
  · intro t u ht hu hv j
    obtain ⟨e, he, ⟨_, rfl⟩ | ⟨hts, rfl⟩⟩ := heap_marked_some ht
    · exact h.shut t u he (Or.inr ⟨hu, hv⟩) j
    · rw [hts]
      exact hreg hv j
  · intro t u r ht hu
    rw [show (marked v s call W).calls = call :: W.calls from rfl, hup]
    obtain ⟨e, he, ⟨hne, rfl⟩ | ⟨hts, rfl⟩⟩ := heap_marked_some ht.1
    · obtain ⟨h1, h2⟩ := h.started t u r ⟨he, ht.2⟩ hu
      have hrp : r ≠ p := fun h3 => hne (h.inj t s u o' p (h3 ▸ ⟨he, ht.2⟩) hs)
      rw [if_neg hrp]
      exact ⟨h1, h2⟩
    · have heo : e = o' := Option.some.inj (he.symm.trans (hts ▸ hs.1))
      subst heo
      have hrp : r = p := Option.some.inj (ht.2.symm.trans hs.2)
      rw [if_pos hrp]
      exact ⟨(h.started t e r ⟨he, ht.2⟩ hu).1, rfl⟩

theorem Strict.mark (h : Strict W) (he : call.events = [ev]) (hev : ev = .use p ∨ ev = .settle p)
    (hlast : ev.Last W.history) : Strict (marked v s call W) := by
  have hh := history_marked (v := v) (s := s) (W := W) he
  refine h.alike (alike_marked v s call W) ?_ ?_ ?_
  · rw [hh]
    exact ⟨hlast, h.orderly⟩
  · intro r os
    rw [hh]
    rcases hev with rfl | rfl <;> simp
  · intro r hr
    rw [hh]
    exact List.mem_cons_of_mem _ hr

theorem only_marked : Only (· = s) (fun _ _ => False) W (marked v s call W) :=
  (only_log call).trans (only_modify _ (fun _ => ⟨rfl, rfl, rfl, rfl, rfl, Or.inl rfl⟩) rfl)

/-! ## the rounds of `Session_close` -/

variable {T : Ref → Prop} {R : Ref → Kind → Prop}

theorem Only.below (h : Only T R W W') (hb : Below W' o y) : Below W o y := by
  obtain ⟨d, hd, hk, hp⟩ := hb
  obtain ⟨e, he, h1⟩ := h.worn y d hd
  exact ⟨e, he, fun h2 => hk (h1.kind.trans h2), h1.parent.symm.trans hp⟩

theorem Only.shut (h : Only T R W W') (hs : Shut x W) : Shut x W' := by
  intro d hd
  obtain ⟨e, he, h1⟩ := h.worn x d hd
  obtain ⟨h2, h3⟩ := hs e he
  refine ⟨?_, fun h4 => h3 (h1.kind.symm.trans h4)⟩
  rcases h1.ptr with h4 | h4
  · rw [h4, h2]
  · exact h4

theorem tidy_popped (h : Tidy f W) : Tidy f (popped o k x W) := fun j y c hy hc =>
  h j y c (mem_popped.mp hy).1 hc

theorem good_sftp_round (pick : Pick) (h : Good b n own [] W) (hm : x ∈ W.members s .sftp)
    (htidy : n → Tidy x W) :
    Good b n own [] (decrefSftp pick x (sftpShutdown pick x (popped s .sftp x W))) ∧
    Only (fun y => y = x ∨ Below W x y) (fun y _ => y = x) (popped s .sftp x W)
      (decrefSftp pick x (sftpShutdown pick x (popped s .sftp x W))) ∧
    Shut x (decrefSftp pick x (sftpShutdown pick x (popped s .sftp x W))) := by
  obtain ⟨c, hx, hk, hp⟩ := h.inv.entry s .sftp x hm
  have h1 := good_sftpShutdown pick (h.pop hm) (f := x) (c := c) hx hk
    (fun y hy => List.mem_singleton.mp hy) (fun hn => tidy_popped (htidy hn)) fun _ _ => by
      have hout := h.inv.popped_out hx hm
      rwa [hk] at hout
  have hreg := h1.good.inv.shut x _ h1.heap (Or.inl ⟨hk, rfl⟩)
  obtain ⟨h2, h3, h4⟩ := good_decrefSftp pick (h1.good.shut (h1.shut hk)) h1.heap hk
    (fun y hy => absurd hy List.not_mem_nil) fun _ _ j y d hy _ => by
      exact absurd hy (reg_eq_nil_iff.mp (hreg j) y)
  refine ⟨h2, h1.only.trans (h3.mono ?_ fun y j hy => hy), h4 (h1.shut hk)⟩
  rintro y (hy | hy)
  · exact Or.inl hy
  · exact Or.inr (h1.only.below hy)

theorem good_channel_round (h : Good b n own [] W) (hm : x ∈ W.members s .channel) :
    Good b n own [] (decrefChannel x (channelClose x (popped s .channel x W))) ∧
    Only (· = x) (fun _ _ => False) (popped s .channel x W)
      (decrefChannel x (channelClose x (popped s .channel x W))) ∧
    Shut x (decrefChannel x (channelClose x (popped s .channel x W))) := by
  obtain ⟨c, hx, hk, hp⟩ := h.inv.entry s .channel x hm
  have hleaf : c.kind.Leaf := by rw [hk]; exact ⟨by decide, by decide⟩
  have hx' : (popped s .channel x W).heap x = some c := hx
  have hcloses := closes_channelClose (W := popped s .channel x W) hx'
  have hheap : (channelClose x (popped s .channel x W)).heap x = some { c with ptr := none } := by
    rw [hcloses.heap, hx']
    rfl
  have hshut : Shut x (channelClose x (popped s .channel x W)) := hcloses.shut hx' hleaf.1
  have h1 := good_channelClose (h.pop hm) hx' hleaf fun _ _ => h.inv.popped_out hx hm
  refine ⟨deallocs_channel.decref (h1.shut hshut) hheap hk, ?_,
    (deallocs_channel (b := b) (n := n)).decref_shut hheap hk hshut⟩
  exact hcloses.only.trans ((deallocs_channel (b := b) (n := n)).decref_only hheap hk)

theorem good_listener_round (h : Good b n own [] W) (hm : x ∈ W.members s .listener)
    (hx : W.heap x = some c) :
    Good b n own [] (decrefListener x (popped s .listener x W)) ∧
    Only (· = x) (fun _ _ => False) (popped s .listener x W)
      (decrefListener x (popped s .listener x W)) ∧
    (c.refcnt = 1 → Shut x (decrefListener x (popped s .listener x W))) ∧
    (c.refcnt ≠ 1 → (decrefListener x (popped s .listener x W)).heap x =
      some { c with refcnt := c.refcnt - 1 }) := by
  have hk := (h.inv.member_kind hx hm).1
  have hx' : (popped s .listener x W).heap x = some c := hx
  have hsame : ∀ d, W.heap x = some d → d.kind = .listener := by
    intro d hd
    rw [Option.some.inj (hd.symm.trans hx)]
    exact hk
  have h1 : Good b n (x :: own) [] (popped s .listener x W) :=
    (h.pop hm).settled (fun d hd => by rw [hsame d hd]; decide) fun d p hd _ => hsame d hd.1
  refine ⟨deallocs_listener.decref h1 hx' hk,
    (deallocs_listener (b := b) (n := n)).decref_only hx' hk,
    (deallocs_listener (b := b) (n := n)).decref_last hx' hk, fun hne => ?_⟩
  rw [decrefListener, decrefBy_more hx' hne]
  exact heap_decd_self hx'

/-! ## `Session_close` -/

/-- the wrappers that closing the session `s` may change -/
def Swept (W : World) (s y : Ref) : Prop :=
  (∃ f ∈ W.members s .sftp, y = f ∨ Below W f y) ∨ y ∈ W.members s .channel ∨
    y ∈ W.members s .listener

/-- what closing the session `s` leaves behind -/
structure ClosesSession (b n : Prop) (own : List Ref) (s : Ref) (o : Obj) (W W' : World) : Prop where
  good : Good b n own [] W'
  worn : ∀ y d, W'.heap y = some d → ∃ e, W.heap y = some e ∧ Worn e d
  frame : ∀ y, y ≠ s → ¬ Swept W s y → W'.heap y = W.heap y
  fixed : W'.held = W.held ∧ W'.raw = W.raw ∧ W'.fresh = W.fresh
  heap : W'.heap s = some { o with opened := false }
  sftps : ∀ x ∈ W.members s .sftp, Shut x W'
  channels : ∀ x ∈ W.members s .channel, Shut x W'
  last : ∀ x ∈ W.members s .listener, ∀ c, W.heap x = some c → c.refcnt = 1 → Shut x W'
  kept : ∀ x ∈ W.members s .listener, ∀ c, W.heap x = some c → c.refcnt ≠ 1 →
    W'.heap x = some { c with refcnt := c.refcnt - 1 }

theorem sessionClose_opened (hs : W.heap s = some e) (ho : e.opened = true) :
    sessionClose pick s W = marked false s (.disconnect e.ptr)
      (drainAll (fun x W => decrefListener x W) s .listener pick
        (drainAll (fun x W => decrefChannel x (channelClose x W)) s .channel pick
          (drainAll (fun x W => decrefSftp pick x (sftpShutdown pick x W)) s .sftp pick W))) := by
  simp only [sessionClose, hs, ho, if_true]
  rfl

theorem sessionClose_shut (hs : W.heap s = some e) (ho : e.opened = false) :
    sessionClose pick s W = W := by
  simp only [sessionClose, hs, ho]
  rfl

theorem Inv.member_ne (h : Inv own ex W) (hs : W.heap s = some e) (hk : e.kind = .session)
    (hkk : k ≠ .session) (hx : x ∈ W.members s k) : x ≠ s := by
  rintro rfl
  exact hkk ((h.member_kind hs hx).1.symm.trans hk)

/-- the loop over the registry `k` of the session `s` changes the wrappers `T` only, and no other
registry of the session; its own is empty afterwards -/
structure Empties (s : Ref) (k : Kind) (T : Ref → Prop) (W W' : World) : Prop where
  only : Only T (fun o j => o ≠ s ∨ j = k) W W'
  empty : W'.reg s k = []

theorem Empties.reg {T : Ref → Prop} {j : Kind} (h : Empties s k T W W') (hj : j ≠ k) :
    W'.reg s j = W.reg s j :=
  h.only.reg s j fun h1 => h1.elim (fun h2 => h2 rfl) hj

theorem Empties.members {T : Ref → Prop} {j : Kind} (h : Empties s k T W W') (hj : j ≠ k) :
    W'.members s j = W.members s j := by
  rw [World.members, h.reg hj]
  rfl

/-- each round changes the member it pops, and no registry -/
theorem Empties.of_own
    (h : Only (Touched W s k fun x y => y = x) (Drained W s k fun _ _ _ => False) W W')
    (hr : W'.reg s k = []) : Empties s k (· ∈ W.members s k) W W' := by
  refine ⟨h.mono ?_ ?_, hr⟩
  · rintro y ⟨x, hx, rfl⟩
    exact hx
  · rintro y j (⟨_, h2⟩ | ⟨x, _, h2⟩)
    · exact Or.inr h2
    · exact h2.elim

/-- the footprint of an sftp is the sftp and what was opened through it -/
theorem empties_sftps (pick : Pick) (h : Good b n own [] W) (hs : W.heap s = some e)
    (hk : e.kind = .session) (htidy : n → ∀ f ∈ W.members s .sftp, Tidy f W) :
    let W' := drainAll (fun x W => decrefSftp pick x (sftpShutdown pick x W)) s .sftp pick W
    Good b n own [] W' ∧
      Empties s .sftp (fun y => ∃ f ∈ W.members s .sftp, y = f ∨ Below W f y) W W' ∧
      ∀ x ∈ W.members s .sftp, Shut x W' := by
  have hne : ∀ x ∈ W.members s .sftp, x ≠ s := fun x hx =>
    h.inv.member_ne hs hk (by decide) hx
  have hnot : ∀ z z', z ∈ W.members s .sftp → z' ∈ W.members s .sftp → ¬ Below W z' z := by
    rintro z z' hz hz' ⟨c, hc, _, hcp⟩
    exact hne z' hz' (hcp.symm.trans (h.inv.member_kind hc hz).2)
  obtain ⟨h1, ho1, hr1, hd1⟩ := loop_good pick
    (fun x W => decrefSftp pick x (sftpShutdown pick x W)) (o := s) (k := .sftp)
    (T := fun x y => y = x ∨ Below W x y) (R := fun x y _ => y = x)
    (D := fun _ oo => ∀ d, oo = some d → d.ptr = none ∧ d.kind ≠ .session) h (fun _ => Or.inl rfl)
    (by
      intro x x' y hx hx' hy hy'
      rcases hy with rfl | hy
      · rcases hy' with rfl | hy'
        · rfl
        · exact absurd hy' (hnot _ _ hx hx')
      · rcases hy' with rfl | hy'
        · exact absurd hy (hnot _ _ hx' hx)
        · obtain ⟨c, hc, _, hcp⟩ := hy
          obtain ⟨c', hc', _, hcp'⟩ := hy'
          rw [hc] at hc'
          cases hc'
          exact hcp.symm.trans hcp')
    (fun x hx hxs => hne x hx hxs.symm)
    (fun V x hV hxW hx honly hfoot => by
      have htV : n → Tidy x V := fun hn j y d hy hd => by
        have hyW := honly.members x j y hy
        have hjs : j ≠ .session := by
          rintro rfl
          obtain ⟨t, _, ht⟩ := h.inv.owner x .session y hyW
          cases ht
        exact htidy hn x hxW j y d hyW (hfoot y (Or.inr (h.inv.below hjs hyW)) ▸ hd)
      obtain ⟨g1, g2, g3⟩ := good_sftp_round pick hV hx htV
      refine ⟨g1, g2.mono ?_ fun y j hy => hy, g3⟩
      rintro y (hy | hy)
      · exact Or.inl hy
      · exact Or.inr (honly.below hy))
  refine ⟨h1, ⟨ho1.mono (fun y hy => hy) ?_, hr1⟩, hd1⟩
  rintro y j (⟨_, h2⟩ | ⟨x, hx, h2⟩)
  · exact Or.inr h2
  · exact Or.inl fun h3 => hne x hx (h2.symm.trans h3)

theorem empties_channels (pick : Pick) (h : Good b n own [] W) :
    let W' := drainAll (fun x W => decrefChannel x (channelClose x W)) s .channel pick W
    Good b n own [] W' ∧ Empties s .channel (· ∈ W.members s .channel) W W' ∧
      ∀ x ∈ W.members s .channel, Shut x W' := by
  obtain ⟨h1, ho1, hr1, hd1⟩ := loop_good pick
    (fun x W => decrefChannel x (channelClose x W)) (o := s) (k := .channel)
    (T := fun x y => y = x) (R := fun _ _ _ => False)
    (D := fun _ oo => ∀ d, oo = some d → d.ptr = none ∧ d.kind ≠ .session) h (fun _ => rfl)
    (fun x x' y _ _ h1 h2 => h1.symm.trans h2) (fun _ _ h1 => h1)
    (fun V x hV hxW hx honly hfoot => good_channel_round hV hx)
  exact ⟨h1, .of_own ho1 hr1, hd1⟩

/-- the listeners are not cancelled but given up -/
theorem empties_listeners (pick : Pick) (h : Good b n own [] W) :
    let W' := drainAll (fun x W => decrefListener x W) s .listener pick W
    Good b n own [] W' ∧ Empties s .listener (· ∈ W.members s .listener) W W' ∧
      ∀ x ∈ W.members s .listener, ∀ c, W.heap x = some c → (c.refcnt = 1 → Shut x W') ∧
        (c.refcnt ≠ 1 → W'.heap x = some { c with refcnt := c.refcnt - 1 }) := by
  obtain ⟨h1, ho1, hr1, hd1⟩ := loop_good pick
    (fun x W => decrefListener x W) (o := s) (k := .listener) (T := fun x y => y = x)
    (R := fun _ _ _ => False)
    (D := fun x oo => ∀ c, W.heap x = some c →
      (c.refcnt = 1 → ∀ d, oo = some d → d.ptr = none ∧ d.kind ≠ .session) ∧
      (c.refcnt ≠ 1 → oo = some { c with refcnt := c.refcnt - 1 }))
    h (fun _ => rfl) (fun x x' y _ _ h1 h2 => h1.symm.trans h2) (fun _ _ h1 => h1)
    (fun V x hV hxW hx honly hfoot => by
      obtain ⟨c, hc, _⟩ := h.inv.entry s .listener x hxW
      have hcV : V.heap x = some c := by rw [hfoot x rfl, hc]
      obtain ⟨g1, g2, g3, g4⟩ := good_listener_round hV hx hcV
      refine ⟨g1, g2, fun c' hc' => ?_⟩
      rw [hc] at hc'
      cases hc'
      exact ⟨g3, g4⟩)
  exact ⟨h1, .of_own ho1 hr1, hd1⟩

theorem Inv.no_member (h : Inv own ex W) (hs : W.heap s = some e) (hk : e.kind = .session)
    (h1 : W.reg s .sftp = []) (h2 : W.reg s .channel = []) (h3 : W.reg s .listener = []) (j : Kind) :
    W.reg s j = [] := by
  apply reg_eq_nil_iff.mpr
  intro y hy
  obtain ⟨t, ht, hj⟩ := h.owner s j y hy
  rw [hs] at ht
  cases ht
  rw [hk] at hj
  cases j <;> simp [Kind.parent] at hj
  · exact reg_eq_nil_iff.mp h2 y hy
  · exact reg_eq_nil_iff.mp h1 y hy
  · exact reg_eq_nil_iff.mp h3 y hy

theorem good_disconnect (h : Good b n own [] W) (hs : W.Open s e p) (hk : e.kind = .session)
    (hreg : ∀ j, W.reg s j = []) :
    Good b n own [] (marked false s (.disconnect (some p)) W) := by
  refine ⟨h.inv.mark (.settle p) hs hk rfl (Or.inr rfl) ?_ fun _ => hreg, fun hb => ?_, fun hn => ?_⟩
  · intro r cs
    show (if some p = some r then false else up r cs) = _
    by_cases hrp : r = p
    · simp [hrp]
    · rw [if_neg hrp, if_neg fun h5 => hrp (Option.some.inj h5).symm]
  · refine (h.strict hb).mark rfl (Or.inr rfl) ((h.strict hb).childless h.inv hs ?_)
    intro y d q hy hdk hds
    obtain ⟨hm, hl⟩ := (h.strict hb).mine y d q hy hdk
    have hin := h.inv.home y d q hy hm hl List.not_mem_nil
    rw [hds] at hin
    exact reg_eq_nil_iff.mp (hreg d.kind) y hin
  · exact (h.clean hn).log (by simp [Call.arg])

theorem sessionClose_spec (pick : Pick) (h : Good b n own [] W) (hs : W.heap s = some e)
    (hk : e.kind = .session) (ho : e.opened = true) (htidy : n → ∀ f ∈ W.members s .sftp, Tidy f W) :
    ClosesSession b n own s e W (sessionClose pick s W) := by
  obtain ⟨p, hp⟩ := Option.ne_none_iff_exists'.mp (h.inv.root s e hs hk List.not_mem_nil)
  rw [sessionClose_opened hs ho, hp]
  have hne : ∀ j x, j ≠ .session → x ∈ W.members s j → x ≠ s := fun j x hj hx =>
    h.inv.member_ne hs hk hj hx
  obtain ⟨h1, he1, hd1⟩ := empties_sftps pick h hs hk htidy
  generalize drainAll (fun x W => decrefSftp pick x (sftpShutdown pick x W)) s .sftp pick W = W1
    at h1 he1 hd1 ⊢
  -- a member of another registry is no sftp and was not opened through one
  have hout1 : ∀ j x, j ≠ .session → j ≠ .sftp → x ∈ W.members s j → W1.heap x = W.heap x := by
    intro j x hj hj' hx
    apply he1.only.heap x
    rintro ⟨f, hf, rfl | ⟨c, hc, _, hcp⟩⟩
    · obtain ⟨c, hc, hck, _⟩ := h.inv.entry s .sftp x hf
      exact hj' ((h.inv.member_kind hc hx).1.symm.trans hck)
    · exact hne .sftp f (by decide) hf (hcp.symm.trans (h.inv.member_kind hc hx).2)
  have hs1 : W1.heap s = some e := by
    rw [he1.only.heap s, hs]
    rintro ⟨f, hf, rfl | ⟨c, hc, hck, _⟩⟩
    · exact hne .sftp s (by decide) hf rfl
    · rw [hs] at hc
      cases hc
      exact hck hk
  obtain ⟨h2, he2, hd2⟩ := empties_channels (s := s) pick h1
  generalize drainAll (fun x W => decrefChannel x (channelClose x W)) s .channel pick W1 = W2
    at h2 he2 hd2 ⊢
  rw [he1.members (by decide)] at he2 hd2
  have hm2 : W2.members s .listener = W.members s .listener := by
    rw [he2.members (by decide), he1.members (by decide)]
  have hs2 : W2.heap s = some e := by
    rw [he2.only.heap s fun hm => hne .channel s (by decide) hm rfl, hs1]
  have hlis2 : ∀ x ∈ W.members s .listener, W2.heap x = W.heap x := by
    intro x hx
    rw [he2.only.heap x, hout1 .listener x (by decide) (by decide) hx]
    intro hc
    obtain ⟨c, hc', hck, _⟩ := h.inv.entry s .channel x hc
    have := (h.inv.member_kind hc' hx).1
    rw [hck] at this
    cases this
  obtain ⟨h3, he3, hd3⟩ := empties_listeners (s := s) pick h2
  generalize drainAll (fun x W => decrefListener x W) s .listener pick W2 = W3 at h3 he3 hd3 ⊢
  rw [hm2] at he3 hd3
  have hs3 : W3.heap s = some e := by
    rw [he3.only.heap s fun hm => hne .listener s (by decide) hm rfl, hs2]
  have hreg : ∀ j, W3.reg s j = [] := by
    refine h3.inv.no_member hs3 hk ?_ ?_ he3.empty
    · rw [he3.reg (by decide), he2.reg (by decide), he1.empty]
    · rw [he3.reg (by decide), he2.empty]
  have h4 := good_disconnect h3 ⟨hs3, hp⟩ hk hreg
  have ho4 : Only (· = s) (fun _ _ => False) W3 (marked false s (.disconnect (some p)) W3) :=
    only_marked
  refine ⟨h4, fun y d hd => ?_, fun y hy hsw => ?_, ?_, ?_, ?_, ?_, ?_, ?_⟩
  · obtain ⟨d3, hd3, g3⟩ := ho4.worn y d hd
    obtain ⟨d2, hd2, g2⟩ := he3.only.worn y d3 hd3
    obtain ⟨d1, hd1, g1⟩ := he2.only.worn y d2 hd2
    obtain ⟨d0, hd0, g0⟩ := he1.only.worn y d1 hd1
    exact ⟨d0, hd0, ((g0.trans g1).trans g2).trans g3⟩
  · rw [ho4.heap y hy, he3.only.heap y fun hm => hsw (Or.inr (Or.inr hm)),
      he2.only.heap y fun hm => hsw (Or.inr (Or.inl hm)), he1.only.heap y fun hm => hsw (Or.inl hm)]
  · exact ⟨(ho4.held.trans he3.only.held).trans (he2.only.held.trans he1.only.held),
      (ho4.raw.trans he3.only.raw).trans (he2.only.raw.trans he1.only.raw),
      (ho4.fresh.trans he3.only.fresh).trans (he2.only.fresh.trans he1.only.fresh)⟩
  · rw [heap_marked, if_pos rfl, hs3]
    rfl
  · intro x hx
    exact ho4.shut (he3.only.shut (he2.only.shut (hd1 x hx)))
  · intro x hx
    exact ho4.shut (he3.only.shut (hd2 x hx))
  · intro x hx c hc hc1
    exact ho4.shut ((hd3 x hx c (by rw [hlis2 x hx, hc])).1 hc1)
  · intro x hx c hc hc1
    rw [ho4.heap x (hne .listener x (by decide) hx)]
    exact (hd3 x hx c (by rw [hlis2 x hx, hc])).2 hc1

end PyLibssh2

import PyLibssh2.Ext.Accounts
import PyLibssh2.Ext.Dead
import PyLibssh2.Ext.Spent

/-!
# Forwarding objects and the end of a session

A listener is entered in the set of its session, but `Session_close` only gives up the reference of
the set.  A channel that a listener accepted is in no set, and `direct_tcpip` returns the libssh2
channel itself.  `forwarding_closed_iff` says when the end of a session leaves none of them open, and none
through which a later call gets at the session: Python code refers to no listener, no accepted channel is
open, and no channel was handed out without a wrapper.
-/

set_option linter.unusedSectionVars false
set_option linter.unusedVariables false

namespace PyLibssh2

open World Lifetime

variable {W W' : World} {x y o s f l : Ref} {c d e : Obj} {p q : Ptr} {k : Kind} {as : List Act}
  {a : Act} {pick : Pick}

/-! ## the programs -/

/-- forwarding calls on sessions that are not collected -/
def Forwarding (W : World) : Act → Prop
  | .session _ | .startup _ _ | .forwardCancel _ _ | .channelClose _ _ | .close _ _ _ => True
  | .forwardListen s a | .directTcpip s a | .accept s a =>
    ∀ e, W.heap s = some e → Answers W e.session a
  | .drop x _ => ∀ c, W.heap x = some c → c.kind = .session → c.refcnt ≠ 1
  | _ => False

/-- every wrapper was opened through a session that is still there -/
def Rooted (W : World) : Prop :=
  ∀ x c, W.heap x = some c → ∃ e, W.heap c.parent = some e ∧ e.kind = .session ∧ e.session = c.session

theorem Rooted.worn (h : Rooted W)
    (hw : ∀ y d, W'.heap y = some d → ∃ e, W.heap y = some e ∧ Worn e d)
    (hs : ∀ s e, W.heap s = some e → e.kind = .session → ∃ d, W'.heap s = some d) : Rooted W' := by
  intro x c hx
  obtain ⟨c0, hc0, h1⟩ := hw x c hx
  obtain ⟨e0, he0, hk, hes⟩ := h x c0 hc0
  obtain ⟨e, he⟩ := hs c0.parent e0 he0 hk
  obtain ⟨e1, he1, h2⟩ := hw _ e he
  cases he0.symm.trans he1
  exact ⟨e, by rw [h1.parent, he], h2.kind.trans hk, by rw [h2.session, hes, h1.session]⟩

theorem Rooted.only {T : Ref → Prop} {R : Ref → Kind → Prop} (h : Rooted W) (ho : Only T R W W')
    (hT : ∀ y c, T y → W.heap y = some c → c.kind ≠ .session) : Rooted W' := by
  refine h.worn ho.worn fun s e hs hk => ⟨e, ?_⟩
  rw [ho.heap s fun hTs => hT s e hTs hs hk, hs]

theorem Rooted.same (h : Rooted W) (hh : W'.heap = W.heap) : Rooted W' := by
  intro x c hx
  rw [hh] at hx ⊢
  exact h x c hx

theorem Rooted.grow (h : Rooted W) (hy : W.heap x = none)
    (hh : W'.heap = Function.update W.heap x (some c))
    (hc : ∃ e, W'.heap c.parent = some e ∧ e.kind = .session ∧ e.session = c.session) : Rooted W' := by
  intro y d hd
  rw [hh] at hd
  by_cases hyx : y = x
  · subst hyx
    rw [Function.update_self] at hd
    cases hd
    exact hc
  · rw [Function.update_of_ne hyx] at hd
    obtain ⟨e, he, h1⟩ := h y d hd
    refine ⟨e, ?_, h1⟩
    have hpx : d.parent ≠ x := by
      intro h2
      rw [h2, hy] at he
      cases he
    rw [hh, Function.update_of_ne hpx, he]

theorem Rooted.live (h : Rooted W) (hi : Inv [] [] W) (hx : W.heap x = some c) :
    Live W.history c.session := by
  obtain ⟨e, he, hk, hes⟩ := h x c hx
  rw [← hes]
  exact hi.live_ptr (hi.session_open he hk)

theorem forwarding_allowed (h : Good False False [] [] W) (hro : Rooted W) (ha : Forwarding W a) :
    Allowed False False W a := by
  have hF : ∀ {P : Prop}, False → P := fun h1 => absurd h1 id
  cases a with
  | session A => trivial
  | startup s rc => trivial
  | forwardListen s A => exact ⟨id, ha⟩
  | directTcpip s A => exact id
  | accept l A => exact ⟨id, fun e hl => Or.inr ⟨id, hro.live h.inv hl⟩⟩
  | forwardCancel s l => exact fun e _ => ⟨hF, hF⟩
  | channelClose s x => exact fun c _ => hF
  | close s pick rc => exact hF
  | drop x pick => exact fun c hx h1 => ⟨hF, fun hk => absurd h1 (ha c hx hk)⟩
  | openSession s A => exact hF ha
  | scpSend s A => exact hF ha
  | scpRecv s A => exact hF ha
  | sftpInit s A => exact hF ha
  | openFile f A => exact hF ha
  | openDir f A => exact hF ha
  | sftpShutdown s f pick => exact hF ha
  | closeFile f x => exact hF ha
  | closeDir f x => exact hF ha
  | method x m => exact hF ha
  | sessionMethod s fn => exact hF ha

/-! ## sessions stay where they are -/

theorem heap_openWith (fn : OpenFn) (arg : Ptr) (leak : Nat) (A : Answer) (h : Inv [] [] W)
    (hk : c.kind ≠ .sftp) : (openWith fn arg c leak A W).1.heap = W.heap ∨
    ∃ addr, (openWith fn arg c leak A W).1.heap =
      Function.update W.heap (W.fresh + 1) (some (wrapper c leak addr W)) := by
  cases ha : A.ret with
  | none =>
    left
    rw [openWith_none ha]
    rfl
  | some addr =>
    cases hm : A.alloc with
    | false =>
      left
      rw [openWith_leak ha hm]
      rfl
    | true =>
      right
      obtain ⟨_, _, hg⟩ := openWith_grows fn arg leak (h.new_not_member _ _) ha hm fun h1 => absurd h1 hk
      exact ⟨addr, hg.heap⟩

theorem rooted_openWith {fn : OpenFn} {arg : Ptr} {leak : Nat} {A : Answer} (h : Inv [] [] W)
    (hro : Rooted W) (hk : c.kind ≠ .sftp)
    (hc : ∃ e, W.heap c.parent = some e ∧ e.kind = .session ∧ e.session = c.session) :
    Rooted (openWith fn arg c leak A W).1 := by
  have hnew : W.heap (W.fresh + 1) = none := h.young _ (Nat.le_succ _)
  rcases heap_openWith fn arg leak A h hk with h1 | ⟨addr, h1⟩
  · exact hro.same h1
  · apply hro.grow hnew h1
    obtain ⟨e, he, h2⟩ := hc
    have hne : c.parent ≠ W.fresh + 1 := by
      intro h3
      rw [h3, hnew] at he
      cases he
    refine ⟨e, ?_, h2⟩
    show (openWith fn arg c leak A W).1.heap c.parent = some e
    rw [h1, Function.update_of_ne hne, he]

/-- giving up a reference to a wrapper changes that wrapper and what is below it -/
theorem decref_only {b n : Prop} {own : List Ref} (pick : Pick) (h : Good b n (x :: own) [] W)
    (hx : W.heap x = some c) (hk : c.kind ≠ .session) (hn : ¬ n) :
    Only (fun y => y = x ∨ Below W x y) (fun _ _ => True) W (decref pick x W) := by
  have hleaf : ∀ {V}, Only (· = x) (fun _ _ => False) W V →
      Only (fun y => y = x ∨ Below W x y) (fun _ _ => True) W V := fun ho =>
    ho.mono (fun y hy => Or.inl hy) fun _ _ _ => trivial
  rw [decref_of_heap pick hx]
  cases hck : c.kind with
  | session => exact absurd hck hk
  | channel => exact hleaf ((deallocs_channel (b := b) (n := n)).decref_only hx hck)
  | sftp =>
    exact (good_decrefSftp _ h hx hck (fun y hy => absurd hy List.not_mem_nil)
      fun h1 => absurd h1 hn).2.1.mono (fun y hy => hy) fun _ _ _ => trivial
  | file => exact hleaf ((deallocs_file (b := b) (n := n)).decref_only hx hck)
  | dir => exact hleaf ((deallocs_dir (b := b) (n := n)).decref_only hx hck)
  | listener => exact hleaf ((deallocs_listener (b := b) (n := n)).decref_only hx hck)

theorem Swept.not_session (h : Inv [] [] W) (hy : Swept W s y) (hyd : W.heap y = some d) :
    d.kind ≠ .session := by
  have hmem : ∀ {o' k'}, k' ≠ Kind.session → y ∈ W.members o' k' → d.kind ≠ .session := by
    intro o' k' hk hm
    rw [(h.member_kind hyd hm).1]
    exact hk
  rcases hy with ⟨f, hf, rfl | ⟨c, hc, hk, _⟩⟩ | hm | hm
  · exact hmem (by decide) hf
  · cases hyd.symm.trans hc
    exact hk
  · exact hmem (by decide) hm
  · exact hmem (by decide) hm

theorem rooted_step (h : Good False False [] [] W) (hro : Rooted W) (hen : Enabled W a)
    (ha : Forwarding W a) : Rooted (step W a).1 := by
  cases a with
  | session A =>
    refine hro.grow (x := W.fresh + 1) (h.inv.young _ (Nat.le_succ _)) rfl ⟨_, ?_, rfl, rfl⟩
    exact Function.update_self ..
  | startup s rc =>
    obtain ⟨_, e, hs, hk⟩ := hen
    show Rooted (Session.startup s rc W).1
    rw [Session.startup, onSession_eq hs]
    by_cases hrc : rc < 0
    · simp only [if_pos hrc]
      exact hro.same rfl
    · simp only [if_neg hrc]
      have h1 : Rooted (marked true s (.startup (some e.session) rc) W) := by
        apply hro.worn only_marked.worn
        intro t u ht _
        obtain ⟨w, hw⟩ := heap_marked_of true s (.startup (some e.session) rc) ht
        exact ⟨_, hw⟩
      exact h1
  | forwardListen s A =>
    obtain ⟨_, e, hs, hk⟩ := hen
    show Rooted (Session.forwardListen s A W).1
    rw [Session.forwardListen, onSession_eq hs]
    exact rooted_openWith h.inv hro (by show Kind.listener ≠ _; decide) ⟨e, hs, hk, rfl⟩
  | accept l A =>
    obtain ⟨_, e, hl, hk⟩ := hen
    show Rooted (Listener.accept l A W).1
    cases hp : e.ptr with
    | none =>
      have hacc : (Listener.accept l A W).1.heap = W.heap := by
        simp only [Listener.accept, hl, hp]
        rfl
      exact hro.same hacc
    | some p =>
      have hacc : Listener.accept l A W = openWith .channelForwardAccept p
          { child e.parent e.session .channel with managed := false } 0 A W := by
        simp only [Listener.accept, hl, hp]
      rw [hacc]
      exact rooted_openWith h.inv hro (by show Kind.channel ≠ _; decide) (hro l e hl)
  | directTcpip s A =>
    obtain ⟨_, e, hs, hk⟩ := hen
    show Rooted (Session.directTcpip s A W).1
    rw [Session.directTcpip, onSession_eq hs]
    apply hro.same
    cases A.ret <;> rfl
  | forwardCancel s l =>
    obtain ⟨_, hheld, e, hl, hk⟩ := hen
    have hns : ∀ y c, y = l → W.heap y = some c → c.kind ≠ .session := by
      rintro y c rfl hc
      cases hc.symm.trans hl
      rw [hk]
      decide
    have hd : Discards False False [] s .listener l e W (setDiscard decrefListener s .listener l W) :=
      good_setDiscard h hl hk (by decide) hheld fun r _ hr => hit_self_only hl (by rw [hk]; decide) hr
    obtain ⟨m, hm⟩ := hd.heap
    have h1 := hd.only.mono (S := fun _ _ => True) (fun y hy => hy) fun _ _ _ => trivial
    have h2 := (closes_giveBack .channelForwardCancel hm).only.mono (S := fun _ _ => True)
      (fun y hy => hy) fun _ _ _ => trivial
    exact hro.only (h1.trans h2) hns
  | channelClose s x =>
    obtain ⟨_, hheld, e, hl, hk⟩ := hen
    have hns : ∀ y c, y = x → W.heap y = some c → c.kind ≠ .session := by
      rintro y c rfl hc
      cases hc.symm.trans hl
      rw [hk]
      decide
    have hd : Discards False False [] s .channel x e W (setDiscard decrefChannel s .channel x W) :=
      good_setDiscard h hl hk (by decide) hheld fun r _ hr => hit_self_only hl (by rw [hk]; decide) hr
    obtain ⟨m, hm⟩ := hd.heap
    have h1 := hd.only.mono (S := fun _ _ => True) (fun y hy => hy) fun _ _ _ => trivial
    have h2 := (closes_channelClose hm).only.mono (S := fun _ _ => True)
      (fun y hy => hy) fun _ _ _ => trivial
    exact hro.only (h1.trans h2) hns
  | close s pick rc =>
    obtain ⟨_, e, hs, hk⟩ := hen
    show Rooted (sessionClose pick s W)
    cases ho : e.opened with
    | false =>
      rw [sessionClose_shut hs ho]
      exact hro
    | true =>
      have hc := sessionClose_spec pick h hs hk ho fun hn => absurd hn id
      apply hro.worn hc.worn
      intro t u ht htk
      by_cases hts : t = s
      · rw [hts]
        exact ⟨_, hc.heap⟩
      · exact ⟨u, by rw [hc.frame t hts fun hsw => hsw.not_session h.inv ht htk, ht]⟩
  | drop x pick =>
    obtain ⟨k, hheld, c, hx, hk⟩ := hen
    let W1 : World := { W with held := Function.update W.held x (W.held x - 1) }
    have hro1 : Rooted W1 := hro.same rfl
    by_cases hks : c.kind = .session
    · have hmore : (dropRef pick x W).1 = decd x W1 := by
        show decref pick x W1 = _
        have hd : decref pick x W1 = decrefSession pick x W1 := by
          have hx1 : W1.heap x = some c := hx
          rw [decref, hx1]
          simp only [hks]
        rw [hd]
        exact decrefBy_more (W := W1) hx (ha c hx hks)
      show Rooted (dropRef pick x W).1
      rw [hmore]
      apply hro1.worn (only_decd (T := (· = x)) (R := fun _ _ => False) rfl).worn
      intro t u ht _
      obtain ⟨m, hm⟩ := (sameBut_decd x W1).fwd t u ht
      exact ⟨_, hm⟩
    · have h1 : Good False False [x] [] W1 := good_held h hheld
      apply hro1.only (decref_only pick h1 hx hks id)
      rintro y d (rfl | ⟨d', hd', hdk, _⟩) hy
      · cases hy.symm.trans hx
        exact hks
      · cases hy.symm.trans hd'
        exact hdk
  | openSession s A => exact absurd ha id
  | scpSend s A => exact absurd ha id
  | scpRecv s A => exact absurd ha id
  | sftpInit s A => exact absurd ha id
  | openFile f A => exact absurd ha id
  | openDir f A => exact absurd ha id
  | sftpShutdown s f pick => exact absurd ha id
  | closeFile f x => exact absurd ha id
  | closeDir f x => exact absurd ha id
  | method x m => exact absurd ha id
  | sessionMethod s fn => exact absurd ha id

theorem forwarding_good (hr : Trans.Run (StepIf Forwarding) World.empty as W) :
    Good False False [] [] W ∧ Rooted W := by
  refine hr.inv (fun W => Good False False [] [] W ∧ Rooted W) ⟨good_empty, fun x c hx => ?_⟩ ?_
  · cases hx
  · rintro V a V' ⟨hg, hro⟩ ⟨hc, hen, rfl⟩
    exact ⟨good_step hg hen (forwarding_allowed hg hro hc), rooted_step hg hro hen hc⟩

theorem Forwarding.even (ha : Forwarding W a) : a.Even := by
  cases a with
  | scpRecv s A => exact absurd ha id
  | _ => trivial

/-- every reference to a wrapper belongs to Python code or to the set of its session -/
theorem forwarding_books (hr : Trans.Run (StepIf Forwarding) World.empty as W) :
    ∃ g, Books True g [] [] [] W := by
  refine hr.inv (fun W => ∃ g, Books True g [] [] [] W) ⟨blank, books_empty⟩ ?_
  rintro V a V' ⟨g, hb⟩ ⟨hc, hen, rfl⟩
  obtain ⟨g', _, h1⟩ := books_step hb a hen fun _ => hc.even
  exact ⟨g', h1⟩

/-! ## the end of the session -/

/-- nothing that was opened for forwarding through the session `s` stands for a libssh2 object, and no
channel of `s` is in Python's hands without a wrapper -/
def Gone (s : Ref) (W : World) : Prop :=
  (∀ x c, W.heap x = some c → c.parent = s → c.kind = .listener ∨ c.kind = .channel → c.ptr = none) ∧
  ∀ r ∈ W.raw, r.1 ≠ s

/-- the session `s` with the handle `q` has ended: moreover no call on a wrapper that it leaves behind hands
libssh2 anything that belongs to it, whatever the program does before that call -/
structure Ended (s : Ref) (q : Ptr) (W : World) : Prop where
  gone : Gone s W
  harmless : ∀ x c, W.heap x = some c → c.parent = s → c.kind = .listener ∨ c.kind = .channel →
    Harmless q x W

/-- Python code refers to no listener of the session `s`, and the sets of `s` cover its open channels -/
structure Covered (s : Ref) (W : World) : Prop where
  listeners : ∀ x c, W.heap x = some c → c.parent = s → c.kind = .listener → W.held x = 0
  channels : ∀ x c p, W.Open x c p → c.parent = s → c.kind = .channel → x ∈ W.members s .channel
  wrapped : ∀ r ∈ W.raw, r.1 ≠ s

theorem listener_or_channel (h : k = .listener ∨ k = .channel) : k ≠ .session ∧ k ≠ .sftp := by
  rcases h with rfl | rfl
  · exact ⟨by decide, by decide⟩
  · exact ⟨by decide, by decide⟩

/-- `U` is like `V` but for the session `s` itself -/
structure Beside (s : Ref) (V U : World) : Prop where
  heap : ∀ y, y ≠ s → U.heap y = V.heap y
  self : ∀ c, U.heap s = some c → c.kind = .session
  held : ∀ y, y ≠ s → U.held y = V.held y
  raw : U.raw = V.raw
  fresh : U.fresh = V.fresh

variable {U V : World} {g : Ghost} {dying : List Ref}

theorem Beside.ne (h : Beside s V U) (hx : U.heap x = some c) (hk : c.kind = .listener ∨ c.kind = .channel) :
    x ≠ s := by
  rintro rfl
  exact (listener_or_channel hk).1 (h.self c hx)

theorem ClosesSession.left (hc : ClosesSession False False [] s e W V) (h : Good False False [] [] W)
    (hs : W.heap s = some e) (hk : e.kind = .session) (hx : W.heap x = some c) (hp : c.parent = s)
    (hck : c.kind = .listener ∨ c.kind = .channel) (hno : x ∉ W.members s c.kind) : V.heap x = some c := by
  have hxs : x ≠ s := by
    rintro rfl
    cases hx.symm.trans hs
    exact (listener_or_channel hck).1 hk
  rw [hc.frame x hxs ?_, hx]
  rintro (⟨f, hf, rfl | ⟨d, hd, _, hdp⟩⟩ | hm | hm)
  · exact (listener_or_channel hck).2 (h.inv.member_kind hx hf).1
  · cases hx.symm.trans hd
    exact h.inv.member_ne hs hk (by decide) hf (hdp.symm.trans hp)
  · exact hno ((h.inv.member_kind hx hm).1 ▸ hm)
  · exact hno ((h.inv.member_kind hx hm).1 ▸ hm)

theorem ClosesSession.survives (hc : ClosesSession False False [] s e W V) (h : Good False False [] [] W)
    (hs : W.heap s = some e) (hk : e.kind = .session) (hx : W.heap x = some c) (hp : c.parent = s)
    (hl : c.kind = .listener) (hheld : 0 < W.held x) : ∃ d, V.heap x = some d ∧ Worn c d := by
  by_cases hm : x ∈ W.members s .listener
  · have hmem : x ∈ W.members c.parent c.kind := by
      rw [hp, hl]
      exact hm
    have hrefs := h.inv.refs x c hx
    rw [if_pos hmem] at hrefs
    have hne : c.refcnt ≠ 1 := by omega
    exact ⟨_, hc.kept x hm c hx hne, rfl, rfl, rfl, rfl, rfl, Or.inl rfl⟩
  · exact ⟨c, hc.left h hs hk hx hp (Or.inl hl) (by rw [hl]; exact hm), Worn.refl c⟩

theorem no_listener (hb : Books True g [] [] dying W) (hdy : ∀ y ∈ dying, y = s) (hs : W.heap s = some e)
    (hk : e.kind = .session) (ho : e.opened = true) (pick : Pick) (hheld : W.held x = 0) :
    ∀ d, (sessionClose pick s W).heap x = some d → d.parent = s → d.kind ≠ .listener := by
  intro d hd hp hl
  have hgs : g.kind s = .session := (hb.kinds s e hs).symm.trans hk
  obtain ⟨hb', hnil⟩ := sessionClose_books pick hgs hb
  have hnot : x ∉ (sessionClose pick s W).members d.parent d.kind := by
    rw [hp, World.members, hnil e hs ho]
    exact List.not_mem_nil
  have hfew := hb'.even trivial x d hd
  have hheld' : (sessionClose pick s W).held x = 0 :=
    (congrFun (closing_held.sessionClose pick W s) x).trans hheld
  rw [World.claims, hheld', if_neg hnot, List.count_nil] at hfew
  have hxd : x ∉ dying := by
    intro hm
    have h1 := hb'.kinds x d hd
    rw [hdy x hm, hgs, hl] at h1
    cases h1
  have hh := hb'.zombie x d hd (Nat.le_zero.mp hfew) hxd
  rw [hl] at hh
  exact not_handle_listener hh

/-- the end of a session that is up, whatever becomes of the object itself -/
theorem ended_iff (pick : Pick) (h : Good False False [] [] W) (hb : Books True g [] [] dying W)
    (hdy : ∀ y ∈ dying, y = s) (hs : W.heap s = some e) (hk : e.kind = .session) (ho : e.opened = true)
    (hU : Beside s (sessionClose pick s W) U) : Ended s e.session U ↔ Covered s W := by
  have hc := sessionClose_spec pick h hs hk ho fun hn => absurd hn id
  have hraw : U.raw = W.raw := hU.raw.trans hc.fixed.2.1
  have hother : ∀ x c, W.heap x = some c → c.kind = .listener ∨ c.kind = .channel → x ≠ s := by
    rintro x c hx hck rfl
    cases hx.symm.trans hs
    exact (listener_or_channel hck).1 hk
  constructor
  · rintro ⟨⟨hgone, hwrapped⟩, hharm⟩
    refine ⟨fun x c hx hp hl => ?_, fun x c p hx hp hch => ?_, hraw ▸ hwrapped⟩
    · -- a listener that survives is open, or `accept` on it asks the session for its error
      by_contra hne
      have hxs := hother x c hx (Or.inl hl)
      have hheld := Nat.pos_of_ne_zero hne
      obtain ⟨d, hd, hw⟩ := hc.survives h hs hk hx hp hl hheld
      have hd' : U.heap x = some d := (hU.heap x hxs).trans hd
      have hdp : d.parent = s := hw.parent.trans hp
      have hdl : d.kind = .listener := hw.kind.trans hl
      have hses : d.session = e.session := by
        rw [hw.session, (h.inv.kin x c e hx (by rw [hl]; decide) (hp ▸ hs)).2]
      have hUheld : 0 < U.held x := by
        rw [hU.held x hxs, hc.fixed.1]
        exact hheld
      apply accept_passes hd' hdl (hgone x d hd' hdp (Or.inl hdl)) hUheld
      rw [hses]
      exact hharm x d hd' hdp (Or.inl hdl)
    · by_contra hm
      have h1 := hc.left h hs hk hx.1 hp (Or.inr hch) (by rw [hch]; exact hm)
      have h2 := hgone x c ((hU.heap x (hother x c hx.1 (Or.inr hch))).trans h1) hp (Or.inr hch)
      rw [hx.2] at h2
      cases h2
  · rintro ⟨hlis, hchan, hwrapped⟩
    -- no listener is left, and the channels are closed
    have hleft : ∀ x d, U.heap x = some d → d.parent = s → d.kind = .listener ∨ d.kind = .channel →
        d.kind = .channel ∧ d.ptr = none ∧ (sessionClose pick s W).heap x = some d := by
      intro x d hd hp hdk
      have hd' : (sessionClose pick s W).heap x = some d := (hU.heap x (hU.ne hd hdk)).symm.trans hd
      obtain ⟨c, hcx, hw⟩ := hc.worn x d hd'
      have hcp : c.parent = s := hw.parent.symm.trans hp
      rcases hdk with hl | hch
      · have hcl : c.kind = .listener := hw.kind.symm.trans hl
        exact absurd hl (no_listener hb hdy hs hk ho pick (hlis x c hcx hcp hcl) d hd' hp)
      · refine ⟨hch, ?_, hd'⟩
        rcases hw.ptr with h3 | h3
        · by_contra hne
          obtain ⟨p, hp'⟩ := Option.ne_none_iff_exists'.mp hne
          have hm := hchan x c p ⟨hcx, h3.symm.trans hp'⟩ hcp (hw.kind.symm.trans hch)
          exact hne (hc.channels x hm d hd').1
        · exact h3
    refine ⟨⟨fun x d hd hp hdk => (hleft x d hd hp hdk).2.1, hraw ▸ hwrapped⟩, fun x d hd hp hdk => ?_⟩
    obtain ⟨hch, hpn, hd'⟩ := hleft x d hd hp hdk
    refine spent_harmless ⟨?_, fun c hx => ?_⟩ e.session
    · rw [hU.fresh]
      exact (sessionClose_books pick ((hb.kinds s e hs).symm.trans hk) hb).1.lt_fresh
        (hd' ▸ Option.some_ne_none d)
    · cases hx.symm.trans hd
      exact ⟨hch, hpn⟩

theorem ended_dropRef (pick : Pick) (h : Good False False [] [] W) (hb : Books True g [] [] [] W)
    (hs : W.heap s = some e) (hk : e.kind = .session) (ho : e.opened = true) (hheld : 0 < W.held s)
    (h1 : e.refcnt = 1) : Ended s e.session (dropRef pick s W).1 ↔ Covered s W := by
  let W1 : World := { W with held := Function.update W.held s (W.held s - 1) }
  let e2 : Obj := { e with refcnt := e.refcnt - 1 }
  have hx1 : W1.heap s = some e := hs
  have hg : Good False False [] [] (decd s W1) := good_decd (good_held h hheld)
  have hs2 : (decd s W1).heap s = some e2 := heap_decd_self hx1
  have hb2 : Books True g [] [] [s] (decd s W1) := by
    have h2 := (hb.giveUp hheld).decd hx1
    rw [if_pos h1] at h2
    exact h2
  have hother : ∀ y, y ≠ s → (decd s W1).heap y = W.heap y ∧ (decd s W1).held y = W.held y := fun y hy =>
    ⟨by rw [heap_decd, if_neg hy], Function.update_of_ne hy ..⟩
  -- the state that `Session_close` starts from differs in the session only
  have hcov : Covered s (decd s W1) ↔ Covered s W := by
    have hne : ∀ {V : World} {x c}, (∀ d, V.heap s = some d → d.kind = .session) → V.heap x = some c →
        c.kind = .listener ∨ c.kind = .channel → x ≠ s := by
      rintro V x c hV hx hck rfl
      exact (listener_or_channel hck).1 (hV c hx)
    have hV1 : ∀ d, (decd s W1).heap s = some d → d.kind = .session := fun d hd => by
      cases hs2.symm.trans hd
      exact hk
    have hV2 : ∀ d, W.heap s = some d → d.kind = .session := fun d hd => by
      cases hs.symm.trans hd
      exact hk
    constructor
    · rintro ⟨h2, h3, h4⟩
      refine ⟨fun x c hx hp hl => ?_, fun x c p hx hp hch => ?_, h4⟩
      · have hxs := hother x (hne hV2 hx (Or.inl hl))
        exact hxs.2.symm.trans (h2 x c (hxs.1.trans hx) hp hl)
      · exact h3 x c p ⟨(hother x (hne hV2 hx.1 (Or.inr hch))).1.trans hx.1, hx.2⟩ hp hch
    · rintro ⟨h2, h3, h4⟩
      refine ⟨fun x c hx hp hl => ?_, fun x c p hx hp hch => ?_, h4⟩
      · have hxs := hother x (hne hV1 hx (Or.inl hl))
        exact hxs.2.trans (h2 x c (hxs.1.symm.trans hx) hp hl)
      · exact h3 x c p ⟨(hother x (hne hV1 hx.1 (Or.inr hch))).1.symm.trans hx.1, hx.2⟩ hp hch
  obtain ⟨p, hp⟩ := Option.ne_none_iff_exists'.mp (h.inv.root s e hs hk List.not_mem_nil)
  have hc := sessionClose_spec pick hg hs2 hk ho fun hn => absurd hn id
  have hhang : hangUp pick s e2 (decd s W1) = sessionClose pick s (decd s W1) := by
    rw [hangUp, if_pos ho]
  have hdrop : (dropRef pick s W).1 =
      (released .sessionFree s p (sessionClose pick s (decd s W1))).del s := by
    show decref pick s W1 = _
    rw [decref, hx1]
    simp only [hk]
    rw [decrefSession, decrefBy_last hx1 h1, ← hhang]
    exact sessionDealloc_eq (hhang ▸ hc.good.inv) hs2 hk hp (hhang ▸ hc.heap)
  rw [← hcov]
  apply ended_iff (e := e2) pick hg hb2 (fun y hy => List.mem_singleton.mp hy) hs2 hk ho
  rw [hdrop]
  refine ⟨fun y hy => ?_, fun c hc => ?_, fun y _ => rfl, rfl, rfl⟩
  · rw [heap_del, if_neg hy, heap_released, if_neg hy]
  · rw [heap_del, if_pos rfl] at hc
    cases hc

/-- **The end of a session.**  After `Session.close`, or when the session is collected, nothing that was opened for
forwarding is open and no later call on it reaches libssh2 with anything of the session, exactly if Python
code refers to none of its listeners, its open channels are in its set and none is without a wrapper. -/
theorem forwarding_closed_iff (hr : Trans.Run (StepIf Forwarding) World.empty as W)
    (hs : W.heap s = some e) (hk : e.kind = .session) (ho : e.opened = true) (pick : Pick) (rc : Int) :
    (Ended s e.session (step W (.close s pick rc)).1 ↔ Covered s W) ∧
    (0 < W.held s → e.refcnt = 1 →
      (Ended s e.session (step W (.drop s pick)).1 ↔ Covered s W)) := by
  have h := (forwarding_good hr).1
  obtain ⟨g, hb⟩ := forwarding_books hr
  refine ⟨?_, fun hheld h1 => ended_dropRef pick h hb hs hk ho hheld h1⟩
  refine ended_iff pick h hb (fun y hy => absurd hy List.not_mem_nil) hs hk ho
    ⟨fun _ _ => rfl, fun c hc => ?_, fun _ _ => rfl, rfl, rfl⟩
  cases (sessionClose_spec pick h hs hk ho fun hn => absurd hn id).heap.symm.trans hc
  exact hk

theorem listening_forwarding : ∃ as, Trans.Run (StepIf Forwarding) World.empty as listening :=
  listening_run Forwarding trivial trivial (answers_startedSession _)

/-- Python code has dropped the listener -/
def forgotten : World := (step listening (.drop 3 fun _ _ _ => 0)).1

theorem forgotten_forwarding : ∃ as, Trans.Run (StepIf Forwarding) World.empty as forgotten := by
  obtain ⟨as, hr⟩ := listening_forwarding
  have h : StepIf Forwarding listening (.drop 3 fun _ _ _ => 0) forgotten := by
    refine ⟨fun c hc hk => ?_, ⟨.listener, by decide, _, rfl, rfl⟩, rfl⟩
    cases hc
    cases hk
  exact ⟨_, hr.snoc h⟩

theorem forgotten_cases (hx : forgotten.heap x = some c) :
    x = 1 ∧ c.kind = .session ∨ x = 3 ∧ c.kind = .listener := by
  by_cases h3 : x = 3
  · subst h3
    cases hx
    exact Or.inr ⟨rfl, rfl⟩
  by_cases h1 : x = 1
  · subst h1
    cases hx
    exact Or.inl ⟨rfl, rfl⟩
  have hdropped : forgotten.heap x = listening.heap x := heap_modify_of_ne _ _ _ _ h3
  have hinv : Inv [] [] startedSession :=
    (forwarding_good (startedSession_run Forwarding trivial trivial)).1.inv
  have hlistening : listening.heap x = startedSession.heap x := by
    rcases heap_openWith .channelForwardListen ⟨0, pageAddr 0⟩ 0 (answer 1) hinv
      (c := child 1 ⟨0, pageAddr 0⟩ .listener) (fun h => by cases h) with h | ⟨addr, h⟩
    · exact congrFun h x
    · exact (congrFun h x).trans (Function.update_of_ne h3 _ _)
  rw [hdropped, hlistening, heap_startedSession h1] at hx
  cases hx

theorem covered_forgotten : Covered 1 forgotten := by
  constructor
  · intro x c hx _ hk
    rcases forgotten_cases hx with ⟨_, h⟩ | ⟨rfl, _⟩
    · rw [h] at hk
      cases hk
    · rfl
  · intro x c p hx _ hk
    rcases forgotten_cases hx.1 with ⟨_, h⟩ | ⟨_, h⟩
    · rw [h] at hk
      cases hk
    · rw [h] at hk
      cases hk
  · intro r hr
    cases hr

theorem forwarding_closed_forgotten :
    Ended 1 ⟨0, pageAddr 0⟩ (step forgotten (.close 1 (fun _ _ _ => 0) 0)).1 ∧
    Ended 1 ⟨0, pageAddr 0⟩ (step forgotten (.drop 1 fun _ _ _ => 0)).1 := by
  obtain ⟨as, hr⟩ := forgotten_forwarding
  obtain ⟨h1, h2⟩ := forwarding_closed_iff (s := 1) hr rfl rfl rfl (fun _ _ _ => 0) 0
  exact ⟨h1.mpr covered_forgotten, (h2 (by decide) rfl).mpr covered_forgotten⟩

/-- the listener that Python refers to outlives the close -/
theorem listener_outlives : ¬ ∀ as W s e pick rc, Trans.Run (StepIf Forwarding) World.empty as W →
    W.heap s = some e → e.kind = .session → e.opened = true →
    Ended s e.session (step W (.close s pick rc)).1 := by
  intro hall
  obtain ⟨as, hr⟩ := listening_forwarding
  have h := hall as listening 1 _ (fun _ _ _ => 0) 0 hr rfl rfl rfl
  have h1 := h.gone.1 3 _ rfl rfl (Or.inl rfl)
  cases h1

end PyLibssh2

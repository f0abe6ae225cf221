import PyLibssh2.Ext.Own

/-!
# Dead handles

Methods that work on a handle test it first, and so do the closing functions of channels and sftps.
`PYLIBSSH2_Listener_accept`, `Listener_cancel`, `PYLIBSSH2_Sftpfile_close` and `PYLIBSSH2_Sftpdir_close` do
not, `Sftp_shutdown` runs the last one on whatever its sets contain, and a session that is freed leaves
behind the listeners that somebody else refers to and the channels that a listener accepted.

`Careful` says of a call that it does not run into one of these.  `careful_safe` shows that nothing
else is needed: in a run of careful calls every call into libssh2 is given a live handle.
-/

set_option linter.unusedSectionVars false
set_option linter.unusedVariables false

namespace PyLibssh2

open World Lifetime

variable {W : World} {x o s f l : Ref} {c d e : Obj} {p q : Ptr} {k : Kind} {as : List Act} {a : Act}

/-! ## the property -/

/-- every call of libssh2 was given a handle that was live then -/
def NoDeadHandle (W : World) : Prop :=
  ∀ e t t', W.calls = t' ++ e :: t →
    (∃ s, e = .init s) ∨ ∃ p, e.arg = some p ∧ Live (history t) p

/-- the objects whose handles a call is about -/
def Act.targets : Act → List Ref
  | .openFile f _ | .openDir f _ => [f]
  | .accept l _ => [l]
  | .channelClose _ x => [x]
  | .sftpShutdown _ f _ => [f]
  | .forwardCancel _ l => [l]
  | .closeFile f x | .closeDir f x => [f, x]
  | .method x _ => [x]
  | _ => []

/-- on an object whose handle is gone the call raises the library error or calls nothing -/
def GoneQuietly (W : World) (a : Act) : Prop :=
  ∀ x ∈ a.targets, ∀ c, W.heap x = some c → c.ptr = none →
    (step W a).2 = .raised .libssh2 ∨ (step W a).1.calls = W.calls

/-! ## the calls -/

/-- libssh2 returns no handle for a session that is not up -/
def Answered (W : World) : Act → Prop
  | .openSession s a | .scpSend s a | .scpRecv s a | .sftpInit s a | .directTcpip s a
  | .forwardListen s a | .accept s a | .openFile s a | .openDir s a =>
    ∀ e, W.heap s = some e → Answers W e.session a
  | _ => True

/-- the call does not hand an empty field to libssh2, and frees no session over open wrappers -/
def Careful (W : World) : Act → Prop
  | .accept l _ | .forwardCancel _ l => ∀ e, W.heap l = some e → e.ptr ≠ none
  | .closeFile f x | .closeDir f x => ∀ e c, W.heap f = some e → e.ptr ≠ none → W.heap x = some c →
    c.ptr ≠ none
  | .sftpInit s a => ∀ e, W.heap s = some e → Distinct W s e.session a
  | .sftpShutdown s f _ => Tidy f W ∧ ∀ c, W.heap f = some c →
    ∀ r ∈ W.reg s .sftp, HashSet.hit W.equal f c.hash r = true → r.1 = f
  | .close s _ _ => ∀ f ∈ W.members s .sftp, Tidy f W
  | .drop x _ => ∀ c, W.heap x = some c → c.refcnt = 1 →
    (c.kind = .sftp → Tidy x W) ∧
    (c.kind = .session → Releasable x W ∧ ∀ f ∈ W.members x .sftp, Tidy f W)
  | _ => True

theorem careful_allowed (ha : Answered W a) (hc : Careful W a) : Allowed False True W a := by
  cases a with
  | session A => trivial
  | startup s rc => trivial
  | openSession s A => exact ⟨fun h => absurd h id, ha⟩
  | scpSend s A => exact ⟨fun h => absurd h id, ha⟩
  | scpRecv s A => exact ⟨fun h => absurd h id, ha⟩
  | sftpInit s A => exact ⟨fun h => absurd h id, fun e hs => ⟨ha e hs, hc e hs⟩⟩
  | directTcpip s A => exact id
  | forwardListen s A => exact ⟨id, ha⟩
  | accept l A => exact ⟨id, fun e hl => Or.inl (hc e hl)⟩
  | openFile f A => exact fun h => absurd h id
  | openDir f A => exact fun h => absurd h id
  | channelClose s x => exact fun _ _ h => absurd h id
  | sftpShutdown s f pick => exact fun c hf => ⟨hc.2 c hf, fun _ => hc.1, fun h => absurd h id⟩
  | forwardCancel s l => exact fun e hl => ⟨fun _ => hc e hl, fun h => absurd h id⟩
  | closeFile f x => exact fun e c hf hp hx => ⟨fun _ => hc e c hf hp hx, fun h => absurd h id⟩
  | closeDir f x => exact fun e c hf hp hx => ⟨fun _ => hc e c hf hp hx, fun h => absurd h id⟩
  | close s pick rc => exact fun _ => hc
  | drop x pick =>
    exact fun c hx h1 => ⟨fun _ hk => (hc c hx h1).1 hk, fun hk =>
      ⟨((hc c hx h1).2 hk).1, fun _ => ((hc c hx h1).2 hk).2⟩⟩
  | method x m => trivial
  | sessionMethod s fn => trivial

theorem noDeadHandle_of (hs : Sound W.history) (hc : Clean W) : NoDeadHandle W := by
  intro e t t' ht
  have hmem : e ∈ W.calls := by rw [ht]; exact List.mem_append_right _ List.mem_cons_self
  obtain ⟨p, hp⟩ := Option.ne_none_iff_exists'.mp (hc e hmem)
  have hh : W.history = history t' ++ (e.events ++ history t) := by
    show W.calls.flatMap Call.events = _
    rw [ht, List.flatMap_append, List.flatMap_cons]
    rfl
  rw [hh] at hs
  have h1 : Sound (e.events ++ history t) := hs.of_append
  -- the event that is about the argument is the last one of the call
  have hlast : ∀ ev us, e.events = us ++ [ev] → ev.needs = [p] → Live (history t) p := by
    intro ev us hev hneed
    rw [hev, List.append_assoc] at h1
    exact (Sound.of_append h1).1.2 p (by rw [hneed]; exact List.mem_singleton.mpr rfl)
  cases e with
  | init s => exact Or.inl ⟨s, rfl⟩
  | startup arg rc =>
    cases arg <;> cases hp
    exact Or.inr ⟨p, rfl, hlast (.use p) [] rfl rfl⟩
  | disconnect arg =>
    cases arg <;> cases hp
    exact Or.inr ⟨p, rfl, hlast (.settle p) [] rfl rfl⟩
  | acquire fn arg got os =>
    cases arg <;> cases hp
    exact Or.inr ⟨p, rfl, hlast (.use p) _ rfl rfl⟩
  | use fn arg =>
    cases arg <;> cases hp
    exact Or.inr ⟨p, rfl, hlast (.use p) [] rfl rfl⟩
  | free fn arg =>
    cases arg <;> cases hp
    exact Or.inr ⟨p, rfl, hlast (.release p) [] rfl rfl⟩

/-! ## calls on objects whose handle is gone -/

theorem channelClose_gone (h : Good False True [] [] W) (hx : W.heap x = some c)
    (hk : c.kind = .channel) (hheld : 0 < W.held x) (hp : c.ptr = none) :
    (Session.channelClose s x W).1.calls = W.calls := by
  have hd : Discards False True [] s .channel x c W (setDiscard decrefChannel s .channel x W) :=
    good_setDiscard h hx hk (by decide) hheld fun r _ hr => hit_self_only hx (by rw [hk]; decide) hr
  obtain ⟨m, hm⟩ := hd.heap
  show (channelClose x (setDiscard decrefChannel s .channel x W)).calls = _
  rw [channelClose_closed hm hp, hd.calls]

theorem sftpShutdown_gone {pick : Pick} (h : Good False True [] [] W) (hf : W.heap f = some c)
    (hk : c.kind = .sftp) (hheld : 0 < W.held f) (hp : c.ptr = none)
    (hself : ∀ r ∈ W.reg s .sftp, HashSet.hit W.equal f c.hash r = true → r.1 = f) :
    (Session.sftpShutdown pick s f W).1.calls = W.calls := by
  have hd : Discards False True [] s .sftp f c W (setDiscard (decrefSftp pick) s .sftp f W) :=
    good_setDiscard h hf hk (by decide) hheld hself
  obtain ⟨m, hm⟩ := hd.heap
  show (sftpShutdown pick f (setDiscard (decrefSftp pick) s .sftp f W)).calls = _
  rw [sftpShutdown_closed hm hp, hd.calls]

/-- a call that closes `x` through `f` has a closed target only if `f` is closed -/
theorem parent_closed {y : Ref} (hf : W.heap f = some e) (hx : x ∈ [f, y]) (hxc : W.heap x = some c)
    (hp : c.ptr = none)
    (hc : ∀ e c, W.heap f = some e → e.ptr ≠ none → W.heap y = some c → c.ptr ≠ none) : e.ptr = none := by
  by_contra he
  rcases List.mem_cons.mp hx with rfl | h1
  · cases hxc.symm.trans hf
    exact he hp
  · cases List.mem_singleton.mp h1
    exact hc e c hf he hxc hp

theorem careful_gone (h : Good False True [] [] W) (hen : Enabled W a) (hc : Careful W a) :
    GoneQuietly W a := by
  intro x hx c hxc hp
  cases a with
  | openFile f A =>
    cases List.mem_singleton.mp hx
    exact Or.inl (by simp only [step, Sftp.openFile, openHandle_closed hxc hp])
  | openDir f A =>
    cases List.mem_singleton.mp hx
    exact Or.inl (by simp only [step, Sftp.openDir, openHandle_closed hxc hp])
  | accept l A =>
    cases List.mem_singleton.mp hx
    exact absurd hp (hc c hxc)
  | channelClose s y =>
    cases List.mem_singleton.mp hx
    obtain ⟨_, hheld, d, hd, hk⟩ := hen
    cases hxc.symm.trans hd
    exact Or.inr (channelClose_gone h hxc hk hheld hp)
  | sftpShutdown s f pick =>
    cases List.mem_singleton.mp hx
    obtain ⟨_, hheld, d, hd, hk⟩ := hen
    cases hxc.symm.trans hd
    exact Or.inr (sftpShutdown_gone h hxc hk hheld hp (hc.2 c hxc))
  | forwardCancel s l =>
    cases List.mem_singleton.mp hx
    exact absurd hp (hc c hxc)
  | closeFile f y =>
    obtain ⟨⟨_, e, hf, _⟩, _, d, hd, _⟩ := hen
    have he : e.ptr = none := parent_closed hf hx hxc hp hc
    apply Or.inl
    simp only [step, Sftp.closeFile, ptr_of_heap hf, he]
  | closeDir f y =>
    obtain ⟨⟨_, e, hf, _⟩, _, d, hd, _⟩ := hen
    have he : e.ptr = none := parent_closed hf hx hxc hp hc
    apply Or.inl
    simp only [step, Sftp.closeDir, ptr_of_heap hf, he]
  | method y m =>
    cases List.mem_singleton.mp hx
    exact Or.inl (by simp only [step, method_closed hxc hp])
  | session A => exact absurd hx List.not_mem_nil
  | startup s rc => exact absurd hx List.not_mem_nil
  | openSession s A => exact absurd hx List.not_mem_nil
  | scpSend s A => exact absurd hx List.not_mem_nil
  | scpRecv s A => exact absurd hx List.not_mem_nil
  | sftpInit s A => exact absurd hx List.not_mem_nil
  | directTcpip s A => exact absurd hx List.not_mem_nil
  | forwardListen s A => exact absurd hx List.not_mem_nil
  | close s pick rc => exact absurd hx List.not_mem_nil
  | drop y pick => exact absurd hx List.not_mem_nil
  | sessionMethod s fn => exact absurd hx List.not_mem_nil

/-- **No dead handle in a run of careful calls.** -/
theorem careful_safe (hr : Trans.Run (StepIf fun W a => Answered W a ∧ Careful W a) World.empty as W) :
    NoDeadHandle W ∧ ∀ a, Enabled W a → Careful W a → GoneQuietly W a := by
  have h : Good False True [] [] W := good_run (fun _ _ _ _ ha => careful_allowed ha.1 ha.2) hr
  exact ⟨noDeadHandle_of h.inv.sound (h.clean trivial), fun a hen hc => careful_gone h hen hc⟩

/-! ### a listener that is cancelled twice -/

def listening : World := (step startedSession (.forwardListen 1 (answer 1))).1

def cancelled : World := (step listening (.forwardCancel 1 3)).1

def cancelledTwice : World := (step cancelled (.forwardCancel 1 3)).1

theorem listening_run (C : World → Act → Prop) (h1 : C World.empty (.session (pageAddr 0)))
    (h2 : C (step World.empty (.session (pageAddr 0))).1 (.startup 1 0))
    (h3 : C startedSession (.forwardListen 1 (answer 1))) :
    ∃ as, Trans.Run (StepIf C) World.empty as listening := by
  have g3 : StepIf C startedSession (.forwardListen 1 (answer 1)) listening :=
    ⟨h3, ⟨by decide, _, rfl, rfl⟩, rfl⟩
  exact ⟨_, (startedSession_run C h1 h2).snoc g3⟩

theorem answers_startedSession (a : Answer) :
    ∀ e, startedSession.heap 1 = some e → Answers startedSession e.session a := by
  intro e he _
  cases he
  decide

theorem careful_safe_cancelled : NoDeadHandle cancelled := by
  obtain ⟨as, hr⟩ := listening_run (fun W a => Answered W a ∧ Careful W a) ⟨trivial, trivial⟩
    ⟨trivial, trivial⟩ ⟨answers_startedSession _, trivial⟩
  have h1 : StepIf (fun W a => Answered W a ∧ Careful W a) listening (.forwardCancel 1 3)
      cancelled := by
    refine ⟨⟨trivial, fun e he => ?_⟩, ⟨⟨by decide, _, rfl, rfl⟩, by decide, _, rfl, rfl⟩, rfl⟩
    cases he
    exact Option.some_ne_none _
  exact (careful_safe (hr.snoc h1)).1

/-- the second cancel hands `NULL` to libssh2 -/
theorem forwardCancel_twice : ¬ ∀ as W, Trans.Run (StepIf Answered) World.empty as W →
    NoDeadHandle W ∧ ∀ a, Enabled W a → Answered W a → GoneQuietly W a := by
  intro hall
  obtain ⟨as, hr⟩ := listening_run Answered trivial trivial (answers_startedSession _)
  have h1 : StepIf Answered listening (.forwardCancel 1 3) cancelled :=
    ⟨trivial, ⟨⟨by decide, _, rfl, rfl⟩, by decide, _, rfl, rfl⟩, rfl⟩
  have h2 : StepIf Answered cancelled (.forwardCancel 1 3) cancelledTwice :=
    ⟨trivial, ⟨⟨by decide, _, rfl, rfl⟩, by decide, _, rfl, rfl⟩, rfl⟩
  obtain ⟨hsafe, _⟩ := hall _ cancelledTwice ((hr.snoc h1).snoc h2)
  rcases hsafe (.free .channelForwardCancel none) cancelled.calls [] rfl with ⟨s, hs⟩ | ⟨p, hp, _⟩
  · cases hs
  · cases hp

end PyLibssh2

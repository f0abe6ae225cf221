import PyLibssh2.Ext.Opening

/-!
# Every call of the module keeps the invariant

`Allowed b n W a` says what has to hold before the call `a`, and `good_step` that the invariant holds
after it.  The conditions on a call are about what it is given and about the state it starts from;
with `b` they ask for the strict part, with `n` for calls without `NULL`.
-/

set_option linter.unusedSectionVars false
set_option linter.unusedVariables false

namespace PyLibssh2

open World Lifetime

variable {b n : Prop} {W W' : World} {x y o s f l : Ref} {c d e : Obj} {p q : Ptr} {k : Kind}
  {a : Act} {pick : Pick}

/-! ## methods that close -/

theorem good_sessionChannelClose (h : Good b n [] [] W) (hx : W.heap x = some c)
    (hk : c.kind = .channel) (hheld : 0 < W.held x) (hb : b → c.parent = s) :
    Good b n [] [] (Session.channelClose s x W).1 := by
  have hleaf : c.kind.Leaf := by rw [hk]; exact ⟨by decide, by decide⟩
  have hd : Discards b n [] s .channel x c W (setDiscard decrefChannel s .channel x W) :=
    good_setDiscard h hx hk (by decide) hheld fun r _ hr => hit_self_only hx (by rw [hk]; decide) hr
  obtain ⟨m, hm⟩ := hd.heap
  have h1 := good_channelClose hd.good hm hleaf fun h2 h3 => hd.out h2 (hb h2) h3
  exact h1.shut ((closes_channelClose hm).shut hm hleaf.1)

/-- `forward_cancel`, `close_file` and `close_dir` after their tests -/
theorem good_discardGiveBack {dealloc : Ref → World → World} {fn : FreeFn} (h : Good b n [] [] W)
    (hx : W.heap x = some c) (hk : c.kind = k) (hleaf : k.Leaf) (hheld : 0 < W.held x)
    (hn : n → c.ptr ≠ none) (hb : b → c.parent = o) :
    Good b n [] [] (giveBack fn x (setDiscard (decrefBy dealloc) o k x W)) := by
  have hleaf' : c.kind.Leaf := hk ▸ hleaf
  have hd : Discards b n [] o k x c W (setDiscard (decrefBy dealloc) o k x W) :=
    good_setDiscard h hx hk hleaf.1 hheld fun r _ hr => hit_self_only hx hleaf'.2 hr
  obtain ⟨m, hm⟩ := hd.heap
  have h1 := good_giveBack hd.good fn hm hleaf' hn fun h2 h3 => hd.out h2 (hb h2) h3
  exact h1.shut ((closes_giveBack fn hm).shut hm hleaf'.1)

theorem good_sessionSftpShutdown (h : Good b n [] [] W) (hx : W.heap f = some c) (hk : c.kind = .sftp)
    (hheld : 0 < W.held f)
    (hself : ∀ r ∈ W.reg s .sftp, HashSet.hit W.equal f c.hash r = true → r.1 = f)
    (hn : n → Tidy f W) (hb : b → c.parent = s) :
    Good b n [] [] (Session.sftpShutdown pick s f W).1 := by
  have hd : Discards b n [] s .sftp f c W (setDiscard (decrefSftp pick) s .sftp f W) :=
    good_setDiscard h hx hk (by decide) hheld hself
  obtain ⟨m, hm⟩ := hd.heap
  have htidy : n → Tidy f (setDiscard (decrefSftp pick) s .sftp f W) := by
    intro h1 j y d hy hd'
    have hyW := hd.only.members f j y hy
    have hyf : y ≠ f := by
      rintro rfl
      obtain ⟨t, ht, hj⟩ := h.inv.owner y j y hyW
      rw [hx] at ht
      cases ht
      rw [hk, ← (h.inv.member_kind hx hyW).1, hk] at hj
      cases hj
    exact hn h1 j y d hyW (hd.only.heap y hyf ▸ hd')
  have h1 := good_sftpShutdown pick hd.good hm hk (fun y hy => List.mem_singleton.mp hy) htidy
    fun h2 h3 => by
      have h4 := hd.out h2 (hb h2) h3
      rwa [hk] at h4
  exact h1.good.shut (h1.shut hk)

theorem good_sessionClose (h : Good b n [] [] W) (hs : W.heap s = some e) (hk : e.kind = .session)
    (hn : n → ∀ f ∈ W.members s .sftp, Tidy f W) : Good b n [] [] (sessionClose pick s W) := by
  cases ho : e.opened with
  | true => exact (sessionClose_spec _ h hs hk ho hn).good
  | false =>
    rw [sessionClose_shut hs ho]
    exact h

/-! ## methods that work on a handle -/

theorem good_failUse {body : Body} {rc : Int} (h : Good b n [] [] W) (hx : W.Open x c p)
    (hk : c.kind ≠ .session) : Good b n [] [] (failUse body c rc W) := by
  have hlast : ∀ V, Good b n [] [] V → V.Open x c p →
      Good b n [] [] (if c.kind = .sftp ∧ rc = errorSftpProtocol then
        V.log (.use .sftpLastError c.ptr) else V) := by
    intro V hV hVx
    split
    · rw [hVx.2]
      exact hV.use (hV.inv.live_ptr hVx) _
    · exact hV
  rw [failUse]
  cases body.lastError with
  | true => exact hlast _ (h.use (h.inv.live_session hx hk) _) hx
  | false => exact hlast _ h hx

theorem guarded_closed {body : Body} {rc : Int} (hx : W.heap x = some c) (hp : c.ptr = none) :
    guarded body x rc W = (W, .raised .libssh2) := by
  simp only [guarded, hx, hp]

theorem good_guarded {body : Body} {rc : Int} (h : Good b n [] [] W) (hx : W.heap x = some c)
    (hk : c.kind ≠ .session) : Good b n [] [] (guarded body x rc W).1 := by
  cases hp : c.ptr with
  | none =>
    rw [guarded_closed hx hp]
    exact h
  | some p =>
    have hxo : W.Open x c p := ⟨hx, hp⟩
    have h1 : Good b n [] [] (W.log (.use body.fn (some p))) := h.use (h.inv.live_ptr hxo) _
    have hg : (guarded body x rc W).1 = if body.fails rc = true then
        failUse body c rc (W.log (.use body.fn (some p))) else W.log (.use body.fn (some p)) := by
      simp only [guarded, hx, hp]
      split <;> rfl
    rw [hg]
    split
    · exact good_failUse h1 hxo hk
    · exact h1

theorem channelRead_closed {eof rc : Int} (hx : W.heap x = some c) (hp : c.ptr = none) :
    Channel.read x eof rc W = (W, .raised .libssh2) := by
  simp only [Channel.read, hx, hp]

theorem good_channelRead {eof rc : Int} (h : Good b n [] [] W) (hx : W.heap x = some c)
    (hk : c.kind ≠ .session) : Good b n [] [] (Channel.read x eof rc W).1 := by
  cases hp : c.ptr with
  | none =>
    rw [channelRead_closed hx hp]
    exact h
  | some p =>
    have h1 : Good b n [] [] (W.log (.use .channelEof (some p))) :=
      h.use (h.inv.live_ptr ⟨hx, hp⟩) _
    simp only [Channel.read, hx, hp]
    split
    · exact h1
    · exact good_guarded h1 hx hk

theorem heap_guarded {body : Body} {rc : Int} : (guarded body x rc W).1.heap = W.heap := by
  unfold guarded
  split
  · rfl
  · split
    · rfl
    · simp only
      split
      · unfold failUse
        simp only
        split <;> split <;> rfl
      · rfl

theorem good_listFiles {rcs : List Int} (h : Good b n [] [] W) (hx : W.heap x = some c)
    (hk : c.kind ≠ .session) : Good b n [] [] (Sftpdir.listFiles x rcs W).1 := by
  induction rcs generalizing W with
  | nil => exact good_guarded h hx hk
  | cons rc rcs ih =>
    rw [Sftpdir.listFiles]
    split
    · exact good_guarded h hx hk
    · refine ih (good_guarded h hx hk) ?_
      rw [Sftpdir.read, heap_guarded, hx]

theorem listFiles_closed {rcs : List Int} (hx : W.heap x = some c) (hp : c.ptr = none) :
    Sftpdir.listFiles x rcs W = (W, .raised .libssh2) := by
  cases rcs with
  | nil => exact guarded_closed hx hp
  | cons rc rcs =>
    rw [Sftpdir.listFiles, if_pos (Or.inr (by rw [ptr_of_heap hx, hp]))]
    exact guarded_closed hx hp

theorem Method.kind_ne (m : Method) : m.kind ≠ .session := by cases m <;> exact fun h => by cases h

theorem good_method {m : Method} (h : Good b n [] [] W) (hx : W.heap x = some c)
    (hk : c.kind = m.kind) : Good b n [] [] (m.run x W).1 := by
  have hns : c.kind ≠ .session := hk ▸ m.kind_ne
  cases m
  case read => exact good_channelRead h hx hns
  case dirListFiles => exact good_listFiles h hx hns
  all_goals exact good_guarded h hx hns

theorem method_closed {m : Method} (hx : W.heap x = some c) (hp : c.ptr = none) :
    m.run x W = (W, .raised .libssh2) := by
  cases m
  case read => exact channelRead_closed hx hp
  case dirListFiles => exact listFiles_closed hx hp
  all_goals exact guarded_closed hx hp

/-! ## dropping a reference -/

/-- the reference that Python gives up is C's for the moment -/
theorem good_held (h : Good b n [] [] W) (hheld : 0 < W.held x) :
    Good b n [x] [] { W with held := Function.update W.held x (W.held x - 1) } := by
  have hsame : SameBut W { W with held := Function.update W.held x (W.held x - 1) } :=
    ⟨fun y e he => ⟨e.refcnt, he⟩, fun y d hd => ⟨d, hd, rfl⟩, rfl, rfl, rfl⟩
  refine ⟨h.inv.same hsame fun y d hd => ?_, fun hb => (h.strict hb).same hsame, h.clean⟩
  have h2 := h.inv.refs y d hd
  show Function.update W.held x (W.held x - 1) y + _ + _ ≤ _
  rw [List.count_nil] at h2
  by_cases hyx : y = x
  · rw [hyx, Function.update_self, List.count_singleton_self]
    rw [hyx] at h2
    omega
  · rw [Function.update_of_ne hyx, List.count_cons_of_ne (Ne.symm hyx), List.count_nil]
    exact h2

theorem good_dropRef (h : Good b n [] [] W) (hx : W.heap x = some c) (hheld : 0 < W.held x)
    (hsftp : n → c.kind = .sftp → c.refcnt = 1 → Tidy x W)
    (hsess : c.kind = .session → c.refcnt = 1 →
      Releasable x W ∧ (n → ∀ f ∈ W.members x .sftp, Tidy f W)) :
    Good b n [] [] (dropRef pick x W).1 :=
  good_decref pick (good_held h hheld) hx hsftp hsess

/-! ## every call -/

def Allowed (b n : Prop) (W : World) : Act → Prop
  | .session _ | .startup _ _ | .method _ _ | .sessionMethod _ _ => True
  | .openSession s a | .scpSend s a | .scpRecv s a =>
    (b → a.alloc = true) ∧ ∀ e, W.heap s = some e → Answers W e.session a
  | .sftpInit s a =>
    (b → a.alloc = true) ∧ ∀ e, W.heap s = some e → Answers W e.session a ∧ Distinct W s e.session a
  | .directTcpip _ _ => ¬ b
  | .forwardListen s a => ¬ b ∧ ∀ e, W.heap s = some e → Answers W e.session a
  | .accept l a => ¬ b ∧ ∀ e, W.heap l = some e → e.ptr ≠ none ∨ (¬ n ∧ Live W.history e.session)
  | .openFile _ a | .openDir _ a => b → a.alloc = true
  | .channelClose s x => ∀ c, W.heap x = some c → b → c.parent = s
  | .sftpShutdown s f _ => ∀ c, W.heap f = some c →
    (∀ r ∈ W.reg s .sftp, HashSet.hit W.equal f c.hash r = true → r.1 = f) ∧ (n → Tidy f W) ∧
    (b → c.parent = s)
  | .forwardCancel s l => ∀ e, W.heap l = some e → (n → e.ptr ≠ none) ∧ (b → e.parent = s)
  | .closeFile f x | .closeDir f x => ∀ e c, W.heap f = some e → e.ptr ≠ none → W.heap x = some c →
    (n → c.ptr ≠ none) ∧ (b → c.parent = f)
  | .close s _ _ => n → ∀ f ∈ W.members s .sftp, Tidy f W
  | .drop x _ => ∀ c, W.heap x = some c → c.refcnt = 1 →
    (n → c.kind = .sftp → Tidy x W) ∧
    (c.kind = .session → Releasable x W ∧ (n → ∀ f ∈ W.members x .sftp, Tidy f W))

theorem good_accept_closed {A : Answer} (h : Good b n [] [] W) (hl : W.heap l = some e)
    (hp : e.ptr = none) (hn : ¬ n) (hlive : Live W.history e.session) :
    Good b n [] [] (Listener.accept l A W).1 := by
  have h1 : Good b n [] [] (W.log (.acquire .channelForwardAccept none none [])) :=
    ⟨h.inv.log_null rfl fun _ _ => rfl, fun hb => (h.strict hb).log_null rfl, fun h2 => absurd h2 hn⟩
  have hacc : (Listener.accept l A W).1 =
      (failOpen e.session (W.log (.acquire .channelForwardAccept none none []))).1 := by
    simp only [Listener.accept, hl, hp]
  rw [hacc]
  apply good_failOpen h1
  rw [history_log]
  exact hlive

/-- **Every call that is allowed keeps the invariant.** -/
theorem good_step (h : Good b n [] [] W) (hen : Enabled W a) (ha : Allowed b n W a) :
    Good b n [] [] (step W a).1 := by
  cases a with
  | session A => exact good_sessionInit h
  | startup s rc =>
    obtain ⟨_, e, hs, hk⟩ := hen
    exact good_startup h hs hk
  | openSession s A =>
    obtain ⟨_, e, hs, hk⟩ := hen
    exact good_openChild h hs hk rfl (ha.2 e hs) (fun h1 => by cases h1) fun hb => ⟨ha.1 hb, by decide⟩
  | scpSend s A =>
    obtain ⟨_, e, hs, hk⟩ := hen
    exact good_openChild h hs hk rfl (ha.2 e hs) (fun h1 => by cases h1) fun hb => ⟨ha.1 hb, by decide⟩
  | scpRecv s A =>
    obtain ⟨_, e, hs, hk⟩ := hen
    exact good_scpRecv h hs hk (ha.2 e hs) ha.1
  | sftpInit s A =>
    obtain ⟨_, e, hs, hk⟩ := hen
    exact good_openChild h hs hk rfl (ha.2 e hs).1 (fun _ => (ha.2 e hs).2) fun hb =>
      ⟨ha.1 hb, by decide⟩
  | directTcpip s A =>
    obtain ⟨_, e, hs, hk⟩ := hen
    exact good_directTcpip h hs hk ha
  | forwardListen s A =>
    obtain ⟨_, e, hs, hk⟩ := hen
    exact good_openChild h hs hk rfl (ha.2 e hs) (fun h1 => by cases h1) fun hb => absurd hb ha.1
  | accept l A =>
    obtain ⟨_, e, hl, hk⟩ := hen
    cases hp : e.ptr with
    | some p => exact good_accept h ⟨hl, hp⟩ hk ha.1
    | none =>
      rcases ha.2 e hl with h1 | ⟨hn, hlive⟩
      · exact absurd hp h1
      · exact good_accept_closed h hl hp hn hlive
  | openFile f A =>
    obtain ⟨_, e, hf, hk⟩ := hen
    exact good_openHandle h hf hk (Or.inl rfl) ha
  | openDir f A =>
    obtain ⟨_, e, hf, hk⟩ := hen
    exact good_openHandle h hf hk (Or.inr rfl) ha
  | channelClose s x =>
    obtain ⟨_, hheld, c, hx, hk⟩ := hen
    exact good_sessionChannelClose h hx hk hheld (ha c hx)
  | sftpShutdown s f pick =>
    obtain ⟨_, hheld, c, hf, hk⟩ := hen
    obtain ⟨h1, h2, h3⟩ := ha c hf
    exact good_sessionSftpShutdown h hf hk hheld h1 h2 h3
  | forwardCancel s l =>
    obtain ⟨_, hheld, e, hl, hk⟩ := hen
    exact good_discardGiveBack h hl hk ⟨by decide, by decide⟩ hheld (ha e hl).1 (ha e hl).2
  | closeFile f x =>
    obtain ⟨⟨_, e, hf, _⟩, hheld, c, hx, hk⟩ := hen
    cases hp : e.ptr with
    | none =>
      have hclose : (step W (.closeFile f x)).1 = W := by
        simp only [step, Sftp.closeFile, ptr_of_heap hf, hp]
      rw [hclose]
      exact h
    | some p =>
      have hclose : (step W (.closeFile f x)).1 =
          sftpfileClose x (setDiscard decrefFile f .file x W) := by
        simp only [step, Sftp.closeFile, ptr_of_heap hf, hp]
      rw [hclose]
      obtain ⟨h1, h2⟩ := ha e c hf (by rw [hp]; exact Option.some_ne_none p) hx
      exact good_discardGiveBack h hx hk ⟨by decide, by decide⟩ hheld h1 h2
  | closeDir f x =>
    obtain ⟨⟨_, e, hf, _⟩, hheld, c, hx, hk⟩ := hen
    cases hp : e.ptr with
    | none =>
      have hclose : (step W (.closeDir f x)).1 = W := by
        simp only [step, Sftp.closeDir, ptr_of_heap hf, hp]
      rw [hclose]
      exact h
    | some p =>
      have hclose : (step W (.closeDir f x)).1 = sftpdirClose x (setDiscard decrefDir f .dir x W) := by
        simp only [step, Sftp.closeDir, ptr_of_heap hf, hp]
      rw [hclose]
      obtain ⟨h1, h2⟩ := ha e c hf (by rw [hp]; exact Option.some_ne_none p) hx
      exact good_discardGiveBack h hx hk ⟨by decide, by decide⟩ hheld h1 h2
  | close s pick rc =>
    obtain ⟨_, e, hs, hk⟩ := hen
    exact good_sessionClose h hs hk ha
  | drop x pick =>
    obtain ⟨k, hheld, c, hx, _⟩ := hen
    exact good_dropRef h hx hheld (fun hn hk h1 => (ha c hx h1).1 hn hk) fun hk h1 => (ha c hx h1).2 hk
  | method x m =>
    obtain ⟨_, c, hx, hk⟩ := hen
    exact good_method h hx hk
  | sessionMethod s fn =>
    obtain ⟨_, e, hs, hk⟩ := hen
    have h1 : (step W (.sessionMethod s fn)).1 = W.log (.use fn (some e.session)) := by
      simp only [step, Session.method, onSession_eq hs]
    rw [h1]
    exact h.use (h.inv.live_ptr (h.inv.session_open hs hk)) _

theorem not_open_empty : ¬ World.empty.Open x c p := fun h => by cases h.1

theorem heap_empty : World.empty.heap x ≠ some c := fun h => by cases h

theorem inv_empty : Inv [] [] World.empty where
  sound := trivial
  nodup _ _ := List.nodup_nil
  entry _ _ _ hx := absurd hx List.not_mem_nil
  owner _ _ _ hx := absurd hx List.not_mem_nil
  stored _ _ _ _ _ _ hx := absurd hx List.not_mem_nil
  home _ _ _ hx := absurd hx not_open_empty
  refs _ _ hx := absurd hx heap_empty
  par _ _ _ hx := absurd hx not_open_empty
  kin _ _ _ hx := absurd hx heap_empty
  live _ _ _ hx := absurd hx not_open_empty
  inj _ _ _ _ _ hx := absurd hx not_open_empty
  shut _ _ hx := absurd hx heap_empty
  started _ _ _ hx := absurd hx not_open_empty
  young _ _ := rfl
  parents _ _ hx := absurd hx heap_empty
  serials _ _ hm := absurd hm List.not_mem_nil
  leaf _ _ hx := absurd hx heap_empty
  root _ _ hx := absurd hx heap_empty

theorem strict_empty : Strict World.empty where
  exact _ _ _ _ hx := absurd hx List.not_mem_nil
  owned _ _ hm := absurd hm List.not_mem_nil
  orderly := trivial
  apart _ _ _ _ _ hx := absurd hx List.not_mem_nil
  mine _ _ _ hx := absurd hx not_open_empty

theorem good_empty : Good b n [] [] World.empty :=
  ⟨inv_empty, fun _ => strict_empty, fun _ _ he => absurd he List.not_mem_nil⟩

/-- the calls of a run that meet the condition `C` -/
def StepIf (C : World → Act → Prop) (W : World) (a : Act) (W' : World) : Prop := C W a ∧ Step W a W'

/-- **The invariant holds after every run of allowed calls.** -/
theorem good_run {C : World → Act → Prop} {as : List Act}
    (hC : ∀ W a, Good b n [] [] W → Enabled W a → C W a → Allowed b n W a)
    (hr : Trans.Run (StepIf C) World.empty as W) : Good b n [] [] W := by
  apply hr.inv (Good b n [] []) good_empty
  rintro V a V' hV ⟨hc, hen, rfl⟩
  exact good_step hV hen (hC V a hV hen hc)

end PyLibssh2

import PyLibssh2.Ext.Calls

/-!
# Who owns a handle

`Owning` describes the programs that open channels, sftps, files and directories, close every one of
them through the object that opened it, close sessions and drop references, in any order.  The
registries of such a program contain exactly the open wrappers, no handle is released twice, and what
was opened below a handle is released before the handle.

About libssh2 it is assumed that an open call returns a handle only for a session that is up, about
memory that `PyObject_New` and `PySet_Add` succeed, and about addresses that two sftps that are open
in one session do not hash alike.
-/

set_option linter.unusedSectionVars false
set_option linter.unusedVariables false

namespace PyLibssh2

open World Lifetime

variable {W : World} {x o s f : Ref} {c d e : Obj} {p q : Ptr} {k : Kind} {as : List Act}

/-! ## the programs -/

/-- the sftp that libssh2 returns does not hash like one that is open in the session -/
def Unlike (W : World) (s : Ref) (session : Ptr) (a : Answer) : Prop :=
  ∀ addr, a.ret = some addr → ∀ y d q, W.Open y d q → d.kind = .sftp → d.parent = s →
    d.hash ≠ hashPtrs (some ⟨W.fresh, addr⟩) (some session)

/-- the calls of a program that closes objects through their parents -/
def Owning (W : World) : Act → Prop
  | .session _ | .startup _ _ | .close _ _ _ | .drop _ _ | .method _ _ | .sessionMethod _ _ => True
  | .openSession s a | .scpSend s a | .scpRecv s a =>
    a.alloc = true ∧ ∀ e, W.heap s = some e → Answers W e.session a
  | .sftpInit s a =>
    a.alloc = true ∧ ∀ e, W.heap s = some e → Answers W e.session a ∧ Unlike W s e.session a
  | .openFile _ a | .openDir _ a => a.alloc = true
  | .channelClose s x | .sftpShutdown s x _ | .closeFile s x | .closeDir s x =>
    ∀ c, W.heap x = some c → c.parent = s
  | .directTcpip _ _ | .forwardListen _ _ | .accept _ _ | .forwardCancel _ _ => False

theorem Strict.stored (h : Good True False [] [] W) {g : BitVec 64} (hm : (x, g) ∈ W.reg o k) :
    ∃ c p, W.Open x c p ∧ c.kind = k ∧ c.parent = o ∧ g = c.hash := by
  have hmem : x ∈ W.members o k := HashSet.mem_keys.mpr ⟨g, hm⟩
  obtain ⟨c, hc, hk, ho⟩ := h.inv.entry o k x hmem
  obtain ⟨p, hp⟩ := Option.ne_none_iff_exists'.mp ((h.strict trivial).exact o k x c hmem hc)
  exact ⟨c, p, ⟨hc, hp⟩, hk, ho, h.inv.stored o k x g c p hm ⟨hc, hp⟩⟩

/-- a discard through the parent finds the sftp itself or nothing, open or closed -/
theorem Strict.hit_self (h : Good True False [] [] W) (hf : W.heap f = some c) (hk : c.kind = .sftp)
    (hs : W.heap s = some e) (hp : c.parent = s) {r : Ref × BitVec 64} (hr : r ∈ W.reg s .sftp)
    (hhit : HashSet.hit W.equal f c.hash r = true) : r.1 = f := by
  obtain ⟨d, q, hd, hdk, hdp, hg⟩ := Strict.stored (x := r.1) (g := r.2) h hr
  have hhash : d.hash = c.hash := by
    unfold HashSet.hit at hhit
    simp at hhit
    rw [← hg]
    exact hhit.1
  by_contra hne
  cases hcp : c.ptr with
  | some p =>
    have hm := h.inv.home f c p ⟨hf, hcp⟩
      ((h.strict trivial).mine f c p ⟨hf, hcp⟩ (by rw [hk]; decide)).1 (by rw [hk]; decide)
      List.not_mem_nil
    rw [hp, hk] at hm
    have hmr : r.1 ∈ W.members s .sftp := HashSet.mem_keys.mpr ⟨_, hr⟩
    exact (h.strict trivial).apart s r.1 f d c hmr hm hne hd.1 hf hhash
  | none =>
    have hses : d.session = c.session := by
      rw [← (h.inv.kin f c e hf (by rw [hk]; decide) (hp ▸ hs)).2,
        ← (h.inv.kin r.1 d e hd.1 (by rw [hdk]; decide) (hdp ▸ hs)).2]
    have hch : c.hash = hashPtrs none (some c.session) := by
      rw [Obj.hash, hk]
      show sftpHash c = _
      rw [sftpHash, hcp]
    have hdh : d.hash = hashPtrs (some q) (some c.session) := by
      rw [Obj.hash, hdk]
      show sftpHash d = _
      rw [sftpHash, hd.2, hses]
    rw [hch, hdh] at hhash
    exact hashPtrs_null q c.session hhash.symm

theorem owning_allowed (h : Good True False [] [] W) {a : Act} (hen : Enabled W a) (ha : Owning W a) :
    Allowed True False W a := by
  cases a with
  | session A => trivial
  | startup s rc => trivial
  | openSession s A => exact ⟨fun _ => ha.1, ha.2⟩
  | scpSend s A => exact ⟨fun _ => ha.1, ha.2⟩
  | scpRecv s A => exact ⟨fun _ => ha.1, ha.2⟩
  | sftpInit s A =>
    refine ⟨fun _ => ha.1, fun e hs => ⟨(ha.2 e hs).1, fun addr haddr r hr => ?_⟩⟩
    obtain ⟨d, q, hd, hdk, hdp, hg⟩ := Strict.stored (x := r.1) (g := r.2) h hr
    rw [hg]
    exact (ha.2 e hs).2 addr haddr r.1 d q hd hdk hdp
  | directTcpip s A => exact absurd ha id
  | forwardListen s A => exact absurd ha id
  | accept l A => exact absurd ha id
  | openFile f A => exact fun _ => ha
  | openDir f A => exact fun _ => ha
  | channelClose s x => exact fun c hc _ => ha c hc
  | sftpShutdown s f pick =>
    obtain ⟨⟨_, e, hs, _⟩, _, c, hf, hk⟩ := hen
    intro c' hf'
    have hcc : c' = c := Option.some.inj (hf'.symm.trans hf)
    subst hcc
    exact ⟨fun r hr hhit => Strict.hit_self h hf hk hs (ha c' hf) hr hhit, fun hn => absurd hn id,
      fun _ => ha c' hf⟩
  | forwardCancel s l => exact absurd ha id
  | closeFile f x => exact fun e c _ _ hc => ⟨fun hn => absurd hn id, fun _ => ha c hc⟩
  | closeDir f x => exact fun e c _ _ hc => ⟨fun hn => absurd hn id, fun _ => ha c hc⟩
  | close s pick rc => exact fun hn => absurd hn id
  | drop x pick =>
    refine fun c hc h1 => ⟨fun hn => absurd hn id, fun hk => ⟨?_, fun hn => absurd hn id⟩⟩
    intro y d q hy _ hdk
    obtain ⟨hm, hl⟩ := (h.strict trivial).mine y d q hy hdk
    exact ⟨hm, fun h2 => absurd h2 hl⟩
  | method x m => trivial
  | sessionMethod s fn => trivial

theorem owning_good (hr : Trans.Run (StepIf Owning) World.empty as W) : Good True False [] [] W :=
  good_run (fun _ _ hg hen ha => owning_allowed hg hen ha) hr

/-! ## releases -/

/-- the call gives the pointer `p` to a release function -/
def Call.frees (p : Ptr) : Call → Bool
  | .free _ (some q) => decide (q = p)
  | _ => false

theorem count_frees (cs : List Call) : cs.countP (Call.frees p) = (history cs).count (.release p) := by
  induction cs with
  | nil => rfl
  | cons e cs ih =>
    have hh : history (e :: cs) = e.events ++ history cs := List.flatMap_cons
    rw [List.countP_cons, hh, List.count_append, ih]
    have he : e.events.count (.release p) = if e.frees p = true then 1 else 0 := by
      cases e with
      | init t => rfl
      | startup a rc => cases a <;> rfl
      | disconnect a => cases a <;> rfl
      | acquire fn a got os => cases a <;> cases got <;> rfl
      | use fn a => cases a <;> rfl
      | free fn a =>
        cases a with
        | none => rfl
        | some q =>
          by_cases hq : q = p
          · simp [Call.events, Call.frees, hq]
          · simp [Call.events, Call.frees, hq]
    omega

/-! ## the registries -/

theorem members_iff_open (h : Good True False [] [] W) (hk : k ≠ .session) (hl : k ≠ .listener) :
    x ∈ W.members o k ↔ ∃ c p, W.Open x c p ∧ c.kind = k ∧ c.parent = o := by
  constructor
  · intro hm
    obtain ⟨g, hg⟩ := HashSet.mem_keys.mp hm
    obtain ⟨c, p, hc, h1, h2, _⟩ := Strict.stored h hg
    exact ⟨c, p, hc, h1, h2⟩
  · rintro ⟨c, p, hc, rfl, rfl⟩
    exact h.inv.home x c p hc ((h.strict trivial).mine x c p hc hk).1 hl List.not_mem_nil

/-- **Ownership over whole runs.**  In every state between calls the registries hold exactly the open
wrappers, no pointer was given to a release function twice, files and directories of an sftp that is
gone are closed, and whatever was opened below a pointer was released before the pointer was released
or, for a session, disconnected. -/
theorem handles_owned (hr : Trans.Run (StepIf Owning) World.empty as W) :
    (∀ o x k, k = .channel ∨ k = .sftp ∨ k = .file ∨ k = .dir →
      (x ∈ W.members o k ↔ ∃ c p, W.Open x c p ∧ c.kind = k ∧ c.parent = o)) ∧
    (∀ p, W.calls.countP (Call.frees p) ≤ 1) ∧
    (∀ x c, W.heap x = some c → c.kind = .file ∨ c.kind = .dir →
      (∀ e q, ¬ W.Open c.parent e q) → c.ptr = none) ∧
    (∀ p t t', W.history = t' ++ .release p :: t → ∀ r os, .acquire r os ∈ W.history → p ∈ os →
      .release r ∈ t) ∧
    (∀ p t t', W.history = t' ++ .settle p :: t → ∀ r os, .acquire r os ∈ t → p ∈ os →
      .release r ∈ t) := by
  have h := owning_good hr
  have hst := h.strict trivial
  refine ⟨?_, ?_, ?_, ?_, ?_⟩
  · intro o x k hk
    refine members_iff_open h ?_ ?_
    · rcases hk with rfl | rfl | rfl | rfl <;> decide
    · rcases hk with rfl | rfl | rfl | rfl <;> decide
  · intro p
    rw [count_frees]
    exact h.inv.sound.release_once p
  · intro x c hx hk hgone
    by_contra hne
    obtain ⟨p, hp⟩ := Option.ne_none_iff_exists'.mp hne
    obtain ⟨e, q, he, _⟩ := h.inv.par x c p ⟨hx, hp⟩ (by rcases hk with h1 | h1 <;> rw [h1] <;> decide)
    exact hgone e q he
  · intro p t t' ht r os ha hp
    have hs := h.inv.sound
    have ho := hst.orderly
    rw [ht] at hs ho ha
    exact Orderly.below_first hs ho ha hp
  · intro p t t' ht r os ha hp
    have ho := hst.orderly
    rw [ht] at ho
    exact ho.below_settled ha hp

/-! ### a session that is closed over an open file -/

def pageAddr (n : Nat) : Addr := ⟨4096 + 8 * (n % 1000), by omega, by omega, by omega⟩

def answer (n : Nat) : Answer := ⟨some (pageAddr n), 0, true⟩

def startedSession : World :=
  (step (step World.empty (.session (pageAddr 0))).1 (.startup 1 0)).1

def withSftp : World := (step startedSession (.sftpInit 1 (answer 1))).1

def withFile : World := (step withSftp (.openFile 3 (answer 2))).1

def withFiles : World := (step withFile (.openFile 3 (answer 3))).1

/-- the session is closed, then the file is collected -/
def closedOver : World :=
  (step (step withFile (.close 1 (fun _ _ _ => 0) 0)).1 (.drop 5 fun _ _ _ => 0)).1

theorem heap_startedSession (h : y ≠ 1) : startedSession.heap y = none :=
  (heap_modify_of_ne _ _ _ _ h).trans (Function.update_of_ne h _ _)

theorem unlike_startedSession (a : Answer) (q : Ptr) : Unlike startedSession 1 q a := by
  intro addr _ y d r hy hd
  exfalso
  by_cases h : y = 1
  · subst h
    cases hy.1
    cases hd
  · have h1 := heap_startedSession h
    rw [hy.1] at h1
    cases h1

theorem startedSession_run (C : World → Act → Prop) (h1 : C World.empty (.session (pageAddr 0)))
    (h2 : C (step World.empty (.session (pageAddr 0))).1 (.startup 1 0)) :
    Trans.Run (StepIf C) World.empty [.session (pageAddr 0), .startup 1 0] startedSession := by
  have g1 : StepIf C World.empty (.session (pageAddr 0)) _ := ⟨h1, trivial, rfl⟩
  have g2 : StepIf C _ (.startup 1 0) startedSession := ⟨h2, ⟨by decide, _, rfl, rfl⟩, rfl⟩
  exact (Trans.Run.nil.snoc g1).snoc g2

theorem started_run : ∃ as, Trans.Run Step World.empty as startedSession :=
  ⟨_, (startedSession_run (fun _ _ => True) trivial trivial).mono fun _ _ _ h => h.2⟩

theorem withSftp_run : ∃ as, Trans.Run Step World.empty as withSftp := by
  obtain ⟨as, hr⟩ := started_run
  have h : Step startedSession (.sftpInit 1 (answer 1)) withSftp := ⟨⟨by decide, _, rfl, rfl⟩, rfl⟩
  exact ⟨_, hr.snoc h⟩

theorem closedOver_run : ∃ as, Trans.Run (StepIf Owning) World.empty as closedOver := by
  have hr := startedSession_run Owning trivial trivial
  have h3 : StepIf Owning startedSession (.sftpInit 1 (answer 1)) withSftp := by
    refine ⟨⟨rfl, fun e he => ⟨fun _ => ?_, unlike_startedSession _ _⟩⟩, ⟨by decide, _, rfl, rfl⟩, rfl⟩
    cases he
    decide
  have h4 : StepIf Owning withSftp (.openFile 3 (answer 2)) withFile :=
    ⟨rfl, ⟨by decide, _, rfl, rfl⟩, rfl⟩
  have h5 : StepIf Owning withFile (.close 1 (fun _ _ _ => 0) 0) _ :=
    ⟨trivial, ⟨by decide, _, rfl, rfl⟩, rfl⟩
  have h6 : StepIf Owning _ (.drop 5 fun _ _ _ => 0) closedOver :=
    ⟨trivial, ⟨.file, by decide, _, rfl, rfl⟩, rfl⟩
  exact ⟨_, (((hr.snoc h3).snoc h4).snoc h5).snoc h6⟩

theorem handles_owned_closedOver :
    (5 ∈ closedOver.members 3 .file ↔
      ∃ c p, closedOver.Open 5 c p ∧ c.kind = .file ∧ c.parent = 3) ∧
    closedOver.calls.countP (Call.frees ⟨4, pageAddr 2⟩) ≤ 1 := by
  obtain ⟨as, hr⟩ := closedOver_run
  have h := handles_owned hr
  exact ⟨h.1 3 5 .file (by decide), h.2.1 _⟩

end PyLibssh2

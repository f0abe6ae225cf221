import PyLibssh2.Ext.Calls
import PyLibssh2.Ext.Change

/-!
# What one call of the module can do

`Outcome S T W L W'`: starting from `W`, a call made changes only, within `T`, or it asked libssh2 for a
handle.  Then the handle is held by a new wrapper, or, if `L`, no wrapper holds it.  Every call with arguments
in `T` has such an outcome (`outcome_step`), so that an invariant of whole runs has to be shown for four kinds
of steps.
-/

set_option linter.unusedSectionVars false
set_option linter.unusedVariables false

namespace PyLibssh2

open World

/-- the methods of `Session` work on the session -/
def Act.Proper : Act → Prop
  | .sessionMethod _ fn => fn.takes = .session
  | _ => True

def Act.Within (T : Ref → Prop) : Act → Prop
  | .session _ => True
  | .startup s _ | .openSession s _ | .scpSend s _ | .scpRecv s _ | .sftpInit s _ | .directTcpip s _
  | .forwardListen s _ | .accept s _ | .openFile s _ | .openDir s _ | .close s _ _ | .drop s _
  | .method s _ | .sessionMethod s _ => T s
  | .channelClose s x | .sftpShutdown s x _ | .forwardCancel s x | .closeFile s x | .closeDir s x =>
    T s ∧ T x

/-- libssh2 returns a handle and no wrapper is made for it -/
def Act.Loses (W : World) : Act → Prop
  | .openSession _ a | .scpSend _ a | .scpRecv _ a | .sftpInit _ a | .forwardListen _ a =>
    a.ret ≠ none ∧ a.alloc = false
  | .accept x a | .openFile x a | .openDir x a =>
    (W.heap x).bind Obj.ptr ≠ none ∧ a.ret ≠ none ∧ a.alloc = false
  | .directTcpip _ a => a.ret ≠ none
  | _ => False

inductive Outcome (S : Ptr → Prop) (T : Ref → Prop) (W : World) (L : Prop) : World → Prop
  /-- references of Python code to wrappers in `T` are counted anew, then changes are made -/
  | changed {W' : World} (g : Ref → Nat) : ¬ L → (∀ x, ¬ T x → g x = W.held x) →
      Changes S T (fun _ => True) { W with held := g } W' → Outcome S T W L W'
  | wrapped (fn : OpenFn) (arg : Ptr) (c : Obj) (leak : Nat) (a : Answer) (addr : Addr) : ¬ L →
      a.ret = some addr → a.alloc = true → c.kind = fn.gives → S c.session →
      (c.managed = true → T c.parent) → W.Passes S T (.acquire fn (some arg) none []) →
      Outcome S T W L (openWith fn arg c leak a W).1
  | lost (fn : OpenFn) (arg : Ptr) (addr : Addr) (os : List Ptr) (raw : List (Ref × Ptr)) : L →
      W.Passes S T (.acquire fn (some arg) none []) → Outcome S T W L
        { W.log (.acquire fn (some arg) (some ⟨W.fresh, addr⟩) os) with fresh := W.fresh + 1, raw := raw }
  | started (addr : Addr) : ¬ L → Outcome S T W L (Session.init addr W).1

variable {S : Ptr → Prop} {T : Ref → Prop} {K : Kind → Prop} {L M : Prop} {W W' : World} {x o s f : Ref} {c d e : Obj} {p arg : Ptr}
  {k : Kind} {a : Answer} {fn : OpenFn} {leak : Nat}

theorem Outcome.congr (hL : L ↔ M) (h : Outcome S T W L W') : Outcome S T W M W' := by
  cases h with
  | changed g hn hg hc => exact .changed g (hL.not.mp hn) hg hc
  | wrapped fn arg c leak a addr hn hr hm hk hs ho hp =>
    exact .wrapped fn arg c leak a addr (hL.not.mp hn) hr hm hk hs ho hp
  | lost fn arg addr os raw hl hp => exact .lost fn arg addr os raw (hL.mp hl) hp
  | started addr hn => exact .started addr (hL.not.mp hn)

theorem outcome_changes (hL : ¬ L) (h : Changes S T K W W') : Outcome S T W L W' :=
  .changed W.held hL (fun _ _ => rfl) (h.mono fun _ _ => trivial)

/-! ## opening -/

theorem passes_refused (h : W.Passes S T (.acquire fn (some arg) none [])) {got : Option Ptr}
    {os : List Ptr} : W.Passes S T (.acquire fn (some arg) got os) :=
  ⟨fun h1 => (by cases h1), h.2⟩

theorem changes_refused (harg : W.Passes S T (.acquire fn (some arg) none [])) (hs : S p) :
    Changes S T K W (failOpen p (W.log (.acquire fn (some arg) none []))).1 :=
  (Changes.call (e := .acquire fn (some arg) none []) rfl harg).trans
    (Changes.call (e := .use .sessionLastError (some p)) trivial (passes_session hs rfl rfl))

theorem outcome_openWith (hk : c.kind = fn.gives) (hs : S c.session) (ho : c.managed = true → T c.parent)
    (harg : W.Passes S T (.acquire fn (some arg) none [])) :
    Outcome S T W (a.ret ≠ none ∧ a.alloc = false) (openWith fn arg c leak a W).1 := by
  cases hr : a.ret with
  | none =>
    rw [openWith_none hr]
    exact outcome_changes (K := fun _ => True) (fun h => h.1 rfl) (changes_refused harg hs)
  | some addr =>
    cases hm : a.alloc with
    | false =>
      rw [openWith_leak hr hm]
      exact .lost fn arg addr c.owners W.raw ⟨Option.some_ne_none addr, rfl⟩ harg
    | true => exact .wrapped fn arg c leak a addr (fun h => (by cases h.2)) hr hm hk hs ho harg

theorem passes_onSession (ht : Tame S T W) (hs : W.heap s = some e) (hfn : fn.takes = .session) :
    W.Passes S T (.acquire fn (some e.session) none []) :=
  passes_session (ht.sessions s e hs) rfl hfn.symm

theorem outcome_child (ht : Tame S T W) (hT : T s) (hs : W.Holds s .session) (hfn : fn.takes = .session)
    (hk : k = fn.gives) : Outcome S T W (a.ret ≠ none ∧ a.alloc = false)
      (onSession s W fun p => openWith fn p (child s p k) leak a W).1 := by
  obtain ⟨_, e, he, _⟩ := hs
  rw [onSession_eq he]
  exact outcome_openWith hk (ht.sessions s e he) (fun _ => hT) (passes_onSession ht he hfn)

theorem outcome_scpRecv (ht : Tame S T W) (hT : T s) (hs : W.Holds s .session) :
    Outcome S T W (a.ret ≠ none ∧ a.alloc = false) (Session.scpRecv s a W).1 := by
  obtain ⟨_, e, he, _⟩ := hs
  unfold Session.scpRecv
  rw [onSession_eq he]
  have harg : W.Passes S T (.acquire .scpRecv (some e.session) none []) := passes_onSession ht he rfl
  cases hr : a.ret with
  | none =>
    have h1 : Changes S T (fun _ => True) W (W.log (.acquire .scpRecv (some e.session) none [])) :=
      Changes.call rfl harg
    exact outcome_changes (fun h => h.1 rfl) h1
  | some addr =>
    have h1 : Outcome S T W (a.ret ≠ none ∧ a.alloc = false)
        (openWith .scpRecv e.session (child s e.session .channel) 1 a W).1 :=
      outcome_openWith rfl (ht.sessions s e he) (fun _ => hT) harg
    rw [hr] at h1
    exact h1

theorem outcome_directTcpip (ht : Tame S T W) (hs : W.Holds s .session) :
    Outcome S T W (a.ret ≠ none) (Session.directTcpip s a W).1 := by
  obtain ⟨_, e, he, _⟩ := hs
  unfold Session.directTcpip
  rw [onSession_eq he]
  have harg : W.Passes S T (.acquire .channelDirectTcpip (some e.session) none []) := passes_onSession ht he rfl
  cases hr : a.ret with
  | none => exact outcome_changes (K := fun _ => True) (fun h => h rfl) (changes_refused harg (ht.sessions s e he))
  | some addr => exact .lost _ _ addr _ _ (Option.some_ne_none addr) harg

theorem outcome_accept (ht : Tame S T W) (hT : T s) (hs : W.Holds s .listener) :
    Outcome S T W ((W.heap s).bind Obj.ptr ≠ none ∧ a.ret ≠ none ∧ a.alloc = false)
      (Listener.accept s a W).1 := by
  obtain ⟨_, e, he, hk⟩ := hs
  rw [ptr_of_heap he]
  simp only [Listener.accept, he]
  cases hp : e.ptr with
  | none =>
    have h1 : Changes S T (fun _ => True) W (W.log (.acquire .channelForwardAccept none none [])) :=
      Changes.call rfl (passes_null rfl trivial)
    exact outcome_changes (fun h => h.1 rfl)
      (h1.trans (Changes.call trivial (passes_session (ht.sessions s e he) rfl rfl)))
  | some p =>
    have h1 : Outcome S T W (a.ret ≠ none ∧ a.alloc = false)
        (openWith .channelForwardAccept p { child e.parent e.session .channel with managed := false }
          0 a W).1 :=
      outcome_openWith rfl (ht.sessions s e he) (fun h => (by cases h)) (passes_handle hT ⟨he, hp⟩ rfl hk)
    exact h1.congr ⟨fun h => ⟨Option.some_ne_none p, h⟩, fun h => h.2⟩

theorem outcome_openHandle (ht : Tame S T W) (hT : T f) (hf : W.Holds f .sftp) (hfn : fn.takes = .sftp)
    (hk : k = fn.gives) : Outcome S T W ((W.heap f).bind Obj.ptr ≠ none ∧ a.ret ≠ none ∧ a.alloc = false)
      (openHandle fn k f a W).1 := by
  obtain ⟨_, e, he, hek⟩ := hf
  rw [ptr_of_heap he]
  cases hp : e.ptr with
  | none =>
    rw [openHandle_closed he hp]
    exact outcome_changes (K := fun _ => True) (fun h => h.1 rfl) Changes.refl
  | some p =>
    rw [openHandle_open ⟨he, hp⟩]
    have harg : W.Passes S T (.acquire fn (some p) none []) :=
      passes_handle hT ⟨he, hp⟩ rfl (hek.trans hfn.symm)
    split
    · rename_i hcode
      rw [openWith_none hcode.1]
      have h1 : Changes S T (fun _ => True) W
          (failOpen e.session (W.log (.acquire fn (some p) none []))).1 :=
        changes_refused harg (ht.sessions f e he)
      refine outcome_changes (fun h => h.2.1 hcode.1) (h1.trans (Changes.call trivial ?_))
      exact passes_handle (c := e) hT ⟨he, hp⟩ rfl hek
    · have h1 : Outcome S T W (a.ret ≠ none ∧ a.alloc = false)
          (openWith fn p { child f e.session k with sftp := some p } 0 a W).1 :=
        outcome_openWith hk (ht.sessions f e he) (fun _ => hT) harg
      exact h1.congr ⟨fun h => ⟨Option.some_ne_none p, h⟩, fun h => h.2⟩

/-! ## every call -/

theorem changes_startup (ht : Tame S T W) (hT : T s) (hs : W.Holds s .session) (rc : Int) :
    Changes S T (fun _ => True) W (Session.startup s rc W).1 := by
  obtain ⟨_, e, he, _⟩ := hs
  unfold Session.startup
  rw [onSession_eq he]
  have hS := ht.sessions s e he
  have h1 : Changes S T (fun _ => True) W (W.log (.startup (some e.session) rc)) :=
    Changes.call trivial (passes_session hS rfl rfl)
  simp only
  split
  · exact h1.trans (Changes.call trivial (passes_session hS rfl rfl))
  · exact h1.trans (Change.wear s (fun c => { c with opened := true })
      (fun _ => ⟨⟨rfl, rfl, rfl, rfl, rfl, Or.inl rfl⟩, rfl⟩) ⟨hT, fun _ _ => trivial⟩).changes

theorem World.Holds.is (h : W.Holds x k) : W.Is x k := by
  obtain ⟨_, e, he, hk⟩ := h
  intro c hc
  rw [he] at hc
  cases hc
  exact hk

theorem changes_closeHandle (ht : Tame S T W) {dec : Ref → World → World} (hd : Closer S T k dec)
    (hk : k = .file ∨ k = .dir) (hT : T f ∧ T x) (hx : W.Is x k) :
    Changes S T k.Reach W (giveBack .sftpCloseHandle x (setDiscard dec f k x W)) := by
  have h1 : Changes S T k.Reach W (setDiscard dec f k x W) := hd.setDiscard ht hT.1
  exact h1.trans (closer_giveBack .sftpCloseHandle hk trivial _ x (h1.tame ht) (h1.is hx) hT.2)

/-- **What one call can do.** -/
theorem outcome_step (ht : Tame S T W) (act : Act) (hT : act.Within T) (ha : Enabled W act) (hp : act.Proper)
    (hroot : ∀ s c, W.heap s = some c → c.kind = .session → c.ptr ≠ none) :
    Outcome S T W (act.Loses W) (step W act).1 := by
  cases act with
  | session addr => exact .started addr id
  | startup s rc => exact outcome_changes id (changes_startup ht hT ha rc)
  | openSession s a => exact outcome_child ht hT ha rfl rfl
  | scpSend s a => exact outcome_child ht hT ha rfl rfl
  | scpRecv s a => exact outcome_scpRecv ht hT ha
  | sftpInit s a => exact outcome_child ht hT ha rfl rfl
  | directTcpip s a => exact outcome_directTcpip ht ha
  | forwardListen s a => exact outcome_child ht hT ha rfl rfl
  | accept l a => exact outcome_accept ht hT ha
  | openFile f a => exact outcome_openHandle ht hT ha rfl rfl
  | openDir f a => exact outcome_openHandle ht hT ha rfl rfl
  | channelClose s x =>
    have h1 : Changes S T _ W (setDiscard decrefChannel s .channel x W) := closer_decrefChannel.setDiscard ht hT.1
    exact outcome_changes id (h1.trans (closer_channelClose _ x (h1.tame ht) (h1.is ha.2.is) hT.2))
  | sftpShutdown s f pick =>
    have h1 : Changes S T _ W (setDiscard (decrefSftp pick) s .sftp f W) :=
      (closer_decrefSftp pick).setDiscard ht hT.1
    exact outcome_changes id (h1.trans (closer_sftpShutdown pick _ f (h1.tame ht) (h1.is ha.2.is) hT.2))
  | forwardCancel s l =>
    have h1 : Changes S T _ W (setDiscard decrefListener s .listener l W) :=
      closer_decrefListener.setDiscard ht hT.1
    have h2 : Closer S T .listener (giveBack .channelForwardCancel) :=
      closer_giveBack .channelForwardCancel rfl trivial
    exact outcome_changes id (h1.trans (h2 _ l (h1.tame ht) (h1.is ha.2.is) hT.2))
  | closeFile f x =>
    apply outcome_changes (K := Kind.Reach .file) id
    simp only [step, Sftp.closeFile]
    split
    · exact Changes.refl
    · exact changes_closeHandle ht closer_decrefFile (Or.inl rfl) hT ha.2.is
  | closeDir f x =>
    apply outcome_changes (K := Kind.Reach .dir) id
    simp only [step, Sftp.closeDir]
    split
    · exact Changes.refl
    · exact changes_closeHandle ht closer_decrefDir (Or.inr rfl) hT ha.2.is
  | close s pick rc =>
    obtain ⟨_, e, he, hk⟩ := ha
    obtain ⟨p, hp⟩ := Option.ne_none_iff_exists'.mp (hroot s e he hk)
    exact outcome_changes id (changes_sessionClose pick ht hT ⟨he, hp⟩ hk)
  | drop x pick =>
    have h1 : Tame S T { W with held := Function.update W.held x (W.held x - 1) } :=
      ⟨ht.sorted, ht.closed, ht.sessions, ht.roots⟩
    refine .changed _ id (fun y hy => ?_) ((changes_decref pick h1 hT).mono fun _ _ => trivial)
    have hyx : y ≠ x := fun h2 => hy (h2 ▸ hT)
    exact Function.update_of_ne hyx ..
  | method x m => exact outcome_changes (K := fun _ => True) id (changes_method ht hT m ha.is)
  | sessionMethod s fn =>
    obtain ⟨_, e, he, _⟩ := ha
    simp only [step, Session.method]
    rw [onSession_eq he]
    have h1 : Changes S T (fun _ => True) W (W.log (.use fn (some e.session))) :=
      Changes.call trivial (passes_session (ht.sessions s e he) rfl hp.symm)
    exact outcome_changes id h1

end PyLibssh2

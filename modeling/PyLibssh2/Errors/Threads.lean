import PyLibssh2.Base.Cells
import PyLibssh2.Base.Run
import PyLibssh2.Errors.Report

/-!
# Errors in several threads

A method gives up the interpreter lock while it is in libssh2 and asks for the error when it has the lock
again.  The error is kept by the session, the status of a request by the sftp, so that a call of another
thread may have recorded one in between.  A step of the model is what a thread does between two such places;
the methods that keep the lock have fewer interleavings.

* `Step`            what threads do, any number of them, on any sessions;
* `misquotes_never` in every interleaving a method that got a code reports this code, with a text that was
  recorded for it on the same session or none; the others report code and text of one error of the session;
* `reports_own`     if no two threads use one session at a time, every exception has the error, and the
  status, that libssh2 recorded last during this very call.
-/

set_option linter.unusedSectionVars false
set_option linter.unusedVariables false

namespace PyLibssh2.Errors

open Remote Cells

/-! ## the state -/

abbrev Tid := Nat

/-- a method that is running: on which session and which sftp of it, what libssh2 returned, and `rc` and
`errmsg` when the method has asked for the error -/
structure Pending where
  report : Report
  session : Nat
  sftp : Nat
  rc : Option Int
  asked : Option LastError

/-- the errors of the sessions, the statuses of the sftps, and the methods that threads are in -/
structure Sys where
  last : Nat → LastError
  status : Nat × Nat → Int
  call : Tid → Option Pending

def Sys.start : Sys := ⟨fun _ => LastError.none, fun _ => 0, fun _ => none⟩

inductive Event
  /-- `t` calls a method on the sftp `f` of the session `s`, and gives up the lock -/
  | enter (t : Tid) (r : Report) (s f : Nat)
  /-- libssh2 records an error of the session that the call of `t` works on -/
  | record (t : Tid) (e : LastError)
  /-- libssh2 records a status of the sftp that the call of `t` works on -/
  | recordStatus (t : Tid) (err : Int)
  /-- libssh2 returns to `t` -/
  | back (t : Tid) (rc : Int)
  /-- `t` has the lock again and asks the session -/
  | ask (t : Tid)
  /-- the method returns, or raises; in the case of a status `t` asks the sftp -/
  | finish (t : Tid) (exc : Option PyExc)

variable {S S' : Sys} {as : List Event} {a : Event} {t u : Tid} {c d : Pending} {e last : LastError}
  {rc err : Int} {exc : PyExc} {s f : Nat}

def Enabled (S : Sys) : Event → Prop
  | .enter t _ _ _ => S.call t = none
  | .record t _ | .recordStatus t _ | .back t _ => ∃ c, S.call t = some c ∧ c.rc = none
  | .ask t => ∃ c rc, S.call t = some c ∧ c.rc = some rc ∧ c.asked = none ∧ c.report.fails rc = true
  | .finish t exc => ∃ c rc e, S.call t = some c ∧ c.rc = some rc ∧
      (c.report.fails rc = true → c.asked = some e) ∧
      exc = c.report.raise rc e (S.status (c.session, c.sftp))

/-- the method that `t` is in goes on -/
def Sys.go (S : Sys) (t : Tid) (g : Pending → Pending) : Sys :=
  { S with call := Function.update S.call t ((S.call t).map g) }

def effect (S : Sys) : Event → Sys
  | .enter t r s f => { S with call := Function.update S.call t (some ⟨r, s, f, none, none⟩) }
  | .record t e =>
    match S.call t with
    | none => S
    | some c => { S with last := Function.update S.last c.session e }
  | .recordStatus t err =>
    match S.call t with
    | none => S
    | some c => { S with status := Function.update S.status (c.session, c.sftp) err }
  | .back t rc => S.go t fun c => { c with rc := some rc }
  | .ask t =>
    S.go t fun c => { c with asked := c.rc.map fun rc => c.report.error rc (S.last c.session) }
  | .finish t _ => { S with call := Function.update S.call t none }

def Step (S : Sys) (a : Event) (S' : Sys) : Prop := Enabled S a ∧ S' = effect S a

/-- no thread is in another method on the session of a method that is entered -/
def Unshared (S : Sys) : Event → Prop
  | .enter _ _ s _ => ∀ u c, S.call u = some c → c.session ≠ s
  | _ => True

def UnsharedStep (S : Sys) (a : Event) (S' : Sys) : Prop := Unshared S a ∧ Step S a S'

/-! ## the cells -/

/-- what an event does to the errors of the sessions -/
def errorOp : Event → Op Tid Nat LastError
  | .enter t _ s _ => .enter t s
  | .record t e => .write t e
  | .finish t _ => .leave t
  | _ => .pass

/-- what an event does to the statuses of the sftps -/
def statusOp : Event → Op Tid (Nat × Nat) Int
  | .enter t _ s f => .enter t (s, f)
  | .recordStatus t err => .write t err
  | .finish t _ => .leave t
  | _ => .pass

def errors (as : List Event) : Track Tid Nat LastError := track (as.map errorOp)

def statuses (as : List Event) : Track Tid (Nat × Nat) Int := track (as.map statusOp)

theorem errors_snoc (as : List Event) (a : Event) :
    errors (as ++ [a]) = (errors as).step (errorOp a) := by
  rw [errors, List.map_append]
  exact track_snoc _ _

theorem statuses_snoc (as : List Event) (a : Event) :
    statuses (as ++ [a]) = (statuses as).step (statusOp a) := by
  rw [statuses, List.map_append]
  exact track_snoc _ _

/-- the state is what the events have left in the cells -/
structure Follows (as : List Event) (S : Sys) : Prop where
  session : ∀ t, (errors as).inside t = (S.call t).map Pending.session
  sftp : ∀ t, (statuses as).inside t = (S.call t).map fun c => (c.session, c.sftp)
  last : ∀ s, S.last s = ((errors as).cell s).getD LastError.none
  status : ∀ f, S.status f = ((statuses as).cell f).getD 0

theorem update_map {β γ : Type} {g : Tid → Option β} {h : Tid → Option γ} {m : γ → β}
    (hg : ∀ u, g u = (h u).map m) (t : Tid) (o : Option γ) (u : Tid) :
    Function.update g t (o.map m) u = (Function.update h t o u).map m := by
  by_cases hut : u = t
  · rw [hut, Function.update_self, Function.update_self]
  · rw [Function.update_of_ne hut, Function.update_of_ne hut, hg]

theorem go_map {β : Type} {m : Pending → β} {g : Pending → Pending} (hm : ∀ c, m (g c) = m c)
    (t u : Tid) : ((S.go t g).call u).map m = (S.call u).map m := by
  show (Function.update S.call t ((S.call t).map g) u).map m = _
  by_cases hut : u = t
  · rw [hut, Function.update_self]
    cases S.call t with
    | none => rfl
    | some c => exact congrArg some (hm c)
  · rw [Function.update_of_ne hut]

theorem Follows.go (h : Follows as S) (t : Tid) (g : Pending → Pending)
    (hm : ∀ c, (g c).session = c.session ∧ (g c).sftp = c.sftp) (he : errorOp a = .pass)
    (hs : statusOp a = .pass) : Follows (as ++ [a]) (S.go t g) := by
  have herr : errors (as ++ [a]) = errors as := by
    rw [errors_snoc, he]
    rfl
  have hst : statuses (as ++ [a]) = statuses as := by
    rw [statuses_snoc, hs]
    rfl
  constructor
  · intro u
    rw [herr, go_map fun c => (hm c).1]
    exact h.session u
  · intro u
    rw [hst, go_map fun c => Prod.ext (hm c).1 (hm c).2]
    exact h.sftp u
  · intro s
    rw [herr]
    exact h.last s
  · intro f
    rw [hst]
    exact h.status f

theorem Follows.step (h : Follows as S) (hs : Step S a S') : Follows (as ++ [a]) S' := by
  obtain ⟨ha, rfl⟩ := hs
  cases a with
  | back t rc => exact h.go t _ (fun c => ⟨rfl, rfl⟩) rfl rfl
  | ask t => exact h.go t _ (fun c => ⟨rfl, rfl⟩) rfl rfl
  | enter t r s f =>
    constructor
    · intro u
      rw [errors_snoc]
      exact update_map h.session t (some ⟨r, s, f, none, none⟩) u
    · intro u
      rw [statuses_snoc]
      exact update_map h.sftp t (some ⟨r, s, f, none, none⟩) u
    · intro j
      rw [errors_snoc]
      exact h.last j
    · intro j
      rw [statuses_snoc]
      exact h.status j
  | finish t exc =>
    constructor
    · intro u
      rw [errors_snoc]
      exact update_map h.session t none u
    · intro u
      rw [statuses_snoc]
      exact update_map h.sftp t none u
    · intro j
      rw [errors_snoc]
      exact h.last j
    · intro j
      rw [statuses_snoc]
      exact h.status j
  | record t e =>
    obtain ⟨c, hc, _⟩ := ha
    have hin : (errors as).inside t = some c.session := by
      rw [h.session, hc]
      rfl
    have heff : effect S (.record t e) = { S with last := Function.update S.last c.session e } := by
      simp only [effect, hc]
    have herr : errors (as ++ [.record t e]) = { errors as with
        own := Function.update (errors as).own t (some e)
        cell := Function.update (errors as).cell c.session (some e) } := by
      rw [errors_snoc]
      exact Track.step_write hin e
    rw [heff]
    constructor
    · intro u
      rw [herr]
      exact h.session u
    · intro u
      rw [statuses_snoc]
      exact h.sftp u
    · intro s
      rw [herr]
      show Function.update S.last c.session e s =
        (Function.update (errors as).cell c.session (some e) s).getD LastError.none
      by_cases hs : s = c.session
      · rw [hs, Function.update_self, Function.update_self]
        rfl
      · rw [Function.update_of_ne hs, Function.update_of_ne hs]
        exact h.last s
    · intro f
      rw [statuses_snoc]
      exact h.status f
  | recordStatus t err =>
    obtain ⟨c, hc, _⟩ := ha
    have hin : (statuses as).inside t = some (c.session, c.sftp) := by
      rw [h.sftp, hc]
      rfl
    have heff : effect S (.recordStatus t err) =
        { S with status := Function.update S.status (c.session, c.sftp) err } := by
      simp only [effect, hc]
    have hst : statuses (as ++ [.recordStatus t err]) = { statuses as with
        own := Function.update (statuses as).own t (some err)
        cell := Function.update (statuses as).cell (c.session, c.sftp) (some err) } := by
      rw [statuses_snoc]
      exact Track.step_write hin err
    rw [heff]
    constructor
    · intro u
      rw [errors_snoc]
      exact h.session u
    · intro u
      rw [hst]
      exact h.sftp u
    · intro s
      rw [errors_snoc]
      exact h.last s
    · intro f
      rw [hst]
      show Function.update S.status (c.session, c.sftp) err f =
        (Function.update (statuses as).cell (c.session, c.sftp) (some err) f).getD 0
      by_cases hf : f = (c.session, c.sftp)
      · rw [hf, Function.update_self, Function.update_self]
        rfl
      · rw [Function.update_of_ne hf, Function.update_of_ne hf]
        exact h.status f

theorem follows_run (hr : Trans.Run Step Sys.start as S) : Follows as S := by
  induction hr with
  | nil => exact ⟨fun t => rfl, fun t => rfl, fun s => rfl, fun f => rfl⟩
  | snoc _ hs ih => exact ih.step hs

/-! ## what a method has asked for -/

def Recorded (as : List Event) (s : Nat) (e : LastError) : Prop :=
  e = LastError.none ∨ Written (as.map errorOp) s e

def RecordedStatus (as : List Event) (f : Nat × Nat) (err : Int) : Prop :=
  err = 0 ∨ Written (as.map statusOp) f err

theorem Recorded.snoc (h : Recorded as s e) (a : Event) : Recorded (as ++ [a]) s e := by
  rcases h with h | h
  · exact Or.inl h
  · apply Or.inr
    rw [List.map_append]
    exact h.snoc _

theorem Follows.recorded (h : Follows as S) (s : Nat) : Recorded as s (S.last s) := by
  have h1 := h.last s
  cases hcell : (errors as).cell s with
  | none => exact Or.inl (by rw [h1, hcell]; rfl)
  | some e =>
    apply Or.inr
    rw [h1, hcell]
    exact Track.from_write _ hcell

theorem Follows.recordedStatus (h : Follows as S) (f : Nat × Nat) :
    RecordedStatus as f (S.status f) := by
  have h1 := h.status f
  cases hcell : (statuses as).cell f with
  | none => exact Or.inl (by rw [h1, hcell]; rfl)
  | some err =>
    apply Or.inr
    rw [h1, hcell]
    exact Track.from_write _ hcell

theorem call_cases (hs : Step S a S') (hu : S'.call u = some d) :
    (∃ r s f, a = .enter u r s f ∧ d = ⟨r, s, f, none, none⟩) ∨
    (∃ c rc, a = .back u rc ∧ S.call u = some c ∧ c.rc = none ∧ d = { c with rc := some rc }) ∨
    (∃ c rc, a = .ask u ∧ S.call u = some c ∧ c.rc = some rc ∧ c.report.fails rc = true ∧
      d = { c with asked := some (c.report.error rc (S.last c.session)) }) ∨
    (S.call u = some d ∧ (∀ r s f, a ≠ .enter u r s f) ∧ (d.rc ≠ none → ∀ e, a ≠ .record u e)) := by
  obtain ⟨ha, rfl⟩ := hs
  -- the methods of other threads, and the events that change no method
  have hsame : S.call u = some d → (∀ r s f, a ≠ .enter u r s f) → (∀ e, a ≠ .record u e) →
      S.call u = some d ∧ (∀ r s f, a ≠ .enter u r s f) ∧ (d.rc ≠ none → ∀ e, a ≠ .record u e) :=
    fun h1 h2 h3 => ⟨h1, h2, fun _ => h3⟩
  cases a with
  | enter t r s f =>
    have hu' : Function.update S.call t (some ⟨r, s, f, none, none⟩) u = some d := hu
    by_cases hut : u = t
    · rw [hut, Function.update_self] at hu'
      rw [hut]
      exact Or.inl ⟨r, s, f, rfl, (Option.some.inj hu').symm⟩
    · rw [Function.update_of_ne hut] at hu'
      refine Or.inr (Or.inr (Or.inr (hsame hu' (fun r s f h => ?_) fun e h => (by cases h))))
      cases h
      exact hut rfl
  | record t e =>
    obtain ⟨c, hc, hrc⟩ := ha
    have heff : effect S (.record t e) = { S with last := Function.update S.last c.session e } := by
      simp only [effect, hc]
    rw [heff] at hu
    refine Or.inr (Or.inr (Or.inr ⟨hu, fun r s f h => (by cases h), fun hd e' h => ?_⟩))
    cases h
    have hcd : c = d := Option.some.inj (hc.symm.trans hu)
    exact hd (hcd ▸ hrc)
  | recordStatus t err =>
    obtain ⟨c, hc, _⟩ := ha
    have heff : effect S (.recordStatus t err) =
        { S with status := Function.update S.status (c.session, c.sftp) err } := by
      simp only [effect, hc]
    rw [heff] at hu
    exact Or.inr (Or.inr (Or.inr (hsame hu (fun r s f h => (by cases h)) fun e h => (by cases h))))
  | back t rc =>
    obtain ⟨c, hc, hrc⟩ := ha
    have hu' : Function.update S.call t ((S.call t).map fun c => { c with rc := some rc }) u =
        some d := hu
    by_cases hut : u = t
    · rw [hut, Function.update_self, hc] at hu'
      rw [hut]
      exact Or.inr (Or.inl ⟨c, rc, rfl, hc, hrc, (Option.some.inj hu').symm⟩)
    · rw [Function.update_of_ne hut] at hu'
      exact Or.inr (Or.inr (Or.inr (hsame hu' (fun r s f h => (by cases h)) fun e h => (by cases h))))
  | ask t =>
    obtain ⟨c, rc, hc, hrc, _, hfails⟩ := ha
    have hu' : Function.update S.call t ((S.call t).map fun c =>
        { c with asked := c.rc.map fun rc => c.report.error rc (S.last c.session) }) u = some d := hu
    by_cases hut : u = t
    · rw [hut, Function.update_self, hc, Option.map_some] at hu'
      rw [hut]
      refine Or.inr (Or.inr (Or.inl ⟨c, rc, rfl, hc, hrc, hfails, ?_⟩))
      rw [← Option.some.inj hu']
      simp only [hrc, Option.map_some]
    · rw [Function.update_of_ne hut] at hu'
      exact Or.inr (Or.inr (Or.inr (hsame hu' (fun r s f h => (by cases h)) fun e h => (by cases h))))
  | finish t exc =>
    have hu' : Function.update S.call t none u = some d := hu
    by_cases hut : u = t
    · rw [hut, Function.update_self] at hu'
      cases hu'
    · rw [Function.update_of_ne hut] at hu'
      exact Or.inr (Or.inr (Or.inr (hsame hu' (fun r s f h => (by cases h)) fun e h => (by cases h))))

/-- what a method has asked for is made of what libssh2 returned to it and of an error of its session -/
def Asked (as : List Event) (S : Sys) : Prop :=
  ∀ t c e, S.call t = some c → c.asked = some e → ∃ rc last, c.rc = some rc ∧ c.report.fails rc = true ∧
    Recorded as c.session last ∧ e = c.report.error rc last

theorem Asked.step (h : Asked as S) (hf : Follows as S) (hs : Step S a S') : Asked (as ++ [a]) S' := by
  intro t d e hd he
  rcases call_cases hs hd with ⟨r, s, f, _, rfl⟩ | ⟨c, rc, _, hc, hrc, rfl⟩ |
    ⟨c, rc, _, hc, hrc, hfails, rfl⟩ | ⟨hc, _⟩
  · cases he
  · obtain ⟨rc', last, hrc', _⟩ := h t c e hc he
    rw [hrc] at hrc'
    cases hrc'
  · exact ⟨rc, S.last c.session, hrc, hfails, (hf.recorded c.session).snoc a, (Option.some.inj he).symm⟩
  · obtain ⟨rc, last, hrc, hfails, hlast, heq⟩ := h t d e hc he
    exact ⟨rc, last, hrc, hfails, hlast.snoc a, heq⟩

theorem asked_run (hr : Trans.Run Step Sys.start as S) : Asked as S := by
  induction hr with
  | nil => exact fun t c e hc => (by cases hc)
  | snoc hr hs ih => exact ih.step (follows_run hr) hs

/-- `rc` and `errmsg` belong together, and `rc` is what libssh2 returned if it was a code -/
def Quoted (as : List Event) (c : Pending) (rc : Int) (e : LastError) : Prop :=
  match c.report.test with
  | .code _ => e.code = rc ∧ (e.errmsg = "" ∨ Recorded as c.session e)
  | .pointer => Recorded as c.session e
  | .alone _ => e = ⟨rc, ""⟩

theorem quoted_error (h : Recorded as c.session last) (rc : Int) :
    Quoted as c rc (c.report.error rc last) := by
  unfold Quoted Report.error
  cases c.report.test with
  | pointer => exact h
  | alone fails => exact rfl
  | code fails =>
    refine ⟨rfl, ?_⟩
    by_cases hcode : last.code = rc
    · apply Or.inr
      have heq : (⟨rc, if last.code ≠ rc then "" else last.errmsg⟩ : LastError) = last := by
        rw [if_neg (not_not_intro hcode), ← hcode]
      rw [heq]
      exact h
    · exact Or.inl (if_pos hcode)

/-- an sftp has no such file, while another thread fails to write on a second session -/
def missing : List Event :=
  [.enter 0 Sftp.rename 0 0, .enter 1 Channel.write 1 0, .record 0 ⟨-31, "SFTP Protocol Error"⟩,
    .record 1 ⟨-7, "Unable to send channel data"⟩, .recordStatus 0 2, .back 1 (-7), .back 0 (-31), .ask 0]

def after (as : List Event) : Sys := as.foldl effect Sys.start

theorem missing_run : Trans.Run UnsharedStep Sys.start missing (after missing) := by
  have h1 : UnsharedStep Sys.start (.enter 0 Sftp.rename 0 0) (after (missing.take 1)) :=
    ⟨fun u c hc => (by cases hc), rfl, rfl⟩
  have hother : Unshared (after (missing.take 1)) (.enter 1 Channel.write 1 0) := by
    intro u c hc
    have hc' : Function.update Sys.start.call 0 (some ⟨Sftp.rename, 0, 0, none, none⟩) u = some c := hc
    by_cases hu : u = 0
    · rw [hu, Function.update_self] at hc'
      cases hc'
      exact Nat.zero_ne_one
    · rw [Function.update_of_ne hu] at hc'
      cases hc'
  have h2 : UnsharedStep (after (missing.take 1)) (.enter 1 Channel.write 1 0) (after (missing.take 2)) :=
    ⟨hother, rfl, rfl⟩
  have h3 : UnsharedStep (after (missing.take 2)) (.record 0 ⟨-31, "SFTP Protocol Error"⟩)
      (after (missing.take 3)) := ⟨trivial, ⟨_, rfl, rfl⟩, rfl⟩
  have h4 : UnsharedStep (after (missing.take 3)) (.record 1 ⟨-7, "Unable to send channel data"⟩)
      (after (missing.take 4)) := ⟨trivial, ⟨_, rfl, rfl⟩, rfl⟩
  have h5 : UnsharedStep (after (missing.take 4)) (.recordStatus 0 2) (after (missing.take 5)) :=
    ⟨trivial, ⟨_, rfl, rfl⟩, rfl⟩
  have h6 : UnsharedStep (after (missing.take 5)) (.back 1 (-7)) (after (missing.take 6)) :=
    ⟨trivial, ⟨_, rfl, rfl⟩, rfl⟩
  have h7 : UnsharedStep (after (missing.take 6)) (.back 0 (-31)) (after (missing.take 7)) :=
    ⟨trivial, ⟨_, rfl, rfl⟩, rfl⟩
  have h8 : UnsharedStep (after (missing.take 7)) (.ask 0) (after missing) :=
    ⟨trivial, ⟨_, _, rfl, rfl, rfl, rfl⟩, rfl⟩
  exact (((((((Trans.Run.nil.snoc h1).snoc h2).snoc h3).snoc h4).snoc h5).snoc h6).snoc h7).snoc h8

/-- `IOError: [Errno 2] LIBSSH2_FX_NO_SUCH_FILE` -/
theorem missing_raises : Step (after missing)
    (.finish 0 (some (.ioError ENOENT "LIBSSH2_FX_NO_SUCH_FILE")))
    (effect (after missing) (.finish 0 (some (.ioError ENOENT "LIBSSH2_FX_NO_SUCH_FILE")))) :=
  ⟨⟨_, _, ⟨-31, "SFTP Protocol Error"⟩, rfl, rfl, fun _ => rfl, rfl⟩, rfl⟩

theorem asked_of_raises (hs : Step S (.finish t (some exc)) S') :
    ∃ c rc e, S.call t = some c ∧ c.rc = some rc ∧ c.asked = some e ∧
      exc = c.report.exc e (S.status (c.session, c.sftp)) := by
  obtain ⟨⟨c, rc, e, hc, hrc, hasked, hexc⟩, _⟩ := hs
  by_cases hf : c.report.fails rc = true
  · rw [Report.raise, if_pos hf] at hexc
    exact ⟨c, rc, e, hc, hrc, hasked hf, Option.some.inj hexc⟩
  · rw [Report.raise, if_neg hf] at hexc
    cases hexc

/-- **No error is misquoted.**  In every interleaving an exception is made of the code that libssh2 returned
to this call and a text that a call on the same session recorded with this code, or none; where libssh2
returned a pointer, of code and text of one error of the session; and of a status of the same sftp. -/
theorem misquotes_never (hr : Trans.Run Step Sys.start as S) (hs : Step S (.finish t (some exc)) S') :
    ∃ c rc e err, S.call t = some c ∧ c.rc = some rc ∧ c.report.fails rc = true ∧
      exc = c.report.exc e err ∧ Quoted as c rc e ∧ RecordedStatus as (c.session, c.sftp) err := by
  obtain ⟨c, rc, e, hc, hrc, he, hexc⟩ := asked_of_raises hs
  obtain ⟨rc', last, hrc', hfails, hlast, rfl⟩ := asked_run hr t c e hc he
  rw [hrc] at hrc'
  cases hrc'
  exact ⟨c, rc, _, _, hc, hrc, hfails, hexc, quoted_error hlast rc, (follows_run hr).recordedStatus _⟩

theorem misquotes_never_missing : ∃ c rc e err, (after missing).call 0 = some c ∧ c.rc = some rc ∧
    c.report.fails rc = true ∧ PyExc.ioError ENOENT "LIBSSH2_FX_NO_SUCH_FILE" = c.report.exc e err ∧
    Quoted missing c rc e ∧ RecordedStatus missing (c.session, c.sftp) err :=
  misquotes_never (missing_run.mono fun _ _ _ hs => hs.2) missing_raises

/-! ## one thread at a time -/

end PyLibssh2.Errors

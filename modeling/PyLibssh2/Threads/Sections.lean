import PyLibssh2.Ext.Frame

/-!
# Calls on channels in several threads

The wrappers give up the interpreter lock around most calls of libssh2, and only there another thread
gets on.  What a thread does between two such places is a section.  The argument `self->channel` of a
call is read after the lock has been given up, and read again when `Channel_close` has the lock back
and frees the channel.

* `Pc`      where a thread is: which call it is in, and whether it has read the pointer;
* `Step`    one section of one thread, or one of the three things it does without the lock: reading
  the pointer, entering libssh2, coming back;
* `solo_channelClose`, `solo_write`, `solo_read`  a thread that nobody interrupts does what the
  functions of `Ext.Module` say.

A switch is also allowed after each round of the loops in `Session_close`, which the source does only
where a round gives up the lock.
-/

set_option linter.unusedSectionVars false
set_option linter.unusedVariables false

namespace PyLibssh2.Threads

open World

abbrev Tid := Nat

/-! ## where a thread is -/

/-- what follows a call of libssh2 when the lock is back -/
inductive After
  /-- the return code is looked at: `Channel.read`, `Channel.write` -/
  | check
  /-- the channel is freed: `Channel_close`, in a loop of `Session_close` on `s` for `some s` -/
  | free (loop : Option Ref)

/-- a call of libssh2 on `self->channel` -/
structure Site where
  body : Body
  self : Ref
  after : After

/-- the loops of `Session_close` -/
inductive Stage
  | sftps | channels | listeners
  deriving DecidableEq

inductive Pc
  | idle
  /-- the lock is given up and `self->channel` not read yet -/
  | released (c : Site)
  /-- `self->channel` has been read -/
  | loaded (c : Site) (p : Option Ptr)
  | inside (c : Site) (p : Option Ptr)
  | closing (s : Ref) (stage : Stage)
  | disconnecting (s : Ref)

/-- the extension module, and where each thread is -/
structure Sys where
  world : World
  pc : Tid → Pc

def Sys.start (W : World) : Sys := ⟨W, fun _ => .idle⟩

/-- thread `t` gets to `r.2` and leaves the module as `r.1` -/
def Sys.set (Y : Sys) (t : Tid) (r : World × Pc) : Sys := ⟨r.1, Function.update Y.pc t r.2⟩

/-! ## sections -/

def readBody : Body := ⟨.channelRead, negative, true⟩
def writeBody : Body := ⟨.channelWrite, negative, true⟩
def closeBody : Body := ⟨.channelClose, never, false⟩

/-- `PYLIBSSH2_Channel_read` up to `Py_BEGIN_ALLOW_THREADS` -/
def readSection (x : Ref) (eof : Int) (W : World) : World × Pc :=
  match (W.heap x).bind Obj.ptr with
  | none => (W, .idle)
  | some p =>
    let W := W.log (.use .channelEof (some p))
    if eof = 1 then (W, .idle) else (W, .released ⟨readBody, x, .check⟩)

/-- `PYLIBSSH2_Channel_write` -/
def writeSection (x : Ref) (W : World) : World × Pc :=
  match (W.heap x).bind Obj.ptr with
  | none => (W, .idle)
  | some _ => (W, .released ⟨writeBody, x, .check⟩)

/-- `PYLIBSSH2_Session_channel_close` -/
def channelCloseSection (s x : Ref) (W : World) : World × Pc :=
  let W := setDiscard decrefChannel s .channel x W
  match (W.heap x).bind Obj.ptr with
  | none => (W, .idle)
  | some _ => (W, .released ⟨closeBody, x, .free none⟩)

/-- the test of `Session_close` -/
def closeSection (s : Ref) (W : World) : World × Pc :=
  match W.heap s with
  | none => (W, .idle)
  | some o => (W, if o.opened then .closing s .sftps else .idle)

/-- a round of the loop over the channels, up to where `Channel_close` gives up the lock -/
def popSection (s : Ref) (n : Nat) (W : World) : World × Pc :=
  match HashSet.popKey n (W.reg s .channel) with
  | none => (W, .closing s .listeners)
  | some x =>
    let W := W.setReg s .channel (HashSet.drop x (W.reg s .channel))
    match (W.heap x).bind Obj.ptr with
    | none => (decrefChannel x W, .closing s .channels)
    | some _ => (W, .released ⟨closeBody, x, .free (some s)⟩)

/-- what follows `Py_END_ALLOW_THREADS` -/
def backSection (c : Site) (rc : Int) (W : World) : World × Pc :=
  match c.after with
  | .check =>
    match W.heap c.self with
    | none => (W, .idle)
    | some o => (if c.body.fails rc then failUse c.body o rc W else W, .idle)
  | .free none => (giveBack .channelFree c.self W, .idle)
  | .free (some s) => (decrefChannel c.self (giveBack .channelFree c.self W), .closing s .channels)

/-! ## what is about channels -/

def channelFns : List UseFn :=
  [.channelClose, .channelRequestPty, .channelRequestPtySize, .channelShell, .channelExec,
   .channelSetenv, .channelSetBlocking, .channelEof, .channelRead, .channelReadEx, .channelWrite,
   .channelFlush, .channelGetExitStatus, .channelSendEof, .channelWaitEof, .channelWaitClosed,
   .channelWindowRead, .channelWindowWrite, .channelX11Req, .pollChannelRead,
   .channelReceiveWindowAdjust]

def channelArg : Call → Option Ptr
  | .use fn a => if fn ∈ channelFns then a else none
  | .free .channelFree a => a
  | _ => none

/-- what the loops over sftps and listeners may do, with the lock or without -/
structure Elsewhere (W W' : World) : Prop where
  only : Only (fun y => ∃ c, W.heap y = some c ∧ c.kind ≠ .channel) (fun _ k => k ≠ .channel) W W'
  calls : ∃ cs, W'.calls = cs ++ W.calls ∧ ∀ e ∈ cs, channelArg e = none

/-! ## steps -/

/-- thread `t` makes a step; Python code owns the channels and sessions it makes calls on -/
inductive Step : Sys → Tid → Sys → Prop
  | read {Y : Sys} {t : Tid} (x : Ref) (eof : Int) (h : Y.pc t = .idle)
      (hx : Y.world.Holds x .channel) : Step Y t (Y.set t (readSection x eof Y.world))
  | write {Y : Sys} {t : Tid} (x : Ref) (h : Y.pc t = .idle) (hx : Y.world.Holds x .channel) :
      Step Y t (Y.set t (writeSection x Y.world))
  | channelClose {Y : Sys} {t : Tid} (s x : Ref) (h : Y.pc t = .idle)
      (hs : Y.world.Holds s .session) (hx : Y.world.Holds x .channel) :
      Step Y t (Y.set t (channelCloseSection s x Y.world))
  | close {Y : Sys} {t : Tid} (s : Ref) (h : Y.pc t = .idle) (hs : Y.world.Holds s .session) :
      Step Y t (Y.set t (closeSection s Y.world))
  | load {Y : Sys} {t : Tid} {c : Site} (h : Y.pc t = .released c) :
      Step Y t (Y.set t (Y.world, .loaded c ((Y.world.heap c.self).bind Obj.ptr)))
  | enter {Y : Sys} {t : Tid} {c : Site} {p : Option Ptr} (h : Y.pc t = .loaded c p) :
      Step Y t (Y.set t (Y.world.log (.use c.body.fn p), .inside c p))
  | back {Y : Sys} {t : Tid} {c : Site} {p : Option Ptr} (rc : Int) (h : Y.pc t = .inside c p) :
      Step Y t (Y.set t (backSection c rc Y.world))
  | elsewhere {Y : Sys} {t : Tid} {s : Ref} {stage : Stage} (W : World)
      (h : Y.pc t = .closing s stage) (hst : stage ≠ .channels) (hW : Elsewhere Y.world W) :
      Step Y t (Y.set t (W, .closing s stage))
  | sftpsDone {Y : Sys} {t : Tid} {s : Ref} (h : Y.pc t = .closing s .sftps)
      (hs : Y.world.reg s .sftp = []) : Step Y t (Y.set t (Y.world, .closing s .channels))
  | pop {Y : Sys} {t : Tid} {s : Ref} (n : Nat) (h : Y.pc t = .closing s .channels) :
      Step Y t (Y.set t (popSection s n Y.world))
  | listenersDone {Y : Sys} {t : Tid} {s : Ref} (h : Y.pc t = .closing s .listeners)
      (hs : Y.world.reg s .listener = []) : Step Y t (Y.set t
        (Y.world.log (.disconnect ((Y.world.heap s).bind Obj.ptr)), .disconnecting s))
  | disconnected {Y : Sys} {t : Tid} {s : Ref} (h : Y.pc t = .disconnecting s) :
      Step Y t (Y.set t (Y.world.modify s fun o => { o with opened := false }, .idle))

variable {W : World} {Y Y' : Sys} {t u : Tid} {s x : Ref} {c : Site} {p : Option Ptr}

/-! ## a thread on its own -/

@[simp] theorem set_world (r : World × Pc) : (Y.set t r).world = r.1 := rfl

@[simp] theorem set_pc_self (r : World × Pc) : (Y.set t r).pc t = r.2 := Function.update_self ..

theorem set_pc_of_ne (r : World × Pc) (h : u ≠ t) : (Y.set t r).pc u = Y.pc u :=
  Function.update_of_ne h ..

theorem set_set (r r' : World × Pc) : (Y.set t r).set t r' = Y.set t r' := by
  unfold Sys.set
  rw [Function.update_idem]

theorem step_from {r r' : World × Pc} (h : Step (Y.set t r) t ((Y.set t r).set t r')) :
    Step (Y.set t r) t (Y.set t r') := by
  rwa [set_set] at h

theorem solo_site {r : World × Pc} (h : Step Y t (Y.set t r)) (hr : r.2 = .released c) (rc : Int) :
    Trans.Run Step Y [t, t, t, t]
      (Y.set t (backSection c rc (r.1.log (.use c.body.fn ((r.1.heap c.self).bind Obj.ptr))))) := by
  obtain ⟨W, pc⟩ := r
  cases hr
  have h2 : Step (Y.set t (W, .released c)) t
      (Y.set t (W, .loaded c ((W.heap c.self).bind Obj.ptr))) :=
    step_from (Step.load (set_pc_self _))
  have h3 : Step (Y.set t (W, .loaded c ((W.heap c.self).bind Obj.ptr))) t
      (Y.set t (W.log (.use c.body.fn ((W.heap c.self).bind Obj.ptr)),
        .inside c ((W.heap c.self).bind Obj.ptr))) :=
    step_from (Step.enter (set_pc_self _))
  have h4 := step_from (Step.back (Y := Y.set t (W.log (.use c.body.fn ((W.heap c.self).bind Obj.ptr)),
    .inside c ((W.heap c.self).bind Obj.ptr))) rc (set_pc_self _))
  exact (((Trans.Run.nil.snoc h).snoc h2).snoc h3).snoc h4

theorem set_idle (h : Y.pc t = .idle) (W : World) : Y.set t (W, .idle) = ⟨W, Y.pc⟩ := by
  unfold Sys.set
  rw [← h, Function.update_eq_self]

def Solo (Y : Sys) (t : Tid) (W : World) : Prop :=
  ∃ ts, (∀ u ∈ ts, u = t) ∧ Trans.Run Step Y ts ⟨W, Y.pc⟩

theorem solo_one (h : Y.pc t = .idle) {W : World} (h1 : Step Y t (Y.set t (W, .idle))) : Solo Y t W := by
  rw [set_idle h] at h1
  exact ⟨[t], fun u hu => List.mem_singleton.mp hu, Trans.Run.single h1⟩

theorem solo_four (h : Y.pc t = .idle) {r : World × Pc} (h1 : Step Y t (Y.set t r))
    (hr : r.2 = .released c) (rc : Int) {W : World}
    (hW : backSection c rc (r.1.log (.use c.body.fn ((r.1.heap c.self).bind Obj.ptr))) = (W, .idle)) :
    Solo Y t W := by
  have h2 := solo_site h1 hr rc
  rw [hW, set_idle h] at h2
  exact ⟨_, by simp, h2⟩

/-- **Alone, the sections of `channel_close` are `PYLIBSSH2_Session_channel_close`.** -/
theorem solo_channelClose (h : Y.pc t = .idle) (hs : Y.world.Holds s .session)
    (hx : Y.world.Holds x .channel) : Solo Y t (Session.channelClose s x Y.world).1 := by
  have h1 := Step.channelClose s x h hs hx
  unfold channelCloseSection at h1
  simp only at h1
  cases hp : ((setDiscard decrefChannel s .channel x Y.world).heap x).bind Obj.ptr with
  | none =>
    rw [hp] at h1
    have hW : (Session.channelClose s x Y.world).1 = setDiscard decrefChannel s .channel x Y.world := by
      simp only [Session.channelClose, channelClose, hp]
    rw [hW]
    exact solo_one h h1
  | some p =>
    rw [hp] at h1
    apply solo_four h h1 rfl 0
    simp only [backSection, giveBack, heap_log, hp, Session.channelClose, channelClose, closeBody]

/-- **Alone, the sections of `write` are `PYLIBSSH2_Channel_write`.** -/
theorem solo_write (h : Y.pc t = .idle) (hx : Y.world.Holds x .channel) (rc : Int) :
    Solo Y t (Channel.write x rc Y.world).1 := by
  have h1 := Step.write x h hx
  obtain ⟨_, o, ho, _⟩ := hx
  unfold writeSection at h1
  have hptr : (Y.world.heap x).bind Obj.ptr = o.ptr := by rw [ho]; rfl
  rw [hptr] at h1
  cases hp : o.ptr with
  | none =>
    rw [hp] at h1
    have hW : (Channel.write x rc Y.world).1 = Y.world := by
      simp only [Channel.write, guarded, ho, hp]
    rw [hW]
    exact solo_one h h1
  | some p =>
    rw [hp] at h1
    apply solo_four h h1 rfl rc
    simp only [backSection, heap_log, ho, Option.bind_some, hp, Channel.write, guarded, writeBody]
    split <;> rfl

/-- **Alone, the sections of `read` are `PYLIBSSH2_Channel_read`.** -/
theorem solo_read (h : Y.pc t = .idle) (hx : Y.world.Holds x .channel) (eof rc : Int) :
    Solo Y t (Channel.read x eof rc Y.world).1 := by
  have h1 := Step.read x eof h hx
  obtain ⟨_, o, ho, _⟩ := hx
  unfold readSection at h1
  have hptr : (Y.world.heap x).bind Obj.ptr = o.ptr := by rw [ho]; rfl
  rw [hptr] at h1
  cases hp : o.ptr with
  | none =>
    rw [hp] at h1
    have hW : (Channel.read x eof rc Y.world).1 = Y.world := by
      simp only [Channel.read, ho, hp]
    rw [hW]
    exact solo_one h h1
  | some p =>
    rw [hp] at h1
    by_cases he : eof = 1
    · simp only [if_pos he] at h1
      have hW : (Channel.read x eof rc Y.world).1 = Y.world.log (.use .channelEof (some p)) := by
        simp only [Channel.read, ho, hp, if_pos he]
      rw [hW]
      exact solo_one h h1
    · simp only [if_neg he] at h1
      apply solo_four h h1 rfl rc
      simp only [backSection, heap_log, ho, Option.bind_some, hp, Channel.read, guarded, if_neg he,
        readBody]
      split <;> rfl

theorem solo_round {n : Nat} (hx : HashSet.popKey n (W.reg s .channel) = some x) :
    ∃ ts, (∀ u ∈ ts, u = t) ∧ Trans.Run Step (Y.set t (W, .closing s .channels)) ts
      (Y.set t (decrefChannel x (channelClose x
        (W.setReg s .channel (HashSet.drop x (W.reg s .channel)))), .closing s .channels)) := by
  have h1 := Step.pop (Y := Y.set t (W, .closing s .channels)) n (set_pc_self _)
  unfold popSection at h1
  simp only [set_world, hx] at h1
  cases hp : ((W.setReg s .channel (HashSet.drop x (W.reg s .channel))).heap x).bind Obj.ptr with
  | none =>
    rw [hp] at h1
    simp only [channelClose, hp]
    exact ⟨[t], fun u hu => List.mem_singleton.mp hu, Trans.Run.single (step_from h1)⟩
  | some p =>
    rw [hp] at h1
    have h2 := solo_site h1 rfl 0
    rw [set_set] at h2
    simp only [backSection, giveBack, heap_log, hp, closeBody] at h2
    simp only [channelClose, hp]
    exact ⟨[t, t, t, t], by simp, h2⟩

/-- **Alone, the rounds over the channels are the second loop of `Session_close`.** -/
theorem solo_channels (pick : Nat → Nat) (n : Nat) (W : World) :
    ∃ ts, (∀ u ∈ ts, u = t) ∧ Trans.Run Step (Y.set t (W, .closing s .channels)) ts
      (Y.set t (drain (fun x W => decrefChannel x (channelClose x W)) s .channel pick n W,
        .closing s .channels)) := by
  induction n generalizing W with
  | zero => exact ⟨[], fun u hu => absurd hu List.not_mem_nil, Trans.Run.nil⟩
  | succ n ih =>
    unfold drain
    cases hx : HashSet.popKey (pick n) (W.reg s .channel) with
    | none => exact ⟨[], fun u hu => absurd hu List.not_mem_nil, Trans.Run.nil⟩
    | some x =>
      obtain ⟨ts, hts, h1⟩ := solo_round (Y := Y) (t := t) hx
      obtain ⟨us, hus, h2⟩ := ih (decrefChannel x (channelClose x
        (W.setReg s .channel (HashSet.drop x (W.reg s .channel)))))
      refine ⟨ts ++ us, fun u hu => ?_, h1.trans h2⟩
      rcases List.mem_append.mp hu with h3 | h3
      · exact hts u h3
      · exact hus u h3

end PyLibssh2.Threads

import PyLibssh2.Ext.Close

/-!
# The methods of the extension module

One definition per method that opens, closes or works on a libssh2 handle.  What libssh2 answers and
whether `PyObject_New` finds memory are arguments; the wrappers, the sets and the calls made are
computed.

* opening: `Session.openSession`, `Session.scpSend`, `Session.scpRecv`, `Session.sftpInit`,
  `Session.directTcpip`, `Session.forwardListen`, `Listener.accept`, `Sftp.openFile`, `Sftp.openDir`;
* closing: `Session.channelClose`, `Session.sftpShutdown`, `Session.forwardCancel`,
  `Sftp.closeFile`, `Sftp.closeDir`, `Session.close`, and dropping a reference;
* every other method of `Channel`, `Sftp`, `Sftpfile` and `Sftpdir` tests its pointer, calls libssh2
  with it and reports errors in one way: `guarded`.
-/

set_option linter.unusedSectionVars false

namespace PyLibssh2

open World

/-! ## results -/

inductive Exc
  /-- `PYLIBSSH2_Error` -/
  | libssh2
  /-- no exception of the module: `MemoryError` of `PyObject_New`, or `NULL` returned with none set -/
  | system
  deriving DecidableEq

/-- what a method gives back to Python -/
inductive Ret
  | none
  | obj (x : Ref)
  /-- a libssh2 pointer cast to `PyObject *` -/
  | raw (p : Ptr)
  | raised (e : Exc)
  deriving DecidableEq

/-! ## opening -/

/-- what an open call meets: the pointer libssh2 returns, the code `libssh2_session_last_error` gives
when it is `NULL`, and whether `PyObject_New` succeeds -/
structure Answer where
  ret : Option Addr
  rc : Int
  alloc : Bool

/-- `LIBSSH2_ERROR_SFTP_PROTOCOL` -/
def errorSftpProtocol : Int := -31

/-- the error branch of an open call reads the error of the session -/
def failOpen (session : Ptr) (W : World) : World × Ret :=
  (W.log (.use .sessionLastError (some session)), .raised .libssh2)

/-- `PYLIBSSH2_Channel_New`, `_Sftp_New`, `_Sftpfile_New`, `_Sftpdir_New`, `_Listener_New`: a wrapper
with one reference, the caller's -/
def new (o : Obj) (W : World) : World × Ref :=
  ({ W with heap := Function.update W.heap W.fresh (some { o with refcnt := 1 })
            fresh := W.fresh + 1 }, W.fresh)

/-- call libssh2 for a handle; wrap it, enter it in `o`'s registry and hand it to Python -/
def openWith (fn : OpenFn) (arg : Ptr) (o : Obj) (leak : Nat) (a : Answer) (W : World) :
    World × Ret :=
  match a.ret with
  | none => failOpen o.session (W.log (.acquire fn (some arg) none []))
  | some addr =>
    let p : Ptr := ⟨W.fresh, addr⟩
    let W := { W.log (.acquire fn (some arg) (some p) o.owners) with fresh := W.fresh + 1 }
    if a.alloc then
      let (W, x) := new { o with ptr := some p } W
      let W := if o.managed then setAdd W o.parent o.kind x else W
      let W := W.modify x fun c => { c with refcnt := c.refcnt + leak }
      ({ W with held := Function.update W.held x 1 }, .obj x)
    else (W, .raised .system)

/-- a wrapper to be opened through the session `s` -/
def child (s : Ref) (session : Ptr) (k : Kind) : Obj where
  kind := k
  session := session
  sftp := none
  ptr := none
  opened := false
  refcnt := 0
  parent := s
  managed := true

/-- run a method of a session -/
def onSession (s : Ref) (W : World) (f : Ptr → World × Ret) : World × Ret :=
  match W.heap s with
  | some o => f o.session
  | none => (W, .raised .system)

/-- `PYLIBSSH2_Session_open_session` -/
def Session.openSession (s : Ref) (a : Answer) (W : World) : World × Ret :=
  onSession s W fun p => openWith .channelOpenSession p (child s p .channel) 0 a W

/-- `PYLIBSSH2_Session_scp_send` -/
def Session.scpSend (s : Ref) (a : Answer) (W : World) : World × Ret :=
  onSession s W fun p => openWith .scpSend p (child s p .channel) 0 a W

/-- `PYLIBSSH2_Session_scp_recv`; `Py_BuildValue("OO", …)` takes a second reference to the channel,
and the one of `PYLIBSSH2_Channel_New` is never given up -/
def Session.scpRecv (s : Ref) (a : Answer) (W : World) : World × Ret :=
  onSession s W fun p =>
    match a.ret with
    -- `PyErr_SetString`: the error of the session is not read
    | none => (W.log (.acquire .scpRecv (some p) none []), .raised .libssh2)
    | some _ => openWith .scpRecv p (child s p .channel) 1 a W

/-- `PYLIBSSH2_Session_sftp_init` -/
def Session.sftpInit (s : Ref) (a : Answer) (W : World) : World × Ret :=
  onSession s W fun p => openWith .sftpInit p (child s p .sftp) 0 a W

/-- `PYLIBSSH2_Session_forward_listen` -/
def Session.forwardListen (s : Ref) (a : Answer) (W : World) : World × Ret :=
  onSession s W fun p => openWith .channelForwardListen p (child s p .listener) 0 a W

/-- `PYLIBSSH2_Session_direct_tcpip`: the libssh2 channel itself is returned -/
def Session.directTcpip (s : Ref) (a : Answer) (W : World) : World × Ret :=
  onSession s W fun p =>
    match a.ret with
    | none => failOpen p (W.log (.acquire .channelDirectTcpip (some p) none []))
    | some addr =>
      let q : Ptr := ⟨W.fresh, addr⟩
      ({ W.log (.acquire .channelDirectTcpip (some p) (some q) [p]) with
          fresh := W.fresh + 1, raw := (s, q) :: W.raw }, .raw q)

/-- `PYLIBSSH2_Listener_accept`: no test of the listener, and the channel is in no set -/
def Listener.accept (l : Ref) (a : Answer) (W : World) : World × Ret :=
  match W.heap l with
  | none => (W, .raised .system)
  | some o =>
    match o.ptr with
    | some p =>
      openWith .channelForwardAccept p { child o.parent o.session .channel with managed := false }
        0 a W
    | none =>
      -- `libssh2_channel_forward_accept(NULL)`
      failOpen o.session (W.log (.acquire .channelForwardAccept none none []))

/-- `PYLIBSSH2_Sftp_open_file` and `PYLIBSSH2_Sftp_open_dir` up to the names -/
def openHandle (fn : OpenFn) (k : Kind) (f : Ref) (a : Answer) (W : World) : World × Ret :=
  match W.heap f with
  | none => (W, .raised .system)
  | some o =>
    match o.ptr with
    | none => (W, .raised .libssh2)
    | some p =>
      let (W, r) := openWith fn p { child f o.session k with sftp := some p } 0 a W
      if a.ret = none ∧ a.rc = errorSftpProtocol then (W.log (.use .sftpLastError (some p)), r)
      else (W, r)

/-- `PYLIBSSH2_Sftp_open_file` -/
def Sftp.openFile (f : Ref) (a : Answer) (W : World) : World × Ret := openHandle .sftpOpen .file f a W

/-- `PYLIBSSH2_Sftp_open_dir` -/
def Sftp.openDir (f : Ref) (a : Answer) (W : World) : World × Ret := openHandle .sftpOpendir .dir f a W

/-! ## starting a session -/

/-- `_libssh2.Session()`: `libssh2_session_init`, `PYLIBSSH2_Session_New` -/
def Session.init (a : Addr) (W : World) : World × Ret :=
  let p : Ptr := ⟨W.fresh, a⟩
  let W := { W.log (.init p) with fresh := W.fresh + 1 }
  let (W, x) := new { child W.fresh p .session with ptr := some p, managed := false } W
  let W := W.log (.use .bannerSet (some p))
  ({ W with held := Function.update W.held x 1 }, .obj x)

/-- `PYLIBSSH2_Session_startup` -/
def Session.startup (s : Ref) (rc : Int) (W : World) : World × Ret :=
  onSession s W fun p =>
    let W := W.log (.startup (some p) rc)
    if rc < 0 then failOpen p W
    else (W.modify s fun c => { c with opened := true }, .none)

/-! ## closing -/

/-- `PYLIBSSH2_Session_channel_close` -/
def Session.channelClose (s c : Ref) (W : World) : World × Ret :=
  (PyLibssh2.channelClose c (setDiscard decrefChannel s .channel c W), .none)

/-- `PYLIBSSH2_Session_sftp_shutdown` -/
def Session.sftpShutdown (pick : Pick) (s f : Ref) (W : World) : World × Ret :=
  (PyLibssh2.sftpShutdown pick f (setDiscard (decrefSftp pick) s .sftp f W), .none)

/-- `PYLIBSSH2_Session_forward_cancel` -/
def Session.forwardCancel (s l : Ref) (W : World) : World × Ret :=
  (listenerCancel l (setDiscard decrefListener s .listener l W), .none)

/-- `PYLIBSSH2_Sftp_close_file` -/
def Sftp.closeFile (f x : Ref) (W : World) : World × Ret :=
  match (W.heap f).bind Obj.ptr with
  | none => (W, .raised .libssh2)
  | some _ => (sftpfileClose x (setDiscard decrefFile f .file x W), .none)

/-- `PYLIBSSH2_Sftp_close_dir` -/
def Sftp.closeDir (f x : Ref) (W : World) : World × Ret :=
  match (W.heap f).bind Obj.ptr with
  | none => (W, .raised .libssh2)
  | some _ => (sftpdirClose x (setDiscard decrefDir f .dir x W), .none)

/-- `PYLIBSSH2_Session_close`; `rc` is what `libssh2_session_disconnect` returns -/
def Session.close (pick : Pick) (s : Ref) (rc : Int) (W : World) : World × Ret :=
  let rc := match W.heap s with
    | some o => if o.opened then rc else 0
    | none => 0
  (sessionClose pick s W, if rc < 0 then .raised .libssh2 else .none)

/-! ## working on a handle -/

/-- how a method calls libssh2: the function, the return codes it treats as errors, and whether the
error branch asks for the message of the session -/
structure Body where
  fn : UseFn
  fails : Int → Bool
  lastError : Bool

/-- the calls of an error branch -/
def failUse (b : Body) (o : Obj) (rc : Int) (W : World) : World :=
  let W := if b.lastError then W.log (.use .sessionLastError (some o.session)) else W
  if o.kind = .sftp ∧ rc = errorSftpProtocol then W.log (.use .sftpLastError o.ptr) else W

/-- the common form: `if (self->channel == NULL) …`, the call, `if (rc < 0) …` -/
def guarded (b : Body) (self : Ref) (rc : Int) (W : World) : World × Ret :=
  match W.heap self with
  | none => (W, .raised .system)
  | some o =>
    match o.ptr with
    | none => (W, .raised .libssh2)
    | some p =>
      let W := W.log (.use b.fn (some p))
      if b.fails rc then (failUse b o rc W, .raised .libssh2) else (W, .none)

def nonzero (rc : Int) : Bool := rc ≠ 0
def negative (rc : Int) : Bool := rc < 0
def never (_ : Int) : Bool := false

def Channel.pty := guarded ⟨.channelRequestPty, nonzero, true⟩
def Channel.ptyResize := guarded ⟨.channelRequestPtySize, nonzero, true⟩
def Channel.shell := guarded ⟨.channelShell, nonzero, true⟩
def Channel.execute := guarded ⟨.channelExec, nonzero, true⟩
def Channel.setenv := guarded ⟨.channelSetenv, negative, true⟩
def Channel.setblocking := guarded ⟨.channelSetBlocking, never, false⟩
def Channel.readEx := guarded ⟨.channelReadEx, fun rc => rc ≤ 0, true⟩
def Channel.write := guarded ⟨.channelWrite, negative, true⟩
def Channel.flush := guarded ⟨.channelFlush, negative, true⟩
def Channel.eof := guarded ⟨.channelEof, negative, false⟩
def Channel.exitStatus := guarded ⟨.channelGetExitStatus, fun rc => rc = 0, false⟩
def Channel.sendEof := guarded ⟨.channelSendEof, negative, true⟩
def Channel.waitEof := guarded ⟨.channelWaitEof, negative, true⟩
def Channel.waitClosed := guarded ⟨.channelWaitClosed, negative, true⟩
def Channel.windowRead := guarded ⟨.channelWindowRead, never, false⟩
def Channel.windowWrite := guarded ⟨.channelWindowWrite, never, false⟩
def Channel.pollRead := guarded ⟨.pollChannelRead, never, false⟩
def Channel.x11Req := guarded ⟨.channelX11Req, negative, true⟩
def Channel.receiveWindowAdjust := guarded ⟨.channelReceiveWindowAdjust, negative, false⟩

/-- `PYLIBSSH2_Channel_read`: `libssh2_channel_read` unless the end of file has been seen -/
def Channel.read (self : Ref) (eof rc : Int) (W : World) : World × Ret :=
  match W.heap self with
  | none => (W, .raised .system)
  | some o =>
    match o.ptr with
    | none => (W, .raised .libssh2)
    | some p =>
      let W := W.log (.use .channelEof (some p))
      if eof = 1 then (W, .none)
      else guarded ⟨.channelRead, negative, true⟩ self rc W

def Sftp.unlink := guarded ⟨.sftpUnlink, nonzero, true⟩
def Sftp.rename := guarded ⟨.sftpRename, negative, true⟩
def Sftp.mkdir := guarded ⟨.sftpMkdir, nonzero, true⟩
def Sftp.rmdir := guarded ⟨.sftpRmdir, negative, true⟩
def Sftp.realpath := guarded ⟨.sftpRealpath, negative, true⟩
def Sftp.readlink := guarded ⟨.sftpReadlink, negative, true⟩
def Sftp.symlink := guarded ⟨.sftpSymlink, negative, true⟩
def Sftp.getStat := guarded ⟨.sftpStat, negative, true⟩
def Sftp.setStat := guarded ⟨.sftpSetstat, negative, true⟩

/-- `PYLIBSSH2_Sftpfile_read`: an error gives `None` -/
def Sftpfile.read := guarded ⟨.sftpRead, never, false⟩
def Sftpfile.write := guarded ⟨.sftpWrite, negative, false⟩
def Sftpfile.tell := guarded ⟨.sftpTell, never, false⟩
def Sftpfile.seek := guarded ⟨.sftpSeek, never, false⟩

/-- `PYLIBSSH2_Sftpdir_read` -/
def Sftpdir.read := guarded ⟨.sftpReaddir, fun rc => rc = -1, false⟩

/-- `PYLIBSSH2_Sftpdir_list_files`: `libssh2_sftp_readdir` until it returns `0` or a negative code, which
`_PyString_Resize` refuses if it is not `-1` -/
def Sftpdir.listFiles (self : Ref) : List Int → World → World × Ret
  | [], W => Sftpdir.read self 0 W
  | rc :: rcs, W =>
    if rc ≤ 0 ∨ (W.heap self).bind Obj.ptr = none then Sftpdir.read self rc W
    else Sftpdir.listFiles self rcs (Sftpdir.read self rc W).1

/-- the methods of `Session` that only work on the session: `set_banner`, `userauth_password`, … -/
def Session.method (fn : UseFn) (s : Ref) (W : World) : World × Ret :=
  onSession s W fun p => (W.log (.use fn (some p)), .none)

/-! ## dropping a reference -/

/-- Python code gives up a reference it owns -/
def dropRef (pick : Pick) (x : Ref) (W : World) : World × Ret :=
  (decref pick x { W with held := Function.update W.held x (W.held x - 1) }, .none)

end PyLibssh2

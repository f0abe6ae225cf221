import PyLibssh2.Ext.Calls
import PyLibssh2.Ext.Use
import PyLibssh2.Sftp.Stat

/-!
# How the methods report errors

When libssh2 reports an error a method asks the session for its last error and picks the exception in a
`switch`.  There are two ways to ask.  A method that got a code takes the text of the session only if the
error of the session has that code; a method that got a pointer takes code and text as they are.

* `Report`             what follows the call of libssh2 in a method: the test, and the `switch`;
* `Channel.pty`, …     one definition for each method;
* `Report.raise`       the exception, if any;
* `remote_errors`      on the requests that the model of the remote files has, its errors are these;
* `method_raises_iff`  the methods of the extension module raise exactly if these do.
-/

set_option linter.unusedSectionVars false
set_option linter.unusedVariables false

namespace PyLibssh2.Errors

open Remote World

/-! ## the codes of libssh2 -/

def errorSocketNone : Int := -1
def errorBannerSend : Int := -3
def errorKexFailure : Int := -5
def errorSocketDisconnect : Int := -13
def errorProto : Int := -14
def errorPasswordExpired : Int := -15
def errorFile : Int := -16
def errorAuthenticationFailed : Int := -18
def errorPublickeyUnverified : Int := -19
def errorChannelFailure : Int := -21
def errorChannelRequestDenied : Int := -22
def errorChannelClosed : Int := -26
def errorChannelEofSent : Int := -27
def errorScpProtocol : Int := -28
def errorRequestDenied : Int := -32
def errorMethodNotSupported : Int := -33
def errorInval : Int := -34
def errorBufferTooSmall : Int := -38

/-! ## reports -/

/-- an error of a session: what `libssh2_session_last_error` returns and stores in `errmsg` -/
structure LastError where
  code : Int
  errmsg : String
  deriving DecidableEq

def LastError.none : LastError := ⟨0, ""⟩

/-- the statement of a case -/
inductive Branch
  /-- a text, `PyErr_SetString` -/
  | text (msg : String)
  /-- `PyErr_Format` with `…%s` and `errmsg` -/
  | quote (msg : String)
  /-- `PyErr_Format` with `…%i` and `rc` -/
  | number (msg : String)
  /-- `PyErr_Format` with `…%i: %s`, `rc` and `errmsg` -/
  | both (msg : String)
  /-- `libssh2_sftp_errno_to_exception(libssh2_sftp_last_error(self->sftp))` -/
  | status
  deriving DecidableEq

/-- how a method finds out that libssh2 reports an error, and what `rc` and `errmsg` are then -/
inductive Test
  /-- `rc` is what libssh2 returned, `errmsg` is empty if the error of the session is another one -/
  | code (fails : Int → Bool)
  /-- libssh2 returned `NULL`, `rc` and `errmsg` are the error of the session -/
  | pointer
  /-- `rc` is what libssh2 returned, and the session is not asked -/
  | alone (fails : Int → Bool)

/-- what follows the call of libssh2 in a method -/
structure Report where
  test : Test
  cases : List (Int × Branch)
  default : Branch

/-- libssh2 reports an error; a pointer is its address -/
def Report.fails (r : Report) (rc : Int) : Bool :=
  match r.test with
  | .code fails | .alone fails => fails rc
  | .pointer => rc = 0

/-- `rc` and `errmsg` in the `switch` -/
def Report.error (r : Report) (rc : Int) (last : LastError) : LastError :=
  match r.test with
  | .code _ => ⟨rc, if last.code ≠ rc then "" else last.errmsg⟩
  | .pointer => last
  | .alone _ => ⟨rc, ""⟩

/-- `switch (rc)` -/
def Report.branch (r : Report) (rc : Int) : Branch := (r.cases.lookup rc).getD r.default

def Branch.exc (b : Branch) (e : LastError) (sftpErr : Int) : PyExc :=
  match b with
  | .text msg => .error msg
  | .quote msg => .error (msg ++ e.errmsg)
  | .number msg => .error (msg ++ toString e.code)
  | .both msg => .error (msg ++ toString e.code ++ ": " ++ e.errmsg)
  | .status => errnoToException sftpErr

def Report.exc (r : Report) (e : LastError) (sftpErr : Int) : PyExc := (r.branch e.code).exc e sftpErr

/-- the exception that is raised when libssh2 has returned `rc` and the error is `e` -/
def Report.raise (r : Report) (rc : Int) (e : LastError) (sftpErr : Int) : Option PyExc :=
  if r.fails rc then some (r.exc e sftpErr) else .none

/-! ## cases that many methods have -/

def caseAlloc : Int × Branch := (errorAlloc, .quote "An internal memory allocation call failed: ")
def caseSocketSend : Int × Branch := (errorSocketSend, .quote "Unable to send data on socket: ")
def caseRequestDenied : Int × Branch :=
  (errorChannelRequestDenied, .quote "LIBSSH2_ERROR_CHANNEL_REQUEST_DENIED: ")
def caseChannelClosed : Int × Branch := (errorChannelClosed, .quote "The channel has been closed: ")
def caseTimeout : Int × Branch := (errorSocketTimeout, .quote "LIBSSH2_ERROR_SOCKET_TIMEOUT: ")
def caseStatus : Int × Branch := (errorSftpProtocol, .status)
def caseBufferTooSmall : Int × Branch := (errorBufferTooSmall, .quote "LIBSSH2_ERROR_BUFFER_TOO_SMALL: ")
def caseProto : Int × Branch :=
  (errorProto, .quote "An invalid SSH protocol response was received on the socket: ")
def caseWouldBlock : Int × Branch :=
  (errorEagain, .quote "Marked for non-blocking I/O but the call would block: ")
def caseWouldBlockText : Int × Branch :=
  (errorEagain, .text "Marked for non-blocking I/O but the call would block.")
def unknownError : Branch := .both "Unknown Error "

/-! ## channels -/

def Channel.pty : Report :=
  ⟨.code nonzero, [caseAlloc, caseSocketSend, caseRequestDenied], unknownError⟩
def Channel.ptyResize : Report := ⟨.code nonzero, [], unknownError⟩
def Channel.shell : Report :=
  ⟨.code nonzero, [caseAlloc, caseSocketSend, caseRequestDenied], unknownError⟩
def Channel.execute : Report :=
  ⟨.code nonzero, [caseAlloc, caseSocketSend, caseRequestDenied], unknownError⟩
def Channel.setenv : Report :=
  ⟨.code negative, [caseAlloc, caseSocketSend, caseRequestDenied], unknownError⟩
def Channel.read : Report := ⟨.code negative, [caseSocketSend, caseChannelClosed], unknownError⟩
def Channel.readEx : Report :=
  ⟨.code fun rc => rc ≤ 0, [caseSocketSend, caseChannelClosed], unknownError⟩
def Channel.write : Report :=
  ⟨.code negative, [caseAlloc, caseSocketSend, caseChannelClosed,
    (errorChannelEofSent, .quote "The channel has been requested to be closed: ")], unknownError⟩
def Channel.flush : Report := ⟨.code negative, [caseWouldBlockText], unknownError⟩
def Channel.exitStatus : Report :=
  ⟨.alone fun rc => rc = 0, [], .text "Unable to get exit status."⟩
def Channel.eof : Report := ⟨.alone negative, [], .text "Unable to check channel eof."⟩
def Channel.sendEof : Report :=
  ⟨.code negative, [(errorSocketSend, .quote "Unable to send data on socket.: ")], unknownError⟩
def Channel.waitEof : Report := ⟨.code negative, [(errorEagain, .quote ": ")], unknownError⟩
def Channel.waitClosed : Report := ⟨.code negative, [(errorEagain, .quote ": ")], unknownError⟩
def Channel.x11Req : Report :=
  ⟨.code negative, [caseAlloc, caseSocketSend, caseRequestDenied], unknownError⟩
def Channel.receiveWindowAdjust : Report := ⟨.alone negative, [], .number "Unknown Error "⟩

/-! ## sessions and listeners -/

def Session.startup : Report :=
  ⟨.code negative, [(errorSocketNone, .quote "The socket is invalid: "),
    (errorBannerSend, .quote "Unable to send banner to remote host: "),
    (errorKexFailure, .quote "Encryption key exchange with the remote host failed: "),
    caseSocketSend, (errorSocketDisconnect, .quote "The socket was disconnected: "), caseProto,
    caseWouldBlock], .both "Failure establishing startup "⟩
def Session.setBanner : Report :=
  ⟨.code negative, [(errorAlloc, .text " An internal memory allocation call failed."),
    caseWouldBlockText], .number "Unknown Error "⟩
/-- `rc` is the result of `Session_close` -/
def Session.close : Report := ⟨.alone negative, [], .text "SSH close error."⟩
def Session.userauthList : Report :=
  ⟨.pointer, [caseAlloc, caseSocketSend, caseWouldBlockText], .both "Unknown error "⟩
def Session.userauthPassword : Report :=
  ⟨.code negative, [caseAlloc, caseSocketSend,
    (errorPasswordExpired, .quote "LIBSSH2_ERROR_PASSWORD_EXPIRED: "),
    (errorAuthenticationFailed,
      .quote "failed, invalid username/password or public/private key: ")], unknownError⟩
def casesPublickey : List (Int × Branch) :=
  [caseAlloc, caseSocketSend, caseTimeout,
    (errorPublickeyUnverified, .quote "The username/public key combination was invalid: "),
    (errorAuthenticationFailed,
      .quote "Authentication using the supplied public key was not accepted: "),
    caseWouldBlockText]
def Session.userauthPublickeyFromfile : Report := ⟨.code nonzero, casesPublickey, unknownError⟩
def Session.userauthHostbasedFromfile : Report :=
  ⟨.code nonzero, casesPublickey ++ [(errorFile, .quote "LIBSSH2_ERROR_FILE: ")], unknownError⟩
def Session.userauthKeyboardinteractive : Report :=
  ⟨.code negative, [caseAlloc, caseSocketSend,
    (errorAuthenticationFailed,
      .quote "failed, invalid username/password or public/private key: ")], unknownError⟩
def Session.sessionMethodPref : Report :=
  ⟨.code negative, [(errorInval, .text "The requested method type was invalid."),
    (errorAlloc, .text "An internal memory allocation call failed."),
    (errorMethodNotSupported, .text "The requested method is not supported.")],
    .number "Unknown Error "⟩
def Session.openSession : Report :=
  ⟨.pointer, [caseAlloc, (errorSocketSend, .quote "Unable to send data on socket.: "),
    (errorChannelFailure, .quote "LIBSSH2_ERROR_CHANNEL_FAILURE: ")],
    .both "Failed to open a channel session "⟩
/-- the session is not asked for its error -/
def Session.scpRecv : Report := ⟨.alone fun rc => rc = 0, [], .text "SCP receive error."⟩
def Session.scpSend : Report :=
  ⟨.pointer, [caseAlloc, caseSocketSend,
    (errorScpProtocol, .quote "LIBSSH2_ERROR_SCP_PROTOCOL: "), caseWouldBlock], unknownError⟩
def Session.sftpInit : Report :=
  ⟨.pointer, [caseAlloc, (errorSocketSend, .quote " Unable to send data on socket: "), caseTimeout,
    (errorSftpProtocol, .quote <| "An invalid SFTP protocol response was received on the socket, " ++
      "or an SFTP operation caused an errorcode to be returned by the server: "),
    (errorEagain, .quote "LIBSSH2_ERROR_EAGAIN: "),
    (errorChannelFailure, .quote "LIBSSH2_ERROR_CHANNEL_FAILURE: ")], unknownError⟩
def Session.directTcpip : Report := ⟨.pointer, [caseAlloc], unknownError⟩
def casesForward : List (Int × Branch) :=
  [caseAlloc, caseSocketSend, caseProto,
    (errorRequestDenied, .quote "The remote server refused the request: "), caseWouldBlock]
def Session.forwardListen : Report := ⟨.pointer, casesForward, unknownError⟩
def Listener.accept : Report := ⟨.pointer, casesForward, unknownError⟩

/-! ## sftps -/

def casesOpen : List (Int × Branch) :=
  [caseAlloc, caseSocketSend, (errorSocketTimeout, .quote ": "), caseStatus, caseWouldBlock]
def Sftp.openDir : Report := ⟨.pointer, casesOpen, .both "Unable to open sftp directory "⟩
def Sftp.openFile : Report := ⟨.pointer, casesOpen, .both "Unable to open sftp file "⟩
def casesRequest : List (Int × Branch) := [caseAlloc, caseSocketSend, caseTimeout, caseStatus]
def Sftp.unlink : Report :=
  ⟨.code nonzero, casesRequest, .both "Error while unlink an SFTP file "⟩
def Sftp.rename : Report :=
  ⟨.code negative, casesRequest, .both "Error while renaming an SFTP file "⟩
def Sftp.mkdir : Report :=
  ⟨.code nonzero, casesRequest, .both "Error while creating a directory on the remote file system "⟩
def Sftp.rmdir : Report :=
  ⟨.code negative, casesRequest, .both "Error while removing an SFTP directory "⟩
def Sftp.realpath : Report :=
  ⟨.code negative, casesRequest ++ [caseBufferTooSmall], .both "Error while realpath "⟩
def Sftp.readlink : Report :=
  ⟨.code negative, casesRequest ++ [caseBufferTooSmall], .both "Error while readlink "⟩
def Sftp.symlink : Report :=
  ⟨.code negative, casesRequest ++ [caseBufferTooSmall], .both "Unable to sftp symlink "⟩
def Sftp.getStat : Report := ⟨.code negative, casesRequest, .both "Unable to get stat "⟩
def Sftp.setStat : Report := ⟨.code negative, casesRequest, .both "Unable to set file stat "⟩
def Sftpfile.write : Report := ⟨.alone negative, [], .text "Unable to write sftp."⟩
def Sftpdir.read : Report := ⟨.alone fun rc => rc = -1, [], .text "Unable to readdir."⟩
def Sftpdir.listFiles : Report := ⟨.alone fun rc => rc = -1, [], .text "Unable to listdir."⟩

variable {r : Report} {e : LastError} {rc err : Int} {msg : String} {b : Branch}
  {cases : List (Int × Branch)}

/-! ## the requests of the remote files -/

/-- the error `e` as the model of the remote files has it -/
def reply (e : LastError) (err : Int) : Reply :=
  if e.code = errorSftpProtocol then .status err else .fault e.code e.errmsg

theorem lookup_cons (c d : Int) (b : Branch) (cases : List (Int × Branch)) :
    List.lookup c ((d, b) :: cases) = if c = d then some b else List.lookup c cases := by
  rw [List.lookup_cons]
  by_cases h : c = d
  · have hb : (c == d) = true := beq_iff_eq.mpr h
    simp only [hb, if_pos h]
  · have hb : (c == d) = false := beq_false_of_ne h
    simp only [hb, if_neg h]

theorem exc_cons (hcases : r.cases = (rc, b) :: cases) : r.exc e err =
    if e.code = rc then b.exc e err else { r with cases := cases }.exc e err := by
  unfold Report.exc Report.branch
  rw [hcases, lookup_cons]
  split_ifs <;> rfl

theorem exc_nil (hcases : r.cases = []) : r.exc e err = r.default.exc e err := by
  unfold Report.exc Report.branch
  rw [hcases]
  rfl

/-- the `switch` of a request is the one of `requestError` and `statError` -/
theorem exc_request (hcases : r.cases = casesRequest) (hdefault : r.default = .both msg) : r.exc e err =
    if e.code = errorSftpProtocol then errnoToException err
    else .error (if e.code = errorAlloc then "An internal memory allocation call failed: " ++ e.errmsg
      else if e.code = errorSocketSend then "Unable to send data on socket: " ++ e.errmsg
      else if e.code = errorSocketTimeout then "LIBSSH2_ERROR_SOCKET_TIMEOUT: " ++ e.errmsg
      else msg ++ toString e.code ++ ": " ++ e.errmsg) := by
  rw [exc_cons hcases, exc_cons rfl, exc_cons rfl, exc_cons rfl, exc_nil rfl, hdefault]
  by_cases h : e.code = errorSftpProtocol
  · rw [h]
    rfl
  · rw [if_neg h, if_neg h]
    split_ifs <;> rfl

theorem requestError_eq {what : String} (hcases : r.cases = casesRequest)
    (hdefault : r.default = .both ("Error while " ++ what ++ " an SFTP file ")) :
    requestError what (reply e err) = some (r.exc e err) := by
  rw [exc_request hcases hdefault, reply]
  by_cases h : e.code = errorSftpProtocol
  · rw [if_pos h, if_pos h]
    rfl
  · rw [if_neg h, if_neg h]
    rfl

theorem statError_eq {what : String} (hcases : r.cases = casesRequest)
    (hdefault : r.default = .both ("Unable to " ++ what ++ " ")) :
    statError what (reply e err) = some (r.exc e err) := by
  rw [exc_request hcases hdefault, reply]
  by_cases h : e.code = errorSftpProtocol
  · rw [if_pos h, if_pos h]
    rfl
  · rw [if_neg h, if_neg h]
    rfl

theorem openError_eq : openError (reply e err) = some (Sftp.openFile.exc e err) := by
  rw [exc_cons rfl, exc_cons rfl, exc_cons rfl, exc_cons rfl, exc_cons rfl, exc_nil rfl, reply]
  by_cases h : e.code = errorSftpProtocol
  · rw [if_pos h, h]
    rfl
  · rw [if_neg h, if_neg h, openError]
    split_ifs <;> rfl

theorem remote_errors (e : LastError) (err : Int) :
    requestError "renaming" (reply e err) = some (Sftp.rename.exc e err) ∧
    requestError "unlink" (reply e err) = some (Sftp.unlink.exc e err) ∧
    statError "get stat" (reply e err) = some (Sftp.getStat.exc e err) ∧
    statError "set file stat" (reply e err) = some (Sftp.setStat.exc e err) ∧
    openError (reply e err) = some (Sftp.openFile.exc e err) :=
  ⟨requestError_eq rfl (by decide), requestError_eq rfl (by decide), statError_eq rfl (by decide),
    statError_eq rfl (by decide), openError_eq⟩

/-! ## the methods of the extension module -/

/-- what follows the call in a method, and the code that libssh2 returns; a method without a report
raises nothing -/
def methodReport : Method → Option (Report × Int)
  | .pty rc => some (Channel.pty, rc)
  | .ptyResize rc => some (Channel.ptyResize, rc)
  | .shell rc => some (Channel.shell, rc)
  | .execute rc => some (Channel.execute, rc)
  | .setenv rc => some (Channel.setenv, rc)
  | .read eof rc => if eof = 1 then none else some (Channel.read, rc)
  | .readEx rc => some (Channel.readEx, rc)
  | .write rc => some (Channel.write, rc)
  | .flush rc => some (Channel.flush, rc)
  | .eof rc => some (Channel.eof, rc)
  | .exitStatus rc => some (Channel.exitStatus, rc)
  | .sendEof rc => some (Channel.sendEof, rc)
  | .waitEof rc => some (Channel.waitEof, rc)
  | .waitClosed rc => some (Channel.waitClosed, rc)
  | .x11Req rc => some (Channel.x11Req, rc)
  | .receiveWindowAdjust rc => some (Channel.receiveWindowAdjust, rc)
  | .unlink rc => some (Sftp.unlink, rc)
  | .rename rc => some (Sftp.rename, rc)
  | .mkdir rc => some (Sftp.mkdir, rc)
  | .rmdir rc => some (Sftp.rmdir, rc)
  | .realpath rc => some (Sftp.realpath, rc)
  | .readlink rc => some (Sftp.readlink, rc)
  | .symlink rc => some (Sftp.symlink, rc)
  | .getStat rc => some (Sftp.getStat, rc)
  | .setStat rc => some (Sftp.setStat, rc)
  | .fileWrite rc => some (Sftpfile.write, rc)
  | .dirRead rc => some (Sftpdir.read, rc)
  | .dirListFiles rcs => some (Sftpdir.listFiles, (rcs.find? (· ≤ 0)).getD 0)
  | .setblocking | .windowRead | .windowWrite | .pollRead | .fileRead | .fileTell | .fileSeek => none

def Reported (o : Option (Report × Int)) : Prop := ∃ r rc, o = some (r, rc) ∧ r.fails rc = true

variable {W : World} {x : Ref} {c : Obj} {p : Ptr} {body : Body}

theorem reported_some : Reported (some (r, rc)) ↔ r.fails rc = true := by
  constructor
  · intro h
    obtain ⟨_, _, heq, hf⟩ := h
    cases heq
    exact hf
  · exact fun h => ⟨r, rc, rfl, h⟩

theorem guarded_raises (hx : W.Open x c p) (hfails : r.fails = body.fails) :
    (guarded body x rc W).2 = .raised .libssh2 ↔ Reported (some (r, rc)) := by
  rw [guarded_result hx, reported_some, hfails]
  by_cases h : body.fails rc = true
  · rw [if_pos h]
    exact iff_of_true rfl h
  · rw [if_neg h]
    exact iff_of_false (fun h1 => (by cases h1)) h

theorem listFiles_raises (hx : W.Open x c p) (rcs : List Int) :
    (PyLibssh2.Sftpdir.listFiles x rcs W).2 = .raised .libssh2 ↔
      Reported (some (Sftpdir.listFiles, (rcs.find? (· ≤ 0)).getD 0)) := by
  induction rcs generalizing W with
  | nil => exact guarded_raises hx rfl
  | cons rc rcs ih =>
    have hopen : (W.heap x).bind Obj.ptr ≠ none := by
      rw [hx.1, Option.bind_some, hx.2]
      exact Option.some_ne_none p
    rw [PyLibssh2.Sftpdir.listFiles]
    by_cases h : rc ≤ 0
    · rw [if_pos (Or.inl h), List.find?_cons_of_pos (by simpa using h)]
      exact guarded_raises hx rfl
    · rw [if_neg fun h1 => h1.elim h hopen, List.find?_cons_of_neg (by simpa using h)]
      refine ih ⟨?_, hx.2⟩
      rw [PyLibssh2.Sftpdir.read, heap_guarded]
      exact hx.1

/-- a method of a wrapper that is open raises exactly if its report finds an error -/
theorem method_raises_iff (hx : W.Open x c p) (m : Method) :
    (m.run x W).2 = .raised .libssh2 ↔ Reported (methodReport m) := by
  have hsilent : ∀ {body : Body} {rc : Int}, body.fails = never →
      ((guarded body x rc W).2 = .raised .libssh2 ↔ Reported none) := by
    intro body rc hnever
    rw [guarded_result hx, hnever]
    exact iff_of_false (fun h => (by cases h)) fun h => (by obtain ⟨_, _, h, _⟩ := h; cases h)
  cases m
  case read eof rc =>
    show (PyLibssh2.Channel.read x eof rc W).2 = _ ↔ _
    rw [read_result_open hx, methodReport]
    by_cases h : eof = 1
    · rw [if_pos h, if_pos h]
      exact iff_of_false (fun h => (by cases h)) fun h => (by obtain ⟨_, _, h, _⟩ := h; cases h)
    · rw [if_neg h, if_neg h, reported_some]
      by_cases h0 : rc < 0
      · rw [if_pos h0]
        exact iff_of_true rfl (decide_eq_true h0)
      · rw [if_neg h0]
        exact iff_of_false (fun h => (by cases h)) fun h => h0 (of_decide_eq_true h)
  case dirListFiles rcs => exact listFiles_raises hx rcs
  case setblocking => exact hsilent rfl
  case windowRead => exact hsilent rfl
  case windowWrite => exact hsilent rfl
  case pollRead => exact hsilent rfl
  case fileRead => exact hsilent rfl
  case fileTell => exact hsilent rfl
  case fileSeek => exact hsilent rfl
  all_goals exact guarded_raises hx rfl

end PyLibssh2.Errors

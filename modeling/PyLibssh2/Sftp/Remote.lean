import Mathlib.Logic.Function.Basic
import Mathlib.Tactic.Cases

/-!
# The remote side of an sftp, and the errors of its requests

`Files` is what the server stores, `Reply` how libssh2 ends a request.  `errnoToException` is
`libssh2_sftp_errno_to_exception`: it translates the status codes of the protocol to the `errno` of an
`IOError`, several codes to the same number.
-/

set_option linter.unusedSectionVars false
set_option linter.unusedVariables false

namespace PyLibssh2.Remote

abbrev Path := String

abbrev Files := Path → Option (List UInt8)

inductive Reply
  | ok
  /-- `LIBSSH2_ERROR_SFTP_PROTOCOL`; `libssh2_sftp_last_error` returns the status code -/
  | status (code : Int)
  /-- another error, with the message of the session -/
  | fault (rc : Int) (errmsg : String)
  deriving DecidableEq

inductive PyExc
  | ioError (errno : Int) (strerror : String)
  /-- `PYLIBSSH2_Error` -/
  | error (msg : String)
  | overflowError (msg : String)
  deriving DecidableEq

/-! ## `errno` -/

def ENOENT : Int := 2
def EPERM : Int := 1
def EIO : Int := 5
def EBADMSG : Int := 74
def ECONNABORTED : Int := 103
def EEXIST : Int := 17
def EACCES : Int := 13
def ENODEV : Int := 19
def ENOMEM : Int := 12
def EDQUOT : Int := 122
def EDEADLOCK : Int := 35
def ENOTEMPTY : Int := 39
def ENOTDIR : Int := 20
def EINVAL : Int := 22
def ELOOP : Int := 40

/-- `libssh2_sftp_errno_to_exception` -/
def errnoToException (err : Int) : PyExc :=
  match err with
  | 2 => .ioError ENOENT "LIBSSH2_FX_NO_SUCH_FILE"
  | 3 => .ioError EPERM "LIBSSH2_FX_PERMISSION_DENIED"
  | 4 => .ioError EIO "LIBSSH2_FX_FAILURE"
  | 5 => .ioError EBADMSG "LIBSSH2_FX_BAD_MESSAGE"
  | 6 => .ioError EIO "LIBSSH2_FX_NO_CONNECTION"
  | 7 => .ioError ECONNABORTED "LIBSSH2_FX_CONNECTION_LOST"
  | 8 => .ioError EPERM "LIBSSH2_FX_OP_UNSUPPORTED"
  | 9 => .ioError EIO "LIBSSH2_FX_INVALID_HANDLE"
  | 10 => .ioError ENOENT "LIBSSH2_FX_NO_SUCH_PATH"
  | 11 => .ioError EEXIST "LIBSSH2_FX_FILE_ALREADY_EXISTS"
  | 12 => .ioError EACCES "LIBSSH2_FX_WRITE_PROTECT"
  | 13 => .ioError ENODEV "LIBSSH2_FX_NO_MEDIA"
  | 14 => .ioError ENOMEM "LIBSSH2_FX_NO_SPACE_ON_FILESYSTEM"
  | 15 => .ioError EDQUOT "LIBSSH2_FX_QUOTA_EXCEEDED"
  | 16 => .ioError EIO "LIBSSH2_FX_UNKNOWN_PRINCIPAL"
  | 17 => .ioError EDEADLOCK "LIBSSH2_FX_LOCK_CONFLICT"
  | 18 => .ioError ENOTEMPTY "LIBSSH2_FX_DIR_NOT_EMPTY"
  | 19 => .ioError ENOTDIR "LIBSSH2_FX_NOT_A_DIRECTORY"
  | 20 => .ioError EINVAL "LIBSSH2_FX_INVALID_FILENAME"
  | 21 => .ioError ELOOP "LIBSSH2_FX_LINK_LOOP"
  | err => .error ("Unknown SFTP error " ++ toString err)

/-- the status codes that become `EIO` -/
def eioCodes : List Int := [4, 6, 9, 16]

/-- the table maps exactly these four codes to `EIO` -/
theorem errnoToException_eio (err : Int) :
    (∃ s, errnoToException err = .ioError EIO s) ↔ err ∈ eioCodes := by
  constructor
  · rintro ⟨s, h⟩
    unfold errnoToException at h
    split at h
    case h_3 => decide
    case h_5 => decide
    case h_8 => decide
    case h_15 => decide
    case h_21 => cases h
    all_goals
      injection h with h1 _
      exact absurd h1 (by decide)
  · intro h
    simp only [eioCodes, List.mem_cons, List.not_mem_nil, or_false] at h
    rcases h with rfl | rfl | rfl | rfl
    · exact ⟨_, rfl⟩
    · exact ⟨_, rfl⟩
    · exact ⟨_, rfl⟩
    · exact ⟨_, rfl⟩

/-! ## the error branches -/

def errorAlloc : Int := -6
def errorSocketSend : Int := -7
def errorSocketTimeout : Int := -30
def errorEagain : Int := -37

/-- the `switch` of `PYLIBSSH2_Sftp_rename` and `PYLIBSSH2_Sftp_unlink`; `what` names the request in the
default branch -/
def requestError (what : String) : Reply → Option PyExc
  | .ok => none
  | .status code => some (errnoToException code)
  | .fault rc errmsg => some <| .error <|
    if rc = errorAlloc then "An internal memory allocation call failed: " ++ errmsg
    else if rc = errorSocketSend then "Unable to send data on socket: " ++ errmsg
    else if rc = errorSocketTimeout then "LIBSSH2_ERROR_SOCKET_TIMEOUT: " ++ errmsg
    else "Error while " ++ what ++ " an SFTP file " ++ toString rc ++ ": " ++ errmsg

/-- the `switch` of `PYLIBSSH2_Sftp_open_file` -/
def openError : Reply → Option PyExc
  | .ok => none
  | .status code => some (errnoToException code)
  | .fault rc errmsg => some <| .error <|
    if rc = errorAlloc then "An internal memory allocation call failed: " ++ errmsg
    else if rc = errorSocketSend then "Unable to send data on socket: " ++ errmsg
    else if rc = errorSocketTimeout then ": " ++ errmsg
    else if rc = errorEagain then
      "Marked for non-blocking I/O but the call would block: " ++ errmsg
    else "Unable to open sftp file " ++ toString rc ++ ": " ++ errmsg

/-- `if(self->sftp == NULL)` -/
def closedError : PyExc := .error "Sftp object has been closed/shutdown."

variable {r : Reply} {what : String}

theorem requestError_eq_none : requestError what r = none ↔ r = .ok := by
  cases r <;> simp [requestError]

theorem openError_eq_none : openError r = none ↔ r = .ok := by
  cases r <;> simp [openError]

theorem requestError_ioError {n : Int} {s : String} (h : requestError what r = some (.ioError n s)) :
    ∃ code, r = .status code ∧ errnoToException code = .ioError n s := by
  cases r with
  | ok => cases h
  | status code => exact ⟨code, rfl, Option.some.inj h⟩
  | fault rc errmsg => cases h

end PyLibssh2.Remote

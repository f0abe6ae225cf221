import PyLibssh2.Ext.Object

/-!
# Closing and deallocating wrappers

`channelClose`, `sftpfileClose`, `sftpdirClose`, `listenerCancel`, `sftpShutdown`, `sessionClose` are
the C functions of these names; the `Dealloc` functions are the `tp_dealloc` slots.  `decref` is
`Py_XDECREF`, which runs the slot when the last reference goes.

A `while (PySet_Size(s)) { item = PySet_Pop(s); …; Py_XDECREF(item); }` loop is `drain`.  Which member
`PySet_Pop` takes depends on the layout of the hash table, so every function that pops is given a
`Pick`: the slot to start from for each set and each number of members left.
-/

set_option linter.unusedSectionVars false

namespace PyLibssh2

/-- the slot `PySet_Pop` starts from: owner and kind of the set, number of members left -/
abbrev Pick := Ref → Kind → Nat → Nat

open World

/-! ## sets of wrappers -/

/-- `PySet_Add`: the set takes a reference of its own to a new member -/
def setAdd (W : World) (o : Ref) (k : Kind) (x : Ref) : World :=
  if (W.reg o k).any (HashSet.hit W.equal x (W.hashOf x)) then W
  else (W.setReg o k (W.reg o k ++ [(x, W.hashOf x)])).modify x fun c =>
    { c with refcnt := c.refcnt + 1 }

/-- `Py_XDECREF`, with the deallocator of the object's type -/
def decrefBy (dealloc : Ref → World → World) (x : Ref) (W : World) : World :=
  match W.heap x with
  | none => W
  | some o =>
    let W' := W.modify x fun c => { c with refcnt := c.refcnt - 1 }
    if o.refcnt = 1 then dealloc x W' else W'

/-- `PySet_Discard`: the set gives up the reference to the member it finds -/
def setDiscard (decref : Ref → World → World) (o : Ref) (k : Kind) (x : Ref) (W : World) : World :=
  match HashSet.found W.equal x (W.hashOf x) (W.reg o k) with
  | none => W
  | some y =>
    decref y (W.setReg o k (HashSet.discard W.equal x (W.hashOf x) (W.reg o k)))

/-- pop the members of a set one after the other and run `body` on each -/
def drain (body : Ref → World → World) (o : Ref) (k : Kind) (pick : Nat → Nat) :
    Nat → World → World
  | 0, W => W
  | n + 1, W =>
    match HashSet.popKey (pick n) (W.reg o k) with
    | none => W
    | some x => drain body o k pick n (body x (W.setReg o k (HashSet.drop x (W.reg o k))))

/-- `while (PySet_Size(set)) …` on a registry -/
def drainAll (body : Ref → World → World) (o : Ref) (k : Kind) (pick : Pick) (W : World) : World :=
  drain body o k (pick o k) (W.reg o k).length W

/-- `Py_XDECREF` of a set that nothing else refers to: its members lose a reference each -/
def decrefSet (decref : Ref → World → World) (o : Ref) (k : Kind) (W : World) : World :=
  (HashSet.keys (W.reg o k)).foldl (fun W x => decref x W) (W.setReg o k [])

/-! ## channels, files, directories, listeners -/

/-- `Channel_close` -/
def channelClose (self : Ref) (W : World) : World :=
  match (W.heap self).bind Obj.ptr with
  | some p => ((W.log (.use .channelClose (some p))).log (.free .channelFree (some p))).clear self
  | none => W

/-- hand the pointer to `fn` without a test, and forget it -/
def giveBack (fn : FreeFn) (self : Ref) (W : World) : World :=
  (W.log (.free fn ((W.heap self).bind Obj.ptr))).clear self

/-- `PYLIBSSH2_Sftpdir_close` -/
def sftpdirClose : Ref → World → World := giveBack .sftpCloseHandle

/-- `PYLIBSSH2_Sftpfile_close` -/
def sftpfileClose : Ref → World → World := giveBack .sftpCloseHandle

/-- `Listener_cancel` -/
def listenerCancel : Ref → World → World := giveBack .channelForwardCancel

/-- close what is still open, then `PyObject_Del` -/
def deallocWith (close : Ref → World → World) (self : Ref) (W : World) : World :=
  match (W.heap self).bind Obj.ptr with
  | some _ => (close self W).del self
  | none => W.del self

/-- `PYLIBSSH2_Channel_dealloc` -/
def channelDealloc : Ref → World → World := deallocWith channelClose

/-- `PYLIBSSH2_Listener_dealloc` -/
def listenerDealloc : Ref → World → World := deallocWith listenerCancel

/-- the deallocators of files and directories have `PyObject_Del` inside the test of the handle -/
def handleDealloc (self : Ref) (W : World) : World :=
  match (W.heap self).bind Obj.ptr with
  | some _ => (giveBack .sftpCloseHandle self W).del self
  | none => W

/-- `PYLIBSSH2_Sftpfile_dealloc` -/
def sftpfileDealloc : Ref → World → World := handleDealloc

/-- `PYLIBSSH2_Sftpdir_dealloc` -/
def sftpdirDealloc : Ref → World → World := handleDealloc

def decrefChannel : Ref → World → World := decrefBy channelDealloc
def decrefFile : Ref → World → World := decrefBy sftpfileDealloc
def decrefDir : Ref → World → World := decrefBy sftpdirDealloc
def decrefListener : Ref → World → World := decrefBy listenerDealloc

/-! ## sftps -/

/-- `Sftp_shutdown`; both loops close with `PYLIBSSH2_Sftpdir_close` -/
def sftpShutdown (pick : Pick) (self : Ref) (W : World) : World :=
  match (W.heap self).bind Obj.ptr with
  | none => W
  | some p =>
    let W := drainAll (fun x W => decrefDir x (sftpdirClose x W)) self .dir pick W
    let W := drainAll (fun x W => decrefFile x (sftpdirClose x W)) self .file pick W
    (W.log (.free .sftpShutdown (some p))).clear self

/-- `PYLIBSSH2_Sftp_dealloc` -/
def sftpDealloc (pick : Pick) (self : Ref) (W : World) : World :=
  let W :=
    match (W.heap self).bind Obj.ptr with
    | some _ => (sftpShutdown pick self W).clear self
    | none => W
  let W := decrefSet decrefDir self .dir W
  let W := decrefSet decrefFile self .file W
  W.del self

def decrefSftp (pick : Pick) : Ref → World → World := decrefBy (sftpDealloc pick)

/-! ## sessions -/

/-- `Session_close` -/
def sessionClose (pick : Pick) (self : Ref) (W : World) : World :=
  match W.heap self with
  | none => W
  | some o =>
    if o.opened then
      let W := drainAll (fun x W => decrefSftp pick x (sftpShutdown pick x W)) self .sftp pick W
      let W := drainAll (fun x W => decrefChannel x (channelClose x W)) self .channel pick W
      let W := drainAll (fun x W => decrefListener x W) self .listener pick W
      (W.log (.disconnect o.ptr)).modify self fun c => { c with opened := false }
    else W

/-- `PYLIBSSH2_Session_dealloc` -/
def sessionDealloc (pick : Pick) (self : Ref) (W : World) : World :=
  let W :=
    match W.heap self with
    | none => W
    | some o =>
      match o.ptr with
      | some p =>
        let W := if o.opened then sessionClose pick self W else W
        (W.log (.free .sessionFree (some p))).clear self
      | none => W
  let W := decrefSet (decrefSftp pick) self .sftp W
  let W := decrefSet decrefChannel self .channel W
  let W := decrefSet decrefListener self .listener W
  W.del self

def decrefSession (pick : Pick) : Ref → World → World := decrefBy (sessionDealloc pick)

/-- `Py_XDECREF` on a wrapper of any type -/
def decref (pick : Pick) (x : Ref) (W : World) : World :=
  match W.heap x with
  | none => W
  | some o =>
    match o.kind with
    | .session => decrefSession pick x W
    | .channel => decrefChannel x W
    | .sftp => decrefSftp pick x W
    | .file => decrefFile x W
    | .dir => decrefDir x W
    | .listener => decrefListener x W

end PyLibssh2

import Mathlib.Data.Nat.Bitwise
import Mathlib.Logic.Function.Basic
import PyLibssh2.Base.HashSet
import PyLibssh2.Base.Lifetime

/-!
# The wrapper objects of the extension module

`session.h`, `channel.h`, `sftp.h`, `sftpfile.h`, `sftpdir.h` and `listener.h` declare six structs of
one shape: a `LIBSSH2_SESSION *`, the libssh2 pointer the wrapper stands for, and for a session and
an sftp the Python sets of the wrappers opened through it.  They are one record `Obj` here, tagged
with the type object; `sftp.c` itself casts a file to a directory to close it.

* `Ptr`      a libssh2 pointer; two allocations differ even when the address was reused;
* `Obj.hash` the `tp_hash` slot of the type, `sftpCmp` the `tp_compare` slot of `Sftp`;
* `Call`     a call into libssh2 as far as handles go, `Call.events` what it means for them;
* `World`    all wrappers, their registries, the references Python code holds, and the calls made.

The fields `parent` and `managed` of `Obj` and `held` of `World` are not in the C structs: they say
through which wrapper an object was opened, whether that call entered it in a set, and how many
references belong to Python code.
-/

set_option linter.unusedSectionVars false

namespace PyLibssh2

/-! ## pointers and hashes -/

/-- the address of an allocation on a 64-bit platform -/
structure Addr where
  val : Nat
  pos : 0 < val
  lt : val < 2 ^ 64
  aligned : val % 8 = 0
  deriving DecidableEq

/-- a pointer that libssh2 returned; `serial` tells allocations at one address apart -/
structure Ptr where
  serial : Nat
  addr : Addr
  deriving DecidableEq

/-- `PyObject_Hash(PyLong_FromVoidPtr(p))`: the address, and `-2` for `-1` -/
def hashVoidPtr (p : Option Ptr) : BitVec 64 :=
  let x : BitVec 64 :=
    match p with
    | none => 0
    | some q => BitVec.ofNat 64 q.addr.val
  if x = -1 then -2 else x

/-- the hash of two pointers, as the `tp_hash` functions combine them -/
def hashPtrs (p q : Option Ptr) : BitVec 64 :=
  let h1 := hashVoidPtr p
  if h1 = -1 then -1
  else
    let h2 := hashVoidPtr q
    if h2 = -1 then -1
    else
      let h := h1 ^^^ h2
      if h = -1 then -2 else h

/-! ## objects -/

/-- a Python object, by identity -/
abbrev Ref := Nat

/-- the type object of a wrapper -/
inductive Kind
  | session | channel | sftp | file | dir | listener
  deriving DecidableEq

structure Obj where
  kind : Kind
  /-- the field `session`; for a session the pointer it was created with -/
  session : Ptr
  /-- the field `sftp` of a file or a directory -/
  sftp : Option Ptr
  /-- the field `session`, `channel`, `sftp`, `handle` or `listener`: what the wrapper stands for -/
  ptr : Option Ptr
  opened : Bool
  refcnt : Nat
  parent : Ref
  managed : Bool

/-- the type of the wrapper that a wrapper of this type is opened through -/
def Kind.parent : Kind → Option Kind
  | .session => none
  | .channel => some .session
  | .sftp => some .session
  | .listener => some .session
  | .file => some .sftp
  | .dir => some .sftp

/-- the pointers libssh2 frees this one with, nearest first -/
def Obj.owners (o : Obj) : List Ptr :=
  match o.kind with
  | .session => []
  | .channel => [o.session]
  | .sftp => [o.session]
  | .listener => [o.session]
  | .file => o.sftp.toList ++ [o.session]
  | .dir => o.sftp.toList ++ [o.session]

/-- the pointer of the parent -/
def Obj.ownerPtr (o : Obj) : Option Ptr := o.owners.head?

/-! ### `tp_hash` -/

/-- `PYLIBSSH2_Channel_hash` -/
def channelHash (self : Obj) : BitVec 64 := hashPtrs self.ptr (some self.session)

/-- `PYLIBSSH2_Sftp_hash` -/
def sftpHash (self : Obj) : BitVec 64 := hashPtrs self.ptr (some self.session)

/-- `PYLIBSSH2_Listener_hash` -/
def listenerHash (self : Obj) : BitVec 64 := hashPtrs self.ptr (some self.session)

/-- `PYLIBSSH2_Sftpfile_hash`: the handle is hashed too, and not used -/
def sftpfileHash (self : Obj) : BitVec 64 := hashPtrs self.sftp (some self.session)

/-- `PYLIBSSH2_Sftpdir_hash` -/
def sftpdirHash (self : Obj) : BitVec 64 := hashPtrs self.sftp (some self.session)

/-- the hash a set stores for an object; no session is ever put in a set -/
def Obj.hash (o : Obj) : BitVec 64 :=
  match o.kind with
  | .session => 0
  | .channel => channelHash o
  | .sftp => sftpHash o
  | .listener => listenerHash o
  | .file => sftpfileHash o
  | .dir => sftpdirHash o

/-! ### `tp_compare` -/

/-- the same pointers as C compares them: by their addresses -/
def SamePointers (self other : Obj) : Prop :=
  self.session.addr = other.session.addr ∧ self.ptr.map Ptr.addr = other.ptr.map Ptr.addr

instance (self other : Obj) : Decidable (SamePointers self other) := instDecidableAnd

/-- `PYLIBSSH2_Sftp_cmp` on two objects: the C truth value of the equality -/
def sftpCmp (self other : Obj) : Int := if SamePointers self other then 1 else 0

/-! ## calls into libssh2 -/

/-- libssh2 functions that return a handle -/
inductive OpenFn
  | channelOpenSession | scpRecv | scpSend | channelDirectTcpip | sftpInit
  | channelForwardListen | channelForwardAccept | sftpOpen | sftpOpendir
  deriving DecidableEq

/-- libssh2 functions that give a handle back -/
inductive FreeFn
  | channelFree | sftpCloseHandle | sftpShutdown | channelForwardCancel | sessionFree
  deriving DecidableEq

/-- libssh2 functions that work on a handle -/
inductive UseFn
  | channelClose | channelRequestPty | channelRequestPtySize | channelShell | channelExec
  | channelSetenv | channelSetBlocking | channelEof | channelRead | channelReadEx | channelWrite
  | channelFlush | channelGetExitStatus | channelSendEof | channelWaitEof | channelWaitClosed
  | channelWindowRead | channelWindowWrite | channelX11Req | pollChannelRead
  | channelReceiveWindowAdjust
  | sftpUnlink | sftpRename | sftpMkdir | sftpRmdir | sftpRealpath | sftpReadlink | sftpSymlink
  | sftpStat | sftpSetstat | sftpLastError
  | sftpRead | sftpWrite | sftpTell | sftpSeek | sftpReaddir
  | sessionStartup | sessionLastError | bannerSet | userauth | hostkeyHash | sessionMethods
  | sessionMethodPref | sessionSetBlocking | sessionCallbackSet | trace
  deriving DecidableEq

/-- a call into libssh2: the function, the handle it is given (`none` is `NULL`), the result -/
inductive Call
  | init (s : Ptr)
  | startup (arg : Option Ptr) (rc : Int)
  | disconnect (arg : Option Ptr)
  | acquire (fn : OpenFn) (arg : Option Ptr) (got : Option Ptr) (owners : List Ptr)
  | use (fn : UseFn) (arg : Option Ptr)
  | free (fn : FreeFn) (arg : Option Ptr)
  deriving DecidableEq

/-- the handle argument of a call -/
def Call.arg : Call → Option Ptr
  | .init s => some s
  | .startup a _ => a
  | .disconnect a => a
  | .acquire _ a _ _ => a
  | .use _ a => a
  | .free _ a => a

open Lifetime (Event)

/-- what a call means for the handles, the latest event first -/
def Call.events : Call → List (Event Ptr)
  | .init s => [.acquire s []]
  | .startup a _ => a.toList.map .use
  | .disconnect a => a.toList.map .settle
  | .acquire _ a got owners => (got.toList.map fun p => .acquire p owners) ++ a.toList.map .use
  | .use _ a => a.toList.map .use
  | .free _ a => a.toList.map .release

def history (cs : List Call) : List (Event Ptr) := cs.flatMap Call.events

/-- whether the session at `s` has been started and not disconnected since -/
def up (s : Ptr) : List Call → Bool
  | [] => false
  | .startup a rc :: cs => if a = some s ∧ 0 ≤ rc then true else up s cs
  | .disconnect a :: cs => if a = some s then false else up s cs
  | _ :: cs => up s cs

/-! ## the world -/

/-- a Python set of wrappers: the members with the hashes they were entered under -/
abbrev PySet := List (Ref × BitVec 64)

structure World where
  heap : Ref → Option Obj
  /-- `self->channels`, `self->sftps`, `self->listeners`, `self->files`, `self->directories` -/
  reg : Ref → Kind → PySet
  /-- references that belong to Python code -/
  held : Ref → Nat
  /-- libssh2 channels that were returned to Python without a wrapper, with the session -/
  raw : List (Ref × Ptr)
  /-- the next object and the next allocation -/
  fresh : Nat
  calls : List Call
  /-- the objects `PyObject_Del` was called on, the latest first -/
  dels : List Ref := []

def World.empty : World where
  heap := fun _ => none
  reg := fun _ _ => []
  held := fun _ => 0
  raw := []
  fresh := 0
  calls := []

namespace World

def history (W : World) : List (Event Ptr) := PyLibssh2.history W.calls

def members (W : World) (o : Ref) (k : Kind) : List Ref := HashSet.keys (W.reg o k)

/-- whether Python compares two wrappers equal (beyond being the same object) -/
def equal (W : World) (x y : Ref) : Bool :=
  match W.heap x, W.heap y with
  | some a, some b => decide (a.kind = .sftp) && decide (b.kind = .sftp) && decide (sftpCmp a b = 0)
  | _, _ => false

/-- `PyObject_Hash` of a wrapper -/
def hashOf (W : World) (x : Ref) : BitVec 64 :=
  match W.heap x with
  | some o => o.hash
  | none => 0

def modify (W : World) (x : Ref) (f : Obj → Obj) : World :=
  { W with heap := Function.update W.heap x ((W.heap x).map f) }

def setReg (W : World) (o : Ref) (k : Kind) (s : PySet) : World :=
  { W with reg := Function.update W.reg o (Function.update (W.reg o) k s) }

def log (W : World) (c : Call) : World := { W with calls := c :: W.calls }

/-- `PyObject_Del` -/
def del (W : World) (x : Ref) : World :=
  { W with heap := Function.update W.heap x none, dels := x :: W.dels }

/-- the field that holds the libssh2 pointer set to `NULL` -/
def clear (W : World) (x : Ref) : World := W.modify x fun o => { o with ptr := none }

/-! ### what the updates leave alone -/

variable (W : World) (x y o : Ref) (k : Kind) (f : Obj → Obj) (s : PySet) (c : Call)

@[simp] theorem heap_log : (W.log c).heap = W.heap := rfl
@[simp] theorem reg_log : (W.log c).reg = W.reg := rfl
@[simp] theorem held_log : (W.log c).held = W.held := rfl
@[simp] theorem fresh_log : (W.log c).fresh = W.fresh := rfl
@[simp] theorem raw_log : (W.log c).raw = W.raw := rfl
@[simp] theorem calls_log : (W.log c).calls = c :: W.calls := rfl
@[simp] theorem members_log : (W.log c).members = W.members := rfl
@[simp] theorem history_log : (W.log c).history = c.events ++ W.history := List.flatMap_cons

@[simp] theorem reg_modify : (W.modify x f).reg = W.reg := rfl
@[simp] theorem held_modify : (W.modify x f).held = W.held := rfl
@[simp] theorem fresh_modify : (W.modify x f).fresh = W.fresh := rfl
@[simp] theorem raw_modify : (W.modify x f).raw = W.raw := rfl
@[simp] theorem calls_modify : (W.modify x f).calls = W.calls := rfl
@[simp] theorem members_modify : (W.modify x f).members = W.members := rfl
@[simp] theorem history_modify : (W.modify x f).history = W.history := rfl

@[simp] theorem heap_modify_self : (W.modify x f).heap x = (W.heap x).map f :=
  Function.update_self ..

theorem heap_modify_of_ne (h : y ≠ x) : (W.modify x f).heap y = W.heap y :=
  Function.update_of_ne h ..

theorem heap_modify : (W.modify x f).heap y = if y = x then (W.heap x).map f else W.heap y :=
  Function.update_apply ..

@[simp] theorem heap_setReg : (W.setReg o k s).heap = W.heap := rfl
@[simp] theorem held_setReg : (W.setReg o k s).held = W.held := rfl
@[simp] theorem fresh_setReg : (W.setReg o k s).fresh = W.fresh := rfl
@[simp] theorem raw_setReg : (W.setReg o k s).raw = W.raw := rfl
@[simp] theorem calls_setReg : (W.setReg o k s).calls = W.calls := rfl
@[simp] theorem history_setReg : (W.setReg o k s).history = W.history := rfl

theorem reg_setReg (o' : Ref) (k' : Kind) :
    (W.setReg o k s).reg o' k' = if o' = o ∧ k' = k then s else W.reg o' k' := by
  show Function.update W.reg o (Function.update (W.reg o) k s) o' k' = _
  by_cases ho : o' = o
  · subst ho
    rw [Function.update_self, Function.update_apply]
    simp
  · rw [Function.update_of_ne ho, if_neg fun h => ho h.1]

theorem members_setReg (o' : Ref) (k' : Kind) :
    (W.setReg o k s).members o' k' = if o' = o ∧ k' = k then HashSet.keys s else W.members o' k' := by
  show HashSet.keys ((W.setReg o k s).reg o' k') = _
  rw [reg_setReg]
  split <;> rfl

@[simp] theorem reg_del : (W.del x).reg = W.reg := rfl
@[simp] theorem held_del : (W.del x).held = W.held := rfl
@[simp] theorem fresh_del : (W.del x).fresh = W.fresh := rfl
@[simp] theorem raw_del : (W.del x).raw = W.raw := rfl
@[simp] theorem calls_del : (W.del x).calls = W.calls := rfl
@[simp] theorem members_del : (W.del x).members = W.members := rfl
@[simp] theorem history_del : (W.del x).history = W.history := rfl

theorem heap_del : (W.del x).heap y = if y = x then none else W.heap y :=
  Function.update_apply ..

end World

end PyLibssh2

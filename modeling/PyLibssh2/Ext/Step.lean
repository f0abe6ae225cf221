import PyLibssh2.Base.Run
import PyLibssh2.Ext.Module

/-!
# What a Python program can do with the module

`Act` lists the calls of the module with what libssh2 answers to them; `step` runs one; `Enabled`
says that the Python program owns the objects it passes and that they have the types the facade
(`libssh2/*.py`) passes.  A program is a run of `Step` from `World.empty`.
-/

set_option linter.unusedSectionVars false

namespace PyLibssh2

open World

/-- the methods that test their pointer, with the return codes of libssh2 -/
inductive Method
  | pty (rc : Int) | ptyResize (rc : Int) | shell (rc : Int) | execute (rc : Int)
  | setenv (rc : Int) | setblocking | read (e rc : Int) | readEx (rc : Int) | write (rc : Int)
  | flush (rc : Int) | eof (rc : Int) | exitStatus (rc : Int) | sendEof (rc : Int)
  | waitEof (rc : Int) | waitClosed (rc : Int) | windowRead | windowWrite | pollRead
  | x11Req (rc : Int) | receiveWindowAdjust (rc : Int)
  | unlink (rc : Int) | rename (rc : Int) | mkdir (rc : Int) | rmdir (rc : Int)
  | realpath (rc : Int) | readlink (rc : Int) | symlink (rc : Int) | getStat (rc : Int)
  | setStat (rc : Int)
  | fileRead | fileWrite (rc : Int) | fileTell | fileSeek
  | dirRead (rc : Int) | dirListFiles (rcs : List Int)

def Method.kind : Method → Kind
  | .pty _ | .ptyResize _ | .shell _ | .execute _ | .setenv _ | .setblocking | .read _ _
  | .readEx _ | .write _ | .flush _ | .eof _ | .exitStatus _ | .sendEof _ | .waitEof _
  | .waitClosed _ | .windowRead | .windowWrite | .pollRead | .x11Req _
  | .receiveWindowAdjust _ => .channel
  | .unlink _ | .rename _ | .mkdir _ | .rmdir _ | .realpath _ | .readlink _ | .symlink _
  | .getStat _ | .setStat _ => .sftp
  | .fileRead | .fileWrite _ | .fileTell | .fileSeek => .file
  | .dirRead _ | .dirListFiles _ => .dir

def Method.run (x : Ref) (W : World) : Method → World × Ret
  | .pty rc => Channel.pty x rc W
  | .ptyResize rc => Channel.ptyResize x rc W
  | .shell rc => Channel.shell x rc W
  | .execute rc => Channel.execute x rc W
  | .setenv rc => Channel.setenv x rc W
  | .setblocking => Channel.setblocking x 0 W
  | .read e rc => Channel.read x e rc W
  | .readEx rc => Channel.readEx x rc W
  | .write rc => Channel.write x rc W
  | .flush rc => Channel.flush x rc W
  | .eof rc => Channel.eof x rc W
  | .exitStatus rc => Channel.exitStatus x rc W
  | .sendEof rc => Channel.sendEof x rc W
  | .waitEof rc => Channel.waitEof x rc W
  | .waitClosed rc => Channel.waitClosed x rc W
  | .windowRead => Channel.windowRead x 0 W
  | .windowWrite => Channel.windowWrite x 0 W
  | .pollRead => Channel.pollRead x 0 W
  | .x11Req rc => Channel.x11Req x rc W
  | .receiveWindowAdjust rc => Channel.receiveWindowAdjust x rc W
  | .unlink rc => Sftp.unlink x rc W
  | .rename rc => Sftp.rename x rc W
  | .mkdir rc => Sftp.mkdir x rc W
  | .rmdir rc => Sftp.rmdir x rc W
  | .realpath rc => Sftp.realpath x rc W
  | .readlink rc => Sftp.readlink x rc W
  | .symlink rc => Sftp.symlink x rc W
  | .getStat rc => Sftp.getStat x rc W
  | .setStat rc => Sftp.setStat x rc W
  | .fileRead => Sftpfile.read x 0 W
  | .fileWrite rc => Sftpfile.write x rc W
  | .fileTell => Sftpfile.tell x 0 W
  | .fileSeek => Sftpfile.seek x 0 W
  | .dirRead rc => Sftpdir.read x rc W
  | .dirListFiles rcs => Sftpdir.listFiles x rcs W

inductive Act
  | session (a : Addr)
  | startup (s : Ref) (rc : Int)
  | openSession (s : Ref) (a : Answer)
  | scpSend (s : Ref) (a : Answer)
  | scpRecv (s : Ref) (a : Answer)
  | sftpInit (s : Ref) (a : Answer)
  | directTcpip (s : Ref) (a : Answer)
  | forwardListen (s : Ref) (a : Answer)
  | accept (l : Ref) (a : Answer)
  | openFile (f : Ref) (a : Answer)
  | openDir (f : Ref) (a : Answer)
  | channelClose (s c : Ref)
  | sftpShutdown (s f : Ref) (pick : Pick)
  | forwardCancel (s l : Ref)
  | closeFile (f x : Ref)
  | closeDir (f x : Ref)
  | close (s : Ref) (pick : Pick) (rc : Int)
  | drop (x : Ref) (pick : Pick)
  | method (x : Ref) (m : Method)
  | sessionMethod (s : Ref) (fn : UseFn)

def step (W : World) : Act → World × Ret
  | .session a => Session.init a W
  | .startup s rc => Session.startup s rc W
  | .openSession s a => Session.openSession s a W
  | .scpSend s a => Session.scpSend s a W
  | .scpRecv s a => Session.scpRecv s a W
  | .sftpInit s a => Session.sftpInit s a W
  | .directTcpip s a => Session.directTcpip s a W
  | .forwardListen s a => Session.forwardListen s a W
  | .accept l a => Listener.accept l a W
  | .openFile f a => Sftp.openFile f a W
  | .openDir f a => Sftp.openDir f a W
  | .channelClose s c => Session.channelClose s c W
  | .sftpShutdown s f pick => Session.sftpShutdown pick s f W
  | .forwardCancel s l => Session.forwardCancel s l W
  | .closeFile f x => Sftp.closeFile f x W
  | .closeDir f x => Sftp.closeDir f x W
  | .close s pick rc => Session.close pick s rc W
  | .drop x pick => dropRef pick x W
  | .method x m => m.run x W
  | .sessionMethod s fn => Session.method fn s W

/-- Python code owns a reference to a wrapper of the type `k` -/
def World.Holds (W : World) (x : Ref) (k : Kind) : Prop :=
  0 < W.held x ∧ ∃ o, W.heap x = some o ∧ o.kind = k

/-- the program owns what it passes, and passes what the facade passes -/
def Enabled (W : World) : Act → Prop
  | .session _ => True
  | .startup s _ | .openSession s _ | .scpSend s _ | .scpRecv s _ | .sftpInit s _
  | .directTcpip s _ | .forwardListen s _ | .close s _ _ | .sessionMethod s _ => W.Holds s .session
  | .accept l _ => W.Holds l .listener
  | .openFile f _ | .openDir f _ => W.Holds f .sftp
  | .channelClose s c => W.Holds s .session ∧ W.Holds c .channel
  | .sftpShutdown s f _ => W.Holds s .session ∧ W.Holds f .sftp
  | .forwardCancel s l => W.Holds s .session ∧ W.Holds l .listener
  | .closeFile f x => W.Holds f .sftp ∧ W.Holds x .file
  | .closeDir f x => W.Holds f .sftp ∧ W.Holds x .dir
  | .drop x _ => ∃ k, W.Holds x k
  | .method x m => W.Holds x m.kind

/-- one call of the module by a Python program -/
def Step (W : World) (a : Act) (W' : World) : Prop := Enabled W a ∧ W' = (step W a).1

end PyLibssh2

import PyLibssh2.Transfer.Copy
import PyLibssh2.Transfer.Recv
import PyLibssh2.Transfer.Send

/-!
# What the transfer helpers leave in the sets

The five helpers together: the set of open channels of a session and the set of open files of an sftp,
when a helper has finished.  `transfers_restore_iff` says for each of them when the sets are the same as
before; an exception that no handler closes the channel or the file for leaves it in its set.
-/

set_option linter.unusedSectionVars false
set_option linter.unusedVariables false

namespace PyLibssh2.Transfer

open Loop Remote

variable {W : World}

/-- every transfer helper that finishes leaves the sets as they were -/
structure NoLeak (s f : Ref) (W : World) : Prop where
  sendFile (env : SendFileEnv) (content : List UInt8) (r : SendFileEnd) :
    Halts (sendFileRound s env content) (.entry W) r → SameSets s f W r.world
  recvFile (env : RecvFileEnv) (stream : List UInt8) (r : RecvFileEnd) :
    Halts (recvFileRound s env stream) (.entry W) r → SameSets s f W r.world
  get (env : GetEnv) (content : List UInt8) (r : GetEnd) :
    Halts (getRound f env content) (.entry W) r → SameSets s f W r.world
  put (env : PutEnv) (dst : Path) (fs : Files) (content : List UInt8) (r : PutEnd) :
    Halts (putRound f env dst fs content) (.entry W) r → SameSets s f W r.world
  copyFile (env : CopyFileEnv) (src dst : Path) (fs : Files) (r : CopyFileEnd) :
    Halts (copyFileRound f env src dst fs) (.entry W) r → SameSets s f W r.world

/-- **When the transfer helpers leave the sets as they were.** -/
theorem transfers_restore_iff {as : List Act} (hr : Trans.Run Step World.empty as W) (s f : Ref) :
    (∀ env content r, Halts (sendFileRound s env content) (.entry W) r →
      (SameSets s f W r.world ↔ env.Unopened s W ∨ env.Succeeds content.length)) ∧
    (∀ env stream r, Halts (recvFileRound s env stream) (.entry W) r →
      (SameSets s f W r.world ↔ ChannelRefused s env.openChannel W ∨
        (env.openOut = true ∧ (env.Fails stream → env.closeOnError = true)))) ∧
    (∀ env content r, Halts (getRound f env content) (.entry W) r →
      (SameSets s f W r.world ↔ FileRefused f env.openSrc W ∨
        (env.openDst = true ∧ env.closeDst = true ∧ ¬ env.WriteFails content.length))) ∧
    (∀ env dst fs content r, Halts (putRound f env dst fs content) (.entry W) r →
      (SameSets s f W r.world ↔ env.openSrc = false ∨ FileRefused f env.openDst W ∨
        (¬ env.ReadFails content.length ∧ ¬ env.WriteFails content.length))) ∧
    ∀ env src dst fs r, Halts (copyFileRound f env src dst fs) (.entry W) r →
      (SameSets s f W r.world ↔ FileRefused f env.openSrc W ∨
        (¬ FileRefused f env.openDst W ∧
          ¬ INT_MAX < delivered env.answer 0 (copySource src dst fs).length ∧
          ∃ m, env.write = .accepts m)) := by
  have hy := young_run hr
  refine ⟨fun env content r h => ?_, fun env stream r h => ?_, fun env content r h => ?_,
    fun env dst fs content r h => ?_, fun env src dst fs r h => ?_⟩
  · exact sendFile_sets hy s f env content h
  · exact recvFile_sets hy s f env stream h
  · exact ((get_ends hy f env content).2 r h).sets s
  · exact ((put_ends hy f env dst fs content).2 r h).sets s
  · exact copyFile_sets hy s f env src dst fs h

/-- a download that meets no failure -/
theorem transfers_restore_iff_get : ∃ r, Halts (getRound 3 byteByByte [1, 2]) (.entry withSftp) r ∧
    SameSets 1 3 withSftp r.world := by
  obtain ⟨as, hr⟩ := withSftp_run
  obtain ⟨r, h⟩ := (get_ends (young_run hr) 3 byteByByte [1, 2]).1
  refine ⟨r, h, ((transfers_restore_iff hr 1 3).2.2.1 byteByByte [1, 2] r h).mpr (Or.inr ⟨rfl, rfl, ?_⟩)⟩
  intro hex
  obtain ⟨i, _, _, hi⟩ := hex
  cases hi

def noLocalFile : GetEnv := ⟨answer 2, false, fun _ => .data 0, fun _ => true, true⟩

/-- the remote file stays in the set -/
theorem get_leaks : ¬ ∀ (as : List Act) (W : World) (s f : Ref), Trans.Run Step World.empty as W →
    NoLeak s f W := by
  intro hall
  obtain ⟨as, hr⟩ := withSftp_run
  obtain ⟨⟨r, h1⟩, h2⟩ := get_ends (young_run hr) 3 noLocalFile [1, 2]
  have h3 := (hall as withSftp 1 3 hr).get noLocalFile [1, 2] r h1
  rcases ((h2 r h1).sets 1).mp h3 with h | ⟨h, _⟩
  · exact withSftp_opens 2 h
  · cases h

end PyLibssh2.Transfer

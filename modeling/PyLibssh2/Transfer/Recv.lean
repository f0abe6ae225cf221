import PyLibssh2.Base.Pieces
import PyLibssh2.Scp.Recv
import PyLibssh2.Transfer.Opened

/-!
# The channel of `Session.scp_recv_file`

The whole helper: `scp_recv`, the open of the local file, the loop of `Scp.recvRound` with the writes to
the local file, and the calls after it.  An exception in the loop closes the local file, then the
channel; the open of the local file stands outside of the handler.

* `recvFileRound`   one round: the opens, one pass of `while got < file_size`, or the rest;
* `recvFileRound_next`  a round that goes on is one of `Scp.recvRound`;
* `recvFile_sets`   the sets are restored exactly if no channel is opened, or the local file is opened
  and its close in the handler does not fail.
-/

set_option linter.unusedSectionVars false
set_option linter.unusedVariables false

namespace PyLibssh2.Transfer

open Loop World

/-! ## the helper -/

/-- what the calls of `scp_recv_file` meet; `write i` is the write of what the read number `i` gave,
`closeOnError` the `f.close()` of the handler -/
structure RecvFileEnv where
  openChannel : Answer
  fileSize : Nat
  openOut : Bool
  answer : Nat → Scp.ReadAnswer
  write : Nat → Bool
  closeOnError : Bool
  close : Bool
  chmod : Bool
  utime : Bool

inductive RecvFileState
  | entry (W : World)
  /-- the channel, and the variables of the loop -/
  | loop (c : Ref) (st : Scp.RecvState)

structure RecvFileEnd where
  world : World
  raised : Option Raised

/-- `except Exception, detail` -/
def recvFileExcept (s c : Ref) (env : RecvFileEnv) (e : Raised) (W : World) : RecvFileEnd :=
  if env.closeOnError then ⟨leave c (Session.channelClose s c W).1, some e⟩
  else ⟨leave c W, some .environment⟩

/-- what follows the loop: the channel is closed before the calls that can raise -/
def recvFileEnd (s c : Ref) (env : RecvFileEnv) (W : World) : RecvFileEnd :=
  ⟨leave c (Session.channelClose s c W).1,
    if env.close && env.chmod && env.utime then none else some .environment⟩

/-- `Session.scp_recv_file`, when the remote side sends `stream` -/
def recvFileRound (s : Ref) (env : RecvFileEnv) (stream : List UInt8) :
    RecvFileState → Round RecvFileState RecvFileEnd
  | .entry W =>
    match Session.scpRecv s env.openChannel W with
    | (W, .obj c) =>
      if env.openOut then .next (.loop c (Scp.recvStart W stream))
      else .stop ⟨leave c W, some .environment⟩
    | (W, r) => .stop ⟨W, raisedBy r⟩
  | .loop c st =>
    if st.got < env.fileSize then
      let size := min Scp.readLen (env.fileSize - st.got)
      let a := env.answer st.reads
      match Channel.read c a.eofFlag (a.rc size st.left) st.world with
      | (W, .raised e) => .stop (recvFileExcept s c env (.module e) W)
      | (W, _) =>
        let l := a.count size st.left
        if 0 < l ∧ env.write st.reads = false then .stop (recvFileExcept s c env .environment W)
        else .next (.loop c ⟨W, st.reads + 1, st.got + l, st.file ++ st.left.take l, st.left.drop l,
          ⟨size, st.got⟩ :: st.requests⟩)
    else .stop (recvFileEnd s c env st.world)

variable {s f c : Ref} {env : RecvFileEnv} {stream : List UInt8} {W V : World} {r : RecvFileEnd}
  {st : Scp.RecvState} {i j : Nat}

/-! ## which calls are made -/

/-- up to how many bytes libssh2 has for the read number `i` -/
def RecvFileEnv.give (env : RecvFileEnv) (i : Nat) : Nat :=
  match env.answer i with
  | .data m => m
  | _ => 0

def RecvFileEnv.total (env : RecvFileEnv) (stream : List UInt8) : Nat := min env.fileSize stream.length

def RecvFileEnv.pos (env : RecvFileEnv) (stream : List UInt8) (i : Nat) : Nat :=
  Pieces.pos env.give Scp.readLen (env.total stream) i

def RecvFileEnv.given (env : RecvFileEnv) (stream : List UInt8) (i : Nat) : Nat :=
  Pieces.count Scp.readLen (env.give i) (env.total stream - env.pos stream i)

/-- the read number `i` raises, or the write of what it gives -/
def RecvFileEnv.FailsAt (env : RecvFileEnv) (stream : List UInt8) (i : Nat) : Prop :=
  (∃ k, env.answer i = .error k) ∨ (0 < env.given stream i ∧ env.write i = false)

def RecvFileEnv.Fails (env : RecvFileEnv) (stream : List UInt8) : Prop :=
  ∃ i, env.pos stream i < env.fileSize ∧ env.FailsAt stream i

theorem RecvFileEnv.pos_succ (env : RecvFileEnv) (stream : List UInt8) (i : Nat) :
    env.pos stream (i + 1) = env.pos stream i + env.given stream i := rfl

theorem recvCount_eq (h1 : st.got = env.pos stream st.reads)
    (h2 : st.left.length = stream.length - st.got) :
    (env.answer st.reads).count (min Scp.readLen (env.fileSize - st.got)) st.left =
      env.given stream st.reads := by
  show _ = min (env.give st.reads)
    (min Scp.readLen (min env.fileSize stream.length - env.pos stream st.reads))
  rw [← h1, RecvFileEnv.give]
  cases env.answer st.reads with
  | eof => exact (Nat.zero_min _).symm
  | error k => exact (Nat.zero_min _).symm
  | data m =>
    show min m (min (min Scp.readLen (env.fileSize - st.got)) st.left.length) =
      min m (min Scp.readLen (min env.fileSize stream.length - st.got))
    rw [h2, Nat.min_assoc, Nat.sub_min_sub_right]

/-- a round that goes on is a round of `Scp.recvRound` -/
theorem recvFileRound_next {q : RecvFileState} (h : recvFileRound s env stream (.loop c st) = .next q) :
    ∃ st', q = .loop c st' ∧ Scp.recvRound s c env.fileSize env.answer st = .next st' := by
  by_cases hlt : st.got < env.fileSize
  · simp only [recvFileRound, if_pos hlt] at h
    simp only [Scp.recvRound, if_pos hlt]
    generalize Channel.read c (env.answer st.reads).eofFlag
      ((env.answer st.reads).rc (min Scp.readLen (env.fileSize - st.got)) st.left) st.world = res at h ⊢
    obtain ⟨V, ret⟩ := res
    cases ret with
    | raised e => cases h
    | _ =>
      simp only at h ⊢
      split at h
      · cases h
      · cases h
        exact ⟨_, rfl, rfl⟩
  · rw [recvFileRound, if_neg hlt] at h
    cases h

/-! ## the invariant -/

/-- what holds between the rounds: no call that has been made failed -/
structure RecvingFile (s : Ref) (env : RecvFileEnv) (stream : List UInt8) (W : World) (c : Ref)
    (st : Scp.RecvState) : Prop where
  added : Added s .channel c W st.world
  got : st.got = env.pos stream st.reads
  left : st.left.length = stream.length - st.got
  before : ∀ j < st.reads, ¬ env.FailsAt stream j

def RecvFileEnv.Restores (env : RecvFileEnv) (s : Ref) (stream : List UInt8) (W : World) : Prop :=
  ChannelRefused s env.openChannel W ∨
    (env.openOut = true ∧ (env.Fails stream → env.closeOnError = true))

def RecvFileInv (s : Ref) (env : RecvFileEnv) (stream : List UInt8) (W : World) : RecvFileState → Prop
  | .entry V => V = W
  | .loop c st => ¬ ChannelRefused s env.openChannel W ∧ env.openOut = true ∧
      RecvingFile s env stream W c st

theorem recvFileExcept_sets (h : Added s .channel c W V) (e : Raised)
    (hno : ¬ ChannelRefused s env.openChannel W) (hout : env.openOut = true)
    (hfails : env.Fails stream) :
    Either s .channel W (recvFileExcept s c env e V).world (env.Restores s stream W) := by
  unfold recvFileExcept
  cases hcl : env.closeOnError with
  | true => exact Or.inl ⟨h.channelClose, Or.inr ⟨hout, fun _ => hcl⟩⟩
  | false =>
    refine Or.inr ⟨h.leaked (Or.inl rfl), fun hP => ?_⟩
    rw [(hP.resolve_left hno).2 hfails] at hcl
    cases hcl

theorem recvFile_entry (hy : Young W) :
    (∃ st, recvFileRound s env stream (.entry W) = .next st ∧ RecvFileInv s env stream W st) ∨
    ∃ r, recvFileRound s env stream (.entry W) = .stop r ∧
      Either s .channel W r.world (env.Restores s stream W) := by
  rcases scpRecv_cases (s := s) hy env.openChannel with ⟨V, e, h1, h2, hr⟩ | ⟨V, c, h1, h2, hno⟩
  · exact Or.inr ⟨_, by simp only [recvFileRound, h1]; rfl, Or.inl ⟨h2.reg, Or.inl hr⟩⟩
  · cases hout : env.openOut with
    | false =>
      refine Or.inr ⟨⟨leave c V, some .environment⟩, by simp only [recvFileRound, h1, hout]; rfl,
        Or.inr ⟨(Added.of_open h2).leaked (Or.inl rfl), fun hP => ?_⟩⟩
      rw [(hP.resolve_left hno).1] at hout
      cases hout
    | true =>
      have hI : RecvFileInv s env stream W (.loop c (Scp.recvStart V stream)) :=
        ⟨hno, hout, Added.of_open h2, rfl, rfl, fun j hj => absurd hj (Nat.not_lt_zero j)⟩
      exact Or.inl ⟨_, by simp only [recvFileRound, h1, hout, if_true], hI⟩

theorem recvRead_cases (h : Added s .channel c W st.world) (A : Scp.ReadAnswer) (size : Nat) :
    ∃ V, Added s .channel c W V ∧
      (((∃ k, A = .error k) ∧
        Channel.read c A.eofFlag (A.rc size st.left) st.world = (V, .raised .libssh2)) ∨
      ((¬ ∃ k, A = .error k) ∧ Channel.read c A.eofFlag (A.rc size st.left) st.world = (V, .none))) := by
  obtain ⟨e, p, hc, _⟩ := h.held.isOpen
  have hres := Scp.read_result hc A size st.left
  refine ⟨_, h.calls (onlyCalls_read c A.eofFlag (A.rc size st.left)), ?_⟩
  cases A with
  | error k => exact Or.inl ⟨⟨k, rfl⟩, Prod.ext rfl hres⟩
  | eof => exact Or.inr ⟨fun ⟨k, hk⟩ => (by cases hk), Prod.ext rfl hres⟩
  | data m => exact Or.inr ⟨fun ⟨k, hk⟩ => (by cases hk), Prod.ext rfl hres⟩

theorem recvFile_loop (hno : ¬ ChannelRefused s env.openChannel W) (hout : env.openOut = true)
    (h : RecvingFile s env stream W c st) :
    (∃ st', recvFileRound s env stream (.loop c st) = .next st' ∧ RecvFileInv s env stream W st') ∨
    ∃ r, recvFileRound s env stream (.loop c st) = .stop r ∧
      Either s .channel W r.world (env.Restores s stream W) := by
  by_cases hlt : st.got < env.fileSize
  · have hcount := recvCount_eq h.got h.left
    have hpos : env.pos stream st.reads < env.fileSize := h.got ▸ hlt
    obtain ⟨V, ha, ⟨herr, hread⟩ | ⟨herr, hread⟩⟩ := recvRead_cases h.added (env.answer st.reads)
      (min Scp.readLen (env.fileSize - st.got))
    · refine Or.inr ⟨recvFileExcept s c env (.module .libssh2) V, ?_, ?_⟩
      · simp only [recvFileRound, if_pos hlt, hread]
      · exact recvFileExcept_sets ha _ hno hout ⟨st.reads, hpos, Or.inl herr⟩
    · by_cases hw : 0 < env.given stream st.reads ∧ env.write st.reads = false
      · refine Or.inr ⟨recvFileExcept s c env .environment V, ?_, ?_⟩
        · simp only [recvFileRound, if_pos hlt, hread, hcount, if_pos hw]
        · exact recvFileExcept_sets ha _ hno hout ⟨st.reads, hpos, Or.inr hw⟩
      · have hok : ¬ env.FailsAt stream st.reads := fun h1 => h1.elim herr hw
        refine Or.inl ⟨.loop c ⟨V, st.reads + 1, st.got + env.given stream st.reads,
          st.file ++ st.left.take (env.given stream st.reads), st.left.drop (env.given stream st.reads),
          ⟨min Scp.readLen (env.fileSize - st.got), st.got⟩ :: st.requests⟩, ?_, hno, hout, ha, ?_, ?_,
          fun j hj => ?_⟩
        · simp only [recvFileRound, if_pos hlt, hread, hcount, if_neg hw]
        · show st.got + env.given stream st.reads = env.pos stream (st.reads + 1)
          rw [env.pos_succ, h.got]
        · show (st.left.drop (env.given stream st.reads)).length =
            stream.length - (st.got + env.given stream st.reads)
          rw [List.length_drop, h.left, Nat.sub_sub]
        · rcases Nat.lt_succ_iff_lt_or_eq.mp hj with h1 | h1
          · exact h.before j h1
          · rw [h1]
            exact hok
  · refine Or.inr ⟨recvFileEnd s c env st.world, by rw [recvFileRound, if_neg hlt], ?_⟩
    refine Or.inl ⟨h.added.channelClose, Or.inr ⟨hout, ?_⟩⟩
    intro hex
    obtain ⟨i, hi, hfail⟩ := hex
    have hlt' : i < st.reads := by
      by_contra hge
      have h1 := Pieces.pos_mono env.give Scp.readLen (env.total stream) (Nat.le_of_not_lt hge)
      have h2 : env.pos stream st.reads ≤ env.pos stream i := h1
      have h3 := h.got
      omega
    exact absurd hfail (h.before i hlt')

theorem recvFile_sets (hy : Young W) (s f : Ref) (env : RecvFileEnv) (stream : List UInt8)
    (h : Halts (recvFileRound s env stream) (.entry W) r) : SameSets s f W r.world ↔
      ChannelRefused s env.openChannel W ∨
        (env.openOut = true ∧ (env.Fails stream → env.closeOnError = true)) := by
  have h0 : RecvFileInv s env stream W (.entry W) := rfl
  apply sameSets_iff (Or.inl ⟨rfl, rfl⟩)
  refine h.of_rounds (RecvFileInv s env stream W)
    (fun r => Either s .channel W r.world (env.Restores s stream W)) (fun st hI => ?_) h0
  cases st with
  | entry V =>
    have hV : V = W := hI
    rw [hV]
    exact recvFile_entry hy
  | loop c st => exact recvFile_loop hI.1 hI.2.1 hI.2.2

end PyLibssh2.Transfer

import PyLibssh2.Base.Loop
import PyLibssh2.Ext.Held
import PyLibssh2.Ext.Own

/-!
# `Session.scp_recv_file`

The method opens a channel with `scp_recv`, which also tells the size of the file, and reads until it
has got that many bytes.  If a read raises it closes the local file and the channel and raises again.

* `recvRound`       one round of `while got < file_size`, with the calls `Channel.read` makes;
* `recvFile_spec`   what is requested, what is in the local file, and what becomes of the channel,
  however the stream is split into reads;
* `recvLoop_halts_iff`  the loop ends exactly if enough bytes arrive or a read raises: an empty result
  of a read is taken for a reason to try again.
-/

set_option linter.unusedSectionVars false
set_option linter.unusedVariables false

namespace PyLibssh2.Scp

open Loop World

/-! ## reads -/

inductive ReadAnswer
  /-- `libssh2_channel_eof` returns 1 -/
  | eof
  /-- `libssh2_channel_read` has up to `m` bytes -/
  | data (m : Nat)
  /-- `libssh2_channel_read` returns `-(k + 1)` -/
  | error (k : Nat)
  deriving DecidableEq

/-- how many bytes of `left` a read of `size` bytes gives -/
def ReadAnswer.count (a : ReadAnswer) (size : Nat) (left : List UInt8) : Nat :=
  match a with
  | .eof => 0
  | .data m => min m (min size left.length)
  | .error _ => 0

/-- what `libssh2_channel_eof` returns -/
def ReadAnswer.eofFlag : ReadAnswer → Int
  | .eof => 1
  | _ => 0

/-- what `libssh2_channel_read` returns -/
def ReadAnswer.rc (a : ReadAnswer) (size : Nat) (left : List UInt8) : Int :=
  match a with
  | .error k => -(k + 1)
  | a => a.count size left

/-! ## the loop -/

def readLen : Nat := 1024

/-- a call `channel.read(size)` made when `before` bytes had been received -/
structure Request where
  size : Nat
  before : Nat

/-- the variables of the loop: the extension module, the reads so far, `got`, the local file, and what
the remote side has still to send -/
structure RecvState where
  world : World
  reads : Nat
  got : Nat
  file : List UInt8
  left : List UInt8
  requests : List Request

/-- what the loop leaves -/
structure RecvEnd where
  world : World
  got : Nat
  file : List UInt8
  left : List UInt8
  raised : Option Exc

/-- one round of `while got < file_size` on the channel `c` of the session `s` -/
def recvRound (s c : Ref) (fileSize : Nat) (answer : Nat → ReadAnswer) (st : RecvState) :
    Round RecvState RecvEnd :=
  if st.got < fileSize then
    let size := min readLen (fileSize - st.got)
    let a := answer st.reads
    match Channel.read c a.eofFlag (a.rc size st.left) st.world with
    | (W, .raised e) =>
      -- `f.close()`, `self.channel_close(channel)`, `raise`
      .stop ⟨(Session.channelClose s c W).1, st.got, st.file, st.left, some e⟩
    | (W, _) =>
      let l := a.count size st.left
      .next ⟨W, st.reads + 1, st.got + l, st.file ++ st.left.take l, st.left.drop l,
        ⟨size, st.got⟩ :: st.requests⟩
  else
    -- `self.channel_close(channel)`, `f.close()`
    .stop ⟨(Session.channelClose s c st.world).1, st.got, st.file, st.left, none⟩

/-- the state after `open(out_file_path, "wb")` -/
def recvStart (W : World) (stream : List UInt8) : RecvState := ⟨W, 0, 0, [], stream, []⟩

variable {W W' : World} {s c : Ref} {e : Obj} {p : Ptr} {n : Nat} {answer : Nat → ReadAnswer}
  {st st' : RecvState} {stream : List UInt8} {a : Answer} {r : RecvEnd}

/-! ## the channel -/

theorem read_result (hc : W.Open c e p) (A : ReadAnswer) (size : Nat) (left : List UInt8) :
    (Channel.read c A.eofFlag (A.rc size left) W).2 =
      match A with
      | .error _ => .raised .libssh2
      | _ => .none := by
  have h01 : ¬ (0 : Int) = 1 := by decide
  rw [read_result_open hc]
  cases A with
  | eof => rfl
  | data m =>
    have hrc : ¬ ((min m (min size left.length) : Nat) : Int) < 0 := by omega
    show (if (0 : Int) = 1 then _ else if ((min m (min size left.length) : Nat) : Int) < 0 then _
      else _) = _
    rw [if_neg h01, if_neg hrc]
  | error k =>
    have hrc : -((k : Int) + 1) < 0 := by omega
    show (if (0 : Int) = 1 then _ else if -((k : Int) + 1) < 0 then _ else _) = _
    rw [if_neg h01, if_pos hrc]

/-! ## rounds -/

/-- the channel as `scp_recv` returned it: open, with references to spare, and the last member of the
set of the session -/
structure Fetching (s c : Ref) (old : PySet) (W : World) : Prop where
  chan : ∃ e p, W.Open c e p ∧ e.kind = .channel ∧ 2 < e.refcnt ∧
    W.reg s .channel = old ++ [(c, e.hash)]
  notOld : c ∉ HashSet.keys old

theorem Fetching.calls {old : PySet} (h : Fetching s c old W) (hw : OnlyCalls W W') :
    Fetching s c old W' := by
  obtain ⟨cs, rfl⟩ := hw
  exact ⟨h.chan, h.notOld⟩

def Released (s c : Ref) (W : World) : Prop :=
  (∃ e, W.heap c = some e ∧ e.ptr = none) ∧ c ∉ W.members s .channel

theorem Fetching.holding {old : PySet} (h : Fetching s c old W) : Holding s .channel c old [] W := by
  obtain ⟨e, p, hc, hk, hr, hreg⟩ := h.chan
  exact ⟨⟨e, p, hc, hk, Nat.lt_of_succ_lt hr, hreg⟩, h.notOld⟩

theorem Fetching.close {old : PySet} (h : Fetching s c old W) :
    Released s c (Session.channelClose s c W).1 := by
  have hout := h.holding.channelClose
  obtain ⟨e, he, _, hp⟩ := hout.self
  refine ⟨⟨e, he, hp⟩, ?_⟩
  rw [World.members, hout.reg, List.append_nil]
  exact h.notOld

theorem fetching_of_scpRecv (h : Session.scpRecv s a W = (W', .obj c))
    (hnew : W.fresh + 1 ∉ W.members s .channel) : Fetching s c (W.reg s .channel) W' := by
  rw [Session.scpRecv, onSession] at h
  cases hs : W.heap s with
  | none => simp [hs] at h
  | some o =>
    simp only [hs] at h
    cases ha : a.ret with
    | none => simp [ha] at h
    | some addr =>
      simp only [ha] at h
      cases hm : a.alloc with
      | false => simp [openWith_leak ha hm] at h
      | true =>
        obtain ⟨h1, _, h2⟩ := openWith_grows .scpRecv o.session 1
          (c := child s o.session .channel) hnew ha hm fun hk => by cases hk
        rw [h] at h1 h2
        have hc : c = W.fresh + 1 := by simpa using h1
        subst hc
        have hheap : W'.heap (W.fresh + 1) =
            some (wrapper (child s o.session .channel) 1 addr W) := by
          rw [h2.heap, Function.update_self]
        refine ⟨⟨_, _, ⟨hheap, rfl⟩, rfl, ?_, ?_⟩, hnew⟩
        · show 2 < 1 + (if true = true then 1 else 0) + 1
          decide
        · rw [h2.reg, if_pos ⟨rfl, rfl, rfl⟩]
          rfl

variable {old : PySet}

theorem recvRound_next (h : Fetching s c old st.world) (hlt : st.got < n)
    (hok : ∀ k, answer st.reads ≠ .error k) :
    ∃ W', OnlyCalls st.world W' ∧ recvRound s c n answer st =
      .next ⟨W', st.reads + 1,
        st.got + (answer st.reads).count (min readLen (n - st.got)) st.left,
        st.file ++ st.left.take ((answer st.reads).count (min readLen (n - st.got)) st.left),
        st.left.drop ((answer st.reads).count (min readLen (n - st.got)) st.left),
        ⟨min readLen (n - st.got), st.got⟩ :: st.requests⟩ := by
  obtain ⟨e, p, hc, _⟩ := h.chan
  have hres := read_result hc (answer st.reads) (min readLen (n - st.got)) st.left
  refine ⟨_, onlyCalls_read c (answer st.reads).eofFlag
    ((answer st.reads).rc (min readLen (n - st.got)) st.left), ?_⟩
  have hnone : (Channel.read c (answer st.reads).eofFlag
      ((answer st.reads).rc (min readLen (n - st.got)) st.left) st.world).2 = .none := by
    rw [hres]
    cases hA : answer st.reads with
    | eof => rfl
    | data m => rfl
    | error k => exact absurd hA (hok k)
  simp only [recvRound, if_pos hlt]
  generalize Channel.read c (answer st.reads).eofFlag
    ((answer st.reads).rc (min readLen (n - st.got)) st.left) st.world = res at hnone ⊢
  obtain ⟨W1, r1⟩ := res
  simp only at hnone
  subst hnone
  rfl

theorem recvRound_error {k : Nat} (h : Fetching s c old st.world) (hlt : st.got < n)
    (herr : answer st.reads = .error k) :
    ∃ W', OnlyCalls st.world W' ∧ recvRound s c n answer st =
      .stop ⟨(Session.channelClose s c W').1, st.got, st.file, st.left, some .libssh2⟩ := by
  obtain ⟨e, p, hc, _⟩ := h.chan
  have hres := read_result hc (answer st.reads) (min readLen (n - st.got)) st.left
  refine ⟨_, onlyCalls_read c (answer st.reads).eofFlag
    ((answer st.reads).rc (min readLen (n - st.got)) st.left), ?_⟩
  rw [herr] at hres
  simp only [recvRound, if_pos hlt, herr]
  generalize Channel.read c (ReadAnswer.error k).eofFlag
    ((ReadAnswer.error k).rc (min readLen (n - st.got)) st.left) st.world = res at hres ⊢
  obtain ⟨W1, r1⟩ := res
  simp only at hres
  subst hres
  rfl

theorem recvRound_done (hge : ¬ st.got < n) : recvRound s c n answer st =
    .stop ⟨(Session.channelClose s c st.world).1, st.got, st.file, st.left, none⟩ := by
  rw [recvRound, if_neg hge]

/-- **What a round does.** -/
theorem recvRound_cases (h : Fetching s c old st.world) :
    (st.got < n ∧ (∀ k, answer st.reads ≠ .error k) ∧
      ∃ W', OnlyCalls st.world W' ∧ recvRound s c n answer st =
        .next ⟨W', st.reads + 1,
          st.got + (answer st.reads).count (min readLen (n - st.got)) st.left,
          st.file ++ st.left.take ((answer st.reads).count (min readLen (n - st.got)) st.left),
          st.left.drop ((answer st.reads).count (min readLen (n - st.got)) st.left),
          ⟨min readLen (n - st.got), st.got⟩ :: st.requests⟩) ∨
    (st.got < n ∧ ∃ W', OnlyCalls st.world W' ∧ recvRound s c n answer st =
      .stop ⟨(Session.channelClose s c W').1, st.got, st.file, st.left, some .libssh2⟩) ∨
    (¬ st.got < n ∧ recvRound s c n answer st =
      .stop ⟨(Session.channelClose s c st.world).1, st.got, st.file, st.left, none⟩) := by
  by_cases hlt : st.got < n
  · by_cases hok : ∀ k, answer st.reads ≠ .error k
    · exact Or.inl ⟨hlt, hok, recvRound_next h hlt hok⟩
    · obtain ⟨k, hk⟩ := Classical.not_forall.mp hok
      exact Or.inr (Or.inl ⟨hlt, recvRound_error h hlt (Classical.not_not.mp hk)⟩)
  · exact Or.inr (Or.inr ⟨hlt, recvRound_done hlt⟩)

/-! ## the invariant -/

/-- the local file is what has been received, and no request went past the announced size -/
structure Receiving (s c : Ref) (old : PySet) (n : Nat) (stream : List UInt8) (st : RecvState) :
    Prop where
  chan : Fetching s c old st.world
  got : st.got ≤ n
  file : st.file = stream.take st.got
  left : st.left = stream.drop st.got
  within : st.got ≤ stream.length
  requests : ∀ q ∈ st.requests, q.size ≤ readLen ∧ q.before + q.size ≤ n

theorem count_le (A : ReadAnswer) (size : Nat) (left : List UInt8) :
    A.count size left ≤ size ∧ A.count size left ≤ left.length := by
  cases A with
  | eof => exact ⟨Nat.zero_le _, Nat.zero_le _⟩
  | data m =>
    show min m (min size left.length) ≤ _ ∧ min m (min size left.length) ≤ _
    omega
  | error k => exact ⟨Nat.zero_le _, Nat.zero_le _⟩

theorem receiving_next (h : Receiving s c old n stream st)
    (hs : recvRound s c n answer st = .next st') :
    Receiving s c old n stream st' ∧ st'.reads = st.reads + 1 ∧
    st'.got = st.got + (answer st.reads).count (min readLen (n - st.got)) st.left ∧ st.got < n ∧
    ∀ k, answer st.reads ≠ .error k := by
  rcases recvRound_cases (n := n) h.chan with ⟨hlt, hok, W', hw, hr⟩ |
    ⟨_, W', _, hr⟩ | ⟨_, hr⟩
  · rw [hr] at hs
    cases hs
    have hle := count_le (answer st.reads) (min readLen (n - st.got)) st.left
    generalize (answer st.reads).count (min readLen (n - st.got)) st.left = l at hle ⊢
    have hlen : st.left.length = stream.length - st.got := by rw [h.left, List.length_drop]
    have hin := h.within
    refine ⟨⟨h.chan.calls hw, ?_, ?_, ?_, ?_, ?_⟩, rfl, rfl, hlt, hok⟩
    · show st.got + l ≤ n
      omega
    · show st.file ++ st.left.take l = stream.take (st.got + l)
      rw [h.file, h.left, List.take_add]
    · show st.left.drop l = stream.drop (st.got + l)
      rw [h.left, List.drop_drop]
    · show st.got + l ≤ stream.length
      omega
    · intro q hq
      rcases List.mem_cons.mp hq with h1 | h1
      · rw [h1]
        show min readLen (n - st.got) ≤ readLen ∧ st.got + min readLen (n - st.got) ≤ n
        omega
      · exact h.requests q h1
  · rw [hr] at hs
    cases hs
  · rw [hr] at hs
    cases hs

structure Received (s c : Ref) (n : Nat) (stream : List UInt8) (r : RecvEnd) : Prop where
  chan : Released s c r.world
  file : r.file = stream.take r.got
  left : r.left = stream.drop r.got
  got : r.got ≤ n ∧ r.got ≤ stream.length
  finished : r.raised = none → r.got = n

theorem receiving_stop (h : Receiving s c old n stream st) (hs : recvRound s c n answer st = .stop r) :
    Received s c n stream r ∧ r.got = st.got ∧
    (∀ k, st.got < n → answer st.reads = .error k → r.raised = some .libssh2) := by
  rcases recvRound_cases (n := n) h.chan with ⟨_, _, W', _, hr⟩ |
    ⟨hlt, W', hw, hr⟩ | ⟨hge, hr⟩
  · rw [hr] at hs
    cases hs
  · rw [hr] at hs
    cases hs
    exact ⟨⟨(h.chan.calls hw).close, h.file, h.left, ⟨h.got, h.within⟩, fun h1 => by cases h1⟩, rfl,
      fun _ _ _ => rfl⟩
  · rw [hr] at hs
    cases hs
    refine ⟨⟨h.chan.close, h.file, h.left, ⟨h.got, h.within⟩, fun _ => ?_⟩, rfl,
      fun k h1 _ => absurd h1 hge⟩
    have := h.got
    show st.got = n
    omega

theorem receiving_start (h : Fetching s c old W) : Receiving s c old n stream (recvStart W stream) :=
  ⟨h, Nat.zero_le _, rfl, rfl, Nat.zero_le _, fun _ hq => absurd hq List.not_mem_nil⟩

/-- **Download.**  No request is larger than 1024 or goes past the announced size; a loop that ends
normally leaves the first `n` bytes of the stream in the local file; a read that raises after `k` bytes
leaves the first `k` bytes, and the exception is raised again; either way the channel has been closed
and taken out of the set of the session. -/
theorem recvFile_spec (hopen : Session.scpRecv s a W = (W', .obj c))
    (hnew : W.fresh + 1 ∉ W.members s .channel) (n : Nat) (stream : List UInt8)
    (answer : Nat → ReadAnswer) :
    (∀ st, Reach (recvRound s c n answer) (recvStart W' stream) st →
      (∀ q ∈ st.requests, q.size ≤ 1024 ∧ q.size ≤ n - q.before) ∧
      st.got ≤ n ∧ st.left = stream.drop st.got ∧
      ∀ k, st.got < n → answer st.reads = .error k → ∃ r,
        Halts (recvRound s c n answer) (recvStart W' stream) r ∧ r.raised = some .libssh2 ∧
        r.file = stream.take st.got ∧ r.file.length = st.got ∧ Released s c r.world) ∧
    (∀ r, Halts (recvRound s c n answer) (recvStart W' stream) r →
      Released s c r.world ∧
      (r.raised = none → r.file = stream.take n ∧ r.file.length = n ∧ r.left = stream.drop n) ∧
      (∀ x, r.raised = some x → r.file = stream.take r.got ∧ r.file.length = r.got)) := by
  have h0 : Receiving s c (W.reg s .channel) n stream (recvStart W' stream) :=
    receiving_start (fetching_of_scpRecv hopen hnew)
  constructor
  · intro st hst
    have hI : Receiving s c (W.reg s .channel) n stream st :=
      hst.inv (Receiving s c (W.reg s .channel) n stream) (fun _ _ h hs => (receiving_next h hs).1) h0
    refine ⟨fun q hq => ?_, hI.got, hI.left, fun k hlt herr => ?_⟩
    · have := hI.requests q hq
      have h1 : readLen = 1024 := rfl
      omega
    · obtain ⟨W1, _, hr⟩ := recvRound_error hI.chan hlt herr
      obtain ⟨hrec, hgot, hraise⟩ := receiving_stop hI hr
      refine ⟨_, hst.halts (halts_stop hr), rfl, ?_, ?_, hrec.chan⟩
      · exact hI.file
      · show st.file.length = st.got
        rw [hI.file, List.length_take]
        have := hI.within
        omega
  · intro r hr
    have hrec : Received s c n stream r :=
      Halts.inv (Receiving s c (W.reg s .channel) n stream) (Received s c n stream)
        (fun _ _ h hs => (receiving_next h hs).1) (fun _ _ h hs => (receiving_stop h hs).1) h0 hr
    have hlen : r.file.length = r.got := by
      rw [hrec.file, List.length_take]
      have := hrec.got.2
      omega
    refine ⟨hrec.chan, fun hnone => ?_, fun x _ => ⟨hrec.file, hlen⟩⟩
    have hgot := hrec.finished hnone
    rw [hgot] at hlen
    exact ⟨by rw [hrec.file, hgot], hlen, by rw [hrec.left, hgot]⟩

def fetching : World := (Session.scpRecv 1 (PyLibssh2.answer 1) startedSession).1

theorem recvFile_spec_two : ∃ r,
    Halts (recvRound 1 3 2 fun _ => .data 1) (recvStart fetching [5, 6, 7]) r ∧
    Released 1 3 r.world ∧ r.file = [5, 6] ∧ r.left = [7] := by
  have hr : Halts (recvRound 1 3 2 fun _ => .data 1) (recvStart fetching [5, 6, 7]) _ := ⟨3, rfl⟩
  have hopen : Session.scpRecv 1 (PyLibssh2.answer 1) startedSession = (fetching, .obj 3) :=
    rfl
  obtain ⟨h1, h2, _⟩ := (recvFile_spec hopen (by decide) 2 [5, 6, 7] fun _ => .data 1).2 _ hr
  exact ⟨_, hr, h1, (h2 rfl).1, (h2 rfl).2.2⟩

/-! ## termination -/

/-- how many bytes the first reads of the loop give -/
def received (n : Nat) (stream : List UInt8) (answer : Nat → ReadAnswer) : Nat → Nat
  | 0 => 0
  | i + 1 =>
    let got := received n stream answer i
    got + (answer i).count (min readLen (n - got)) (stream.drop got)

/-- while the loop wants bytes and there are some to come, libssh2 does not keep giving nothing; at the end of the
stream it may say so for ever -/
def Arrives (n : Nat) (stream : List UInt8) (answer : Nat → ReadAnswer) : Prop :=
  ∀ i, received n stream answer i < n → received n stream answer i < stream.length →
    ∃ j, i ≤ j ∧ ((∃ m, 0 < m ∧ answer j = .data m) ∨ ∃ k, answer j = .error k)

/-- enough bytes: every round with data goes on in the stream -/
theorem recvLoop_enough (h : Fetching s c old W) (ha : Arrives n stream answer) (hn : n ≤ stream.length) :
    ∃ r, Halts (recvRound s c n answer) (recvStart W stream) r := by
  let ready : Nat → Prop := fun j => received n stream answer j < n →
    (∃ m, 0 < m ∧ answer j = .data m) ∨ ∃ k, answer j = .error k
  have hready : ∀ i, ∃ j, i ≤ j ∧ ready j := by
    intro i
    by_cases hi : received n stream answer i < n
    · obtain ⟨j, hij, hj⟩ := ha i hi (hi.trans_le hn)
      exact ⟨j, hij, fun _ => hj⟩
    · exact ⟨i, Nat.le_refl i, fun h1 => absurd h1 hi⟩
  refine halts_of_ready (fun st => n - st.got) RecvState.reads ready hready
    (fun st => Receiving s c old n stream st ∧ st.got = received n stream answer st.reads)
    (fun st st' hI hs => ?_) ⟨receiving_start h, rfl⟩
  obtain ⟨hI, hpos⟩ := hI
  obtain ⟨hI', hreads, hgot, hlt, hok⟩ := receiving_next hI hs
  refine ⟨⟨hI', ?_⟩, hreads, ?_, fun hr => ?_⟩
  · rw [hreads, hgot, received, ← hpos, hI.left]
  · show n - st'.got ≤ n - st.got
    omega
  · rcases hr (hpos ▸ hlt) with ⟨m, hm, hdata⟩ | ⟨k, hk⟩
    · have hlen : st.left.length = stream.length - st.got := by rw [hI.left, List.length_drop]
      have hpos : 0 < (answer st.reads).count (min readLen (n - st.got)) st.left := by
        rw [hdata]
        show 0 < min m (min (min 1024 (n - st.got)) st.left.length)
        omega
      show n - st'.got < n - st.got
      omega
    · exact absurd hk (hok k)

/-- an error: the loop does not get past the read that raises -/
theorem recvLoop_error {i k : Nat} (h : Fetching s c old W) (herr : answer i = .error k) :
    ∃ r, Halts (recvRound s c n answer) (recvStart W stream) r := by
  refine halts_of_wf (· < ·) wellFounded_lt (fun st => i - st.reads)
    (fun st => Receiving s c old n stream st ∧ st.reads ≤ i) (fun st st' hI hs => ?_)
    ⟨receiving_start h, Nat.zero_le _⟩
  obtain ⟨hI', hreads, _, _, hok⟩ := receiving_next hI.1 hs
  have hne : st.reads ≠ i := fun h1 => hok k (h1 ▸ herr)
  have hle := hI.2
  refine ⟨⟨hI', by omega⟩, ?_⟩
  show i - st'.reads < i - st.reads
  omega

/-- neither: the stream ends early and every further read gives nothing -/
theorem recvLoop_spins (h : Fetching s c old W) (hn : stream.length < n)
    (hok : ∀ i k, answer i ≠ .error k) :
    ¬ Halts (recvRound s c n answer) (recvStart W stream) r := by
  refine not_halts (Receiving s c old n stream) (fun st hI => ?_) (receiving_start h)
  have hlt : st.got < n := by
    have := hI.within
    omega
  obtain ⟨W', _, hr⟩ := recvRound_next hI.chan hlt (hok st.reads)
  exact ⟨_, hr, (receiving_next hI hr).1⟩

/-- **When the receive loop ends.** -/
theorem recvLoop_halts_iff (hopen : Session.scpRecv s a W = (W', .obj c))
    (hnew : W.fresh + 1 ∉ W.members s .channel) (n : Nat) (stream : List UInt8)
    (answer : Nat → ReadAnswer) (ha : Arrives n stream answer) :
    (∃ r, Halts (recvRound s c n answer) (recvStart W' stream) r) ↔
      n ≤ stream.length ∨ ∃ i k, answer i = .error k := by
  have h := fetching_of_scpRecv hopen hnew
  constructor
  · rintro ⟨r, hr⟩
    by_contra hno
    obtain ⟨h1, h2⟩ := not_or.mp hno
    exact recvLoop_spins h (by omega) (fun i k hk => h2 ⟨i, k, hk⟩) hr
  · rintro (h1 | ⟨i, k, h1⟩)
    · exact recvLoop_enough h ha h1
    · exact recvLoop_error h h1

/-- one byte, and then the end of the stream -/
def oneByte (i : Nat) : ReadAnswer := if i = 0 then .data 1 else .eof

theorem received_oneByte (i : Nat) : received 2 [5] oneByte (i + 1) = 1 := by
  induction i with
  | zero => rfl
  | succ i ih =>
    rw [received, ih]
    rfl

theorem arrives_oneByte : Arrives 2 [5] oneByte := by
  intro i _ hlt
  cases i with
  | zero => exact ⟨0, Nat.le_refl 0, Or.inl ⟨1, Nat.zero_lt_one, rfl⟩⟩
  | succ i =>
    rw [received_oneByte] at hlt
    exact absurd hlt (Nat.lt_irrefl 1)

theorem recvLoop_halts_iff_short :
    (∃ r, Halts (recvRound 1 3 2 oneByte) (recvStart fetching [5]) r) ↔
      2 ≤ [5].length ∨ ∃ i k, oneByte i = .error k :=
  recvLoop_halts_iff (W := startedSession) (a := PyLibssh2.answer 1) rfl (by decide) 2 [5] _ arrives_oneByte

/-- the loop does not end when the stream is a byte short -/
theorem recvLoop_truncated : ¬ ∀ (W W' : World) (s c : Ref) (a : Answer) (n : Nat)
    (stream : List UInt8) (answer : Nat → ReadAnswer),
    Session.scpRecv s a W = (W', .obj c) → W.fresh + 1 ∉ W.members s .channel → Arrives n stream answer →
    ∃ r, Halts (recvRound s c n answer) (recvStart W' stream) r := by
  intro hall
  have hopen : Session.scpRecv 1 (PyLibssh2.answer 1) startedSession = (fetching, .obj 3) := rfl
  have hnew : startedSession.fresh + 1 ∉ startedSession.members 1 .channel := by decide
  obtain ⟨r, hr⟩ := hall startedSession fetching 1 3 _ 2 [5] oneByte hopen hnew arrives_oneByte
  refine recvLoop_spins (fetching_of_scpRecv hopen hnew) (by decide) (fun i k h => ?_) hr
  unfold oneByte at h
  split at h
  · cases h
  · cases h

end PyLibssh2.Scp

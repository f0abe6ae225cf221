import PyLibssh2.Scp.Send
import PyLibssh2.Transfer.Opened

/-!
# The channel of `Session.scp_send_file`

The whole helper: `os.stat`, the open of the local file, `scp_send`, the loop of `Scp.sendRound` on the
channel, and the calls after it.  Only a failing `wait_closed` is handled, and its handler does not close
the channel.

* `sendFileRound`        one round: what stands before the loop, one pass of `while True`, or the rest;
* `offered`              how long the buffer of each write is, whatever the bytes are;
* `SendFileEnv.Succeeds` no call that is made on the channel or the open file fails;
* `sendFile_sets`        the sets are restored exactly if no channel is opened or all calls succeed.
-/

set_option linter.unusedSectionVars false
set_option linter.unusedVariables false

namespace PyLibssh2.Transfer

open Loop World

/-! ## the helper -/

/-- the times of `os.stat(in_file_path)` -/
structure FileTimes where
  stMtime : Int
  stAtime : Int

/-- the format `i` of `PyArg_ParseTuple` -/
def fitsInt (n : Int) : Bool := -2147483648 ≤ n ∧ n ≤ 2147483647

def FileTimes.fit (t : FileTimes) : Bool := fitsInt t.stMtime && fitsInt t.stAtime

inductive ChannelReply
  /-- `libssh2_channel_write` takes up to `m` bytes -/
  | takes (m : Nat)
  /-- `libssh2_channel_write` returns `-(k + 1)` -/
  | fails (k : Nat)

def ChannelReply.took : ChannelReply → Nat
  | .takes m => m
  | .fails _ => 0

/-- what `libssh2_channel_write` returns -/
def channelRc (r : ChannelReply) (buffer : List UInt8) : Int :=
  match r with
  | .takes m => (min m buffer.length : Nat)
  | .fails k => -(k + 1)

/-- what the calls of `scp_send_file` meet; `nextRead i` is the read of the local file after the write
number `i` -/
structure SendFileEnv where
  stat : Option FileTimes
  openIn : Bool
  openChannel : Answer
  firstRead : Bool
  nextRead : Nat → Bool
  write : Nat → ChannelReply
  flush : Int
  sendEof : Int
  waitEof : Int
  waitClosed : Int

def SendFileEnv.took (env : SendFileEnv) (i : Nat) : Nat := (env.write i).took

/-- the extension module, `channel`, and the variables of the loop -/
structure SendFileVars where
  world : World
  channel : Ref
  st : Scp.SendState

inductive SendFileState
  | entry (W : World)
  | loop (v : SendFileVars)

structure SendFileEnd where
  world : World
  raised : Option Raised

/-- what follows `written = channel.write(buf)` -/
def sendFileNext (env : SendFileEnv) (v : SendFileVars) : Round SendFileState SendFileEnd :=
  let n := Scp.written env.took v.st.writes v.st.buf
  let st := { v.st with writes := v.st.writes + 1, sent := v.st.sent ++ v.st.buf.take n }
  if n = 0 then .next (.loop { v with st := st })
  else if n = Scp.writeLen then
    -- `buf = f.read(write_len)`
    if env.nextRead v.st.writes then
      .next (.loop { v with
        st := { st with buf := v.st.rest.take Scp.writeLen, rest := v.st.rest.drop Scp.writeLen } })
    else .stop ⟨leave v.channel v.world, some .environment⟩
  else .next (.loop { v with st := { st with buf := Scp.sliceToLast n v.st.buf } })

/-- what follows the loop -/
def sendFileEnd (s : Ref) (env : SendFileEnv) (v : SendFileVars) : SendFileEnd :=
  match Channel.flush v.channel env.flush v.world with
  | (W, .raised e) => ⟨leave v.channel W, some (.module e)⟩
  | (W, _) =>
    match Channel.sendEof v.channel env.sendEof W with
    | (W, .raised e) => ⟨leave v.channel W, some (.module e)⟩
    | (W, _) =>
      match Channel.waitEof v.channel env.waitEof W with
      | (W, .raised e) => ⟨leave v.channel W, some (.module e)⟩
      | (W, _) =>
        match Channel.waitClosed v.channel env.waitClosed W with
        | (W, .raised _) =>
          -- `print "Failed to close %s"`
          ⟨leave v.channel W, none⟩
        | (W, _) => ⟨leave v.channel (Session.channelClose s v.channel W).1, none⟩

/-- `Session.scp_send_file`, from a local file that holds `content` -/
def sendFileRound (s : Ref) (env : SendFileEnv) (content : List UInt8) :
    SendFileState → Round SendFileState SendFileEnd
  | .entry W =>
    match env.stat with
    | none => .stop ⟨W, some .environment⟩
    | some t =>
      if env.openIn then
        if t.fit then
          match Session.scpSend s env.openChannel W with
          | (W, .obj c) =>
            -- `buf = f.read(write_len)`
            if env.firstRead then .next (.loop ⟨W, c, Scp.sendStart content⟩)
            else .stop ⟨leave c W, some .environment⟩
          | (W, r) => .stop ⟨W, raisedBy r⟩
        else .stop ⟨W, some .overflow⟩
      else .stop ⟨W, some .environment⟩
  | .loop v =>
    if 0 < v.st.buf.length then
      match Channel.write v.channel (channelRc (env.write v.st.writes) v.st.buf) v.world with
      | (W, .raised e) => .stop ⟨leave v.channel W, some (.module e)⟩
      | (W, _) => sendFileNext env { v with world := W }
    else .stop (sendFileEnd s env v)

variable {s f : Ref} {env : SendFileEnv} {content : List UInt8} {W V : World} {v : SendFileVars}
  {r : SendFileEnd} {st : SendFileState} {q q' : Scp.SendState} {took : Nat → Nat} {total i j : Nat}

/-! ## which calls are made -/

/-- the lengths of the buffer and of the unread rest after a write that would take `n` bytes -/
def offeredNext (n : Nat) (p : Nat × Nat) : Nat × Nat :=
  if min n p.1 = 0 then p
  else if min n p.1 = Scp.writeLen then (min Scp.writeLen p.2, p.2 - Scp.writeLen)
  else (p.1 - 1 - min n p.1, p.2)

/-- the lengths of the buffer and of the unread rest at the write number `i` -/
def offered (took : Nat → Nat) (total : Nat) : Nat → Nat × Nat
  | 0 => (min Scp.writeLen total, total - Scp.writeLen)
  | i + 1 => offeredNext (took i) (offered took total i)

theorem offered_zero (h : (offered took total i).1 = 0) (hij : i ≤ j) :
    (offered took total j).1 = 0 := by
  induction hij with
  | refl => exact h
  | step _ ih => rw [offered, offeredNext, ih, Nat.min_zero, if_pos rfl, ih]

theorem sendRound_lengths (h : Scp.sendRound took q = .next q') : q'.writes = q.writes + 1 ∧
    (q'.buf.length, q'.rest.length) = offeredNext (took q.writes) (q.buf.length, q.rest.length) := by
  refine ⟨(Scp.sendRound_measure h).1, ?_⟩
  by_cases hpos : 0 < q.buf.length
  · by_cases h0 : took q.writes = 0
    · rw [Scp.sendRound_zero hpos h0] at h
      cases h
      rw [offeredNext, h0, Nat.zero_min, if_pos rfl]
    · have hn : ¬ min (took q.writes) q.buf.length = 0 := by omega
      by_cases hfull : Scp.written took q.writes q.buf = Scp.writeLen
      · rw [Scp.sendRound_full hpos hfull] at h
        cases h
        have hfull' : min (took q.writes) q.buf.length = Scp.writeLen := hfull
        rw [offeredNext, if_neg hn, if_pos hfull', List.length_take, List.length_drop]
      · rw [Scp.sendRound_cut hpos h0 hfull] at h
        cases h
        have hfull' : ¬ min (took q.writes) q.buf.length = Scp.writeLen := hfull
        rw [offeredNext, if_neg hn, if_neg hfull', Scp.length_sliceToLast,
          Nat.min_eq_left (Nat.sub_le _ _), Scp.written]
  · have hnil : q.buf = [] := List.length_eq_zero_iff.mp (by omega)
    rw [Scp.sendRound_stop hnil] at h
    cases h

def SendFileEnv.WriteFails (env : SendFileEnv) (total : Nat) : Prop :=
  ∃ i, 0 < (offered env.took total i).1 ∧ ∃ k, env.write i = .fails k

/-- the write number `i` takes a whole block, so that the file is read -/
def SendFileEnv.Reads (env : SendFileEnv) (total i : Nat) : Prop :=
  min (env.took i) (offered env.took total i).1 = Scp.writeLen

def SendFileEnv.ReadFails (env : SendFileEnv) (total : Nat) : Prop :=
  env.firstRead = false ∨ ∃ i, env.Reads total i ∧ env.nextRead i = false

def SendFileEnv.Unopened (env : SendFileEnv) (s : Ref) (W : World) : Prop :=
  env.openIn = false ∨ (∀ t, env.stat = some t → t.fit = false) ∨
    ChannelRefused s env.openChannel W

def SendFileEnv.Ends (env : SendFileEnv) : Prop :=
  0 ≤ env.flush ∧ 0 ≤ env.sendEof ∧ 0 ≤ env.waitEof ∧ 0 ≤ env.waitClosed

def SendFileEnv.Succeeds (env : SendFileEnv) (total : Nat) : Prop :=
  ¬ env.ReadFails total ∧ ¬ env.WriteFails total ∧ env.Ends

/-! ## the calls -/

theorem channelRc_nonneg {r : ChannelReply} {buffer : List UInt8} :
    0 ≤ channelRc r buffer ↔ ∀ k, r ≠ .fails k := by
  cases r with
  | takes m => exact ⟨fun _ k h => (by cases h), fun _ => Int.natCast_nonneg _⟩
  | fails k =>
    refine iff_of_false ?_ fun h => h k rfl
    show ¬ (0 : Int) ≤ -((k : Int) + 1)
    omega

theorem sendFileEnd_sets (env : SendFileEnv) (h : Added s .channel v.channel W v.world) :
    Either s .channel W (sendFileEnd s env v).world env.Ends := by
  rcases h.negative .channelFlush true env.flush with ⟨h1, V1, ha1, hr1⟩ | ⟨h1, V1, ha1, hr1⟩
  · rcases ha1.negative .channelSendEof true env.sendEof with ⟨h2, V2, ha2, hr2⟩ | ⟨h2, V2, ha2, hr2⟩
    · rcases ha2.negative .channelWaitEof true env.waitEof with ⟨h3, V3, ha3, hr3⟩ | ⟨h3, V3, ha3, hr3⟩
      · rcases ha3.negative .channelWaitClosed true env.waitClosed with
          ⟨h4, V4, ha4, hr4⟩ | ⟨h4, V4, ha4, hr4⟩
        · refine Or.inl ⟨?_, h1, h2, h3, h4⟩
          simp only [sendFileEnd, Channel.flush, hr1, Channel.sendEof, hr2, Channel.waitEof, hr3,
            Channel.waitClosed, hr4]
          exact ha4.channelClose
        · refine Or.inr ⟨?_, fun h => h4 h.2.2.2⟩
          simp only [sendFileEnd, Channel.flush, hr1, Channel.sendEof, hr2, Channel.waitEof, hr3,
            Channel.waitClosed, hr4]
          exact ha4.leaked (Or.inl rfl)
      · refine Or.inr ⟨?_, fun h => h3 h.2.2.1⟩
        simp only [sendFileEnd, Channel.flush, hr1, Channel.sendEof, hr2, Channel.waitEof, hr3]
        exact ha3.leaked (Or.inl rfl)
    · refine Or.inr ⟨?_, fun h => h2 h.2.1⟩
      simp only [sendFileEnd, Channel.flush, hr1, Channel.sendEof, hr2]
      exact ha2.leaked (Or.inl rfl)
  · refine Or.inr ⟨?_, fun h => h1 h.1⟩
    simp only [sendFileEnd, Channel.flush, hr1]
    exact ha1.leaked (Or.inl rfl)

/-- after a write the loop goes on as `Scp.sendRound` does, unless the file cannot be read -/
theorem sendFileNext_eq (hpos : 0 < v.st.buf.length) (hq : Scp.sendRound env.took v.st = .next q)
    (hok : ¬ (Scp.written env.took v.st.writes v.st.buf = Scp.writeLen ∧
      env.nextRead v.st.writes = false)) :
    sendFileNext env v = .next (.loop { v with st := q }) := by
  rw [Scp.sendRound, if_pos hpos] at hq
  by_cases h0 : Scp.written env.took v.st.writes v.st.buf = 0
  · simp only [if_pos h0] at hq
    cases hq
    simp only [sendFileNext, if_pos h0]
  · by_cases hfull : Scp.written env.took v.st.writes v.st.buf = Scp.writeLen
    · have hread : env.nextRead v.st.writes = true := by
        simpa using fun h => hok ⟨hfull, h⟩
      simp only [if_neg h0, if_pos hfull] at hq
      cases hq
      simp only [sendFileNext, if_neg h0, if_pos hfull, if_pos hread]
    · simp only [if_neg h0, if_neg hfull] at hq
      cases hq
      simp only [sendFileNext, if_neg h0, if_neg hfull]

theorem sendFileNext_fails (hfull : Scp.written env.took v.st.writes v.st.buf = Scp.writeLen)
    (hread : env.nextRead v.st.writes = false) :
    sendFileNext env v = .stop ⟨leave v.channel v.world, some .environment⟩ := by
  have hne : ¬ Scp.writeLen = 0 := by decide
  simp only [sendFileNext, hfull, if_neg hne, hread, if_true]
  rfl

theorem sendRound_goes (took : Nat → Nat) (hpos : 0 < q.buf.length) :
    ∃ q', Scp.sendRound took q = .next q' := by
  by_cases h0 : took q.writes = 0
  · exact ⟨_, Scp.sendRound_zero hpos h0⟩
  · by_cases hfull : Scp.written took q.writes q.buf = Scp.writeLen
    · exact ⟨_, Scp.sendRound_full hpos hfull⟩
    · exact ⟨_, Scp.sendRound_cut hpos h0 hfull⟩

/-! ## the invariant -/

/-- what holds between the rounds: no call that has been made failed -/
structure Sending (s : Ref) (env : SendFileEnv) (total : Nat) (W : World) (v : SendFileVars) : Prop where
  added : Added s .channel v.channel W v.world
  lengths : (v.st.buf.length, v.st.rest.length) = offered env.took total v.st.writes
  written : ∀ j < v.st.writes,
    (∀ k, env.write j ≠ .fails k) ∧ ¬ (env.Reads total j ∧ env.nextRead j = false)

def SendFileInv (s : Ref) (env : SendFileEnv) (total : Nat) (W : World) : SendFileState → Prop
  | .entry V => V = W
  | .loop v => ¬ env.Unopened s W ∧ env.firstRead = true ∧ Sending s env total W v

theorem Sending.end (h : Sending s env total W v) (hfirst : env.firstRead = true)
    (hbuf : ¬ 0 < v.st.buf.length) : ¬ env.ReadFails total ∧ ¬ env.WriteFails total := by
  have h0 : (offered env.took total v.st.writes).1 = 0 := by
    rw [← h.lengths]
    omega
  have hlt : ∀ i, 0 < (offered env.took total i).1 → i < v.st.writes := by
    intro i hi
    by_contra hge
    have := offered_zero h0 (Nat.le_of_not_lt hge)
    omega
  constructor
  · intro hcase
    rcases hcase with h1 | ⟨i, h1, h2⟩
    · rw [hfirst] at h1
      cases h1
    · have h3 : min (env.took i) (offered env.took total i).1 = 4096 := h1
      exact (h.written i (hlt i (by omega))).2 ⟨h1, h2⟩
  · intro hex
    obtain ⟨i, h1, k, h2⟩ := hex
    exact (h.written i (hlt i h1)).1 k h2

theorem sendFile_wrote (hopen : ¬ env.Unopened s W) (hfirst : env.firstRead = true)
    (h : Sending s env content.length W v) (ha : Added s .channel v.channel W V)
    (hpos : 0 < v.st.buf.length) (hok : ∀ k, env.write v.st.writes ≠ .fails k) :
    (∃ st, sendFileNext env { v with world := V } = .next st ∧
      SendFileInv s env content.length W st) ∨
    ∃ r, sendFileNext env { v with world := V } = .stop r ∧
      Either s .channel W r.world (env.Unopened s W ∨ env.Succeeds content.length) := by
  have hreads : Scp.written env.took v.st.writes v.st.buf = Scp.writeLen ↔
      env.Reads content.length v.st.writes := by
    rw [SendFileEnv.Reads, ← h.lengths]
    rfl
  by_cases hfail : Scp.written env.took v.st.writes v.st.buf = Scp.writeLen ∧
      env.nextRead v.st.writes = false
  · refine Or.inr ⟨_, sendFileNext_fails (v := { v with world := V }) hfail.1 hfail.2,
      Or.inr ⟨ha.leaked (Or.inl rfl), ?_⟩⟩
    intro hcase
    rcases hcase with h1 | h1
    · exact hopen h1
    · exact h1.1 (Or.inr ⟨v.st.writes, hreads.mp hfail.1, hfail.2⟩)
  · obtain ⟨q, hq⟩ := sendRound_goes env.took hpos
    obtain ⟨hw, hl⟩ := sendRound_lengths hq
    have hS : Sending s env content.length W { v with world := V, st := q } := by
      refine ⟨ha, ?_, fun j hj => ?_⟩
      · show (q.buf.length, q.rest.length) = offered env.took content.length q.writes
        rw [hl, hw, offered, ← h.lengths]
      · have hj' : j < v.st.writes + 1 := hw ▸ hj
        rcases Nat.lt_succ_iff_lt_or_eq.mp hj' with h1 | h1
        · exact h.written j h1
        · rw [h1]
          exact ⟨hok, fun h2 => hfail ⟨hreads.mpr h2.1, h2.2⟩⟩
    have hI : SendFileInv s env content.length W (.loop { v with world := V, st := q }) :=
      ⟨hopen, hfirst, hS⟩
    exact Or.inl ⟨_, sendFileNext_eq (v := { v with world := V }) hpos hq hfail, hI⟩

theorem sendFile_loop (hopen : ¬ env.Unopened s W) (hfirst : env.firstRead = true)
    (h : Sending s env content.length W v) :
    (∃ st, sendFileRound s env content (.loop v) = .next st ∧
      SendFileInv s env content.length W st) ∨
    ∃ r, sendFileRound s env content (.loop v) = .stop r ∧
      Either s .channel W r.world (env.Unopened s W ∨ env.Succeeds content.length) := by
  by_cases hpos : 0 < v.st.buf.length
  · rcases h.added.negative .channelWrite true (channelRc (env.write v.st.writes) v.st.buf) with
      ⟨h0, V, ha, hr⟩ | ⟨h0, V, ha, hr⟩
    · have hrun : sendFileRound s env content (.loop v) = sendFileNext env { v with world := V } := by
        simp only [sendFileRound, if_pos hpos, Channel.write, hr]
      rw [hrun]
      exact sendFile_wrote hopen hfirst h ha hpos (channelRc_nonneg.mp h0)
    · refine Or.inr ⟨⟨leave v.channel V, some (.module .libssh2)⟩, ?_,
        Or.inr ⟨ha.leaked (Or.inl rfl), ?_⟩⟩
      · simp only [sendFileRound, if_pos hpos, Channel.write, hr]
      · intro hcase
        rcases hcase with h1 | h1
        · exact hopen h1
        · obtain ⟨k, hk⟩ := not_forall_not.mp (mt channelRc_nonneg.mpr h0)
          have hmade : 0 < (offered env.took content.length v.st.writes).1 := by
            rw [← h.lengths]
            exact hpos
          exact h1.2.1 ⟨v.st.writes, hmade, k, hk⟩
  · obtain ⟨hread, hwrite⟩ := h.end hfirst hpos
    refine Or.inr ⟨_, by rw [sendFileRound, if_neg hpos], ?_⟩
    rcases sendFileEnd_sets env h.added with ⟨h1, h2⟩ | ⟨h1, h2⟩
    · exact Or.inl ⟨h1, Or.inr ⟨hread, hwrite, h2⟩⟩
    · refine Or.inr ⟨h1, ?_⟩
      intro hcase
      rcases hcase with h3 | h3
      · exact hopen h3
      · exact h2 h3.2.2

theorem sendFile_entry (hy : Young W) :
    (∃ st, sendFileRound s env content (.entry W) = .next st ∧
      SendFileInv s env content.length W st) ∨
    ∃ r, sendFileRound s env content (.entry W) = .stop r ∧
      Either s .channel W r.world (env.Unopened s W ∨ env.Succeeds content.length) := by
  cases hstat : env.stat with
  | none =>
    refine Or.inr ⟨_, by simp only [sendFileRound, hstat]; rfl, Or.inl ⟨rfl, Or.inl ?_⟩⟩
    exact Or.inr (Or.inl fun t ht => by rw [hstat] at ht; cases ht)
  | some t =>
    cases hin : env.openIn with
    | false =>
      exact Or.inr ⟨_, by simp only [sendFileRound, hstat, hin]; rfl,
        Or.inl ⟨rfl, Or.inl (Or.inl hin)⟩⟩
    | true =>
      cases hfit : t.fit with
      | false =>
        refine Or.inr ⟨_, by simp only [sendFileRound, hstat, hin, hfit]; rfl,
          Or.inl ⟨rfl, Or.inl (Or.inr (Or.inl fun t' ht => ?_))⟩⟩
        rw [hstat] at ht
        cases ht
        exact hfit
      | true =>
        rcases scpSend_cases (s := s) hy env.openChannel with ⟨V, e, h1, h2, hr⟩ | ⟨V, c, h1, h2, hno⟩
        · refine Or.inr ⟨_, by simp only [sendFileRound, hstat, hin, hfit, h1]; rfl,
            Or.inl ⟨h2.reg, Or.inl (Or.inr (Or.inr hr))⟩⟩
        · have hopen : ¬ env.Unopened s W := by
            intro hun
            rcases hun with h3 | h3 | h3
            · rw [hin] at h3
              cases h3
            · rw [h3 t hstat] at hfit
              cases hfit
            · exact hno h3
          cases hfirst : env.firstRead with
          | false =>
            refine Or.inr ⟨_, by simp only [sendFileRound, hstat, hin, hfit, h1, hfirst]; rfl,
              Or.inr ⟨(Added.of_open h2).leaked (Or.inl rfl), ?_⟩⟩
            intro hcase
            rcases hcase with h3 | h3
            · exact hopen h3
            · exact h3.1 (Or.inl hfirst)
          | true =>
            refine Or.inl ⟨.loop ⟨V, c, Scp.sendStart content⟩,
              by simp only [sendFileRound, hstat, hin, hfit, h1, hfirst]; rfl,
              hopen, hfirst, Added.of_open h2, ?_, fun j hj => absurd hj (Nat.not_lt_zero j)⟩
            show ((content.take Scp.writeLen).length, (content.drop Scp.writeLen).length) = _
            rw [List.length_take, List.length_drop]
            rfl

theorem sendFile_sets (hy : Young W) (s f : Ref) (env : SendFileEnv) (content : List UInt8)
    (h : Halts (sendFileRound s env content) (.entry W) r) : SameSets s f W r.world ↔
      env.Unopened s W ∨ env.Succeeds content.length := by
  have h0 : SendFileInv s env content.length W (.entry W) := rfl
  apply sameSets_iff (Or.inl ⟨rfl, rfl⟩)
  refine h.of_rounds (SendFileInv s env content.length W)
    (fun r => Either s .channel W r.world (env.Unopened s W ∨ env.Succeeds content.length))
    (fun st hI => ?_) h0
  cases st with
  | entry V =>
    have hV : V = W := hI
    rw [hV]
    exact sendFile_entry hy
  | loop v => exact sendFile_loop hI.1 hI.2.1 hI.2.2

end PyLibssh2.Transfer

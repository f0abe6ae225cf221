import PyLibssh2.Facade.Mv

/-!
# The loop of `mv`

`Session.mv` of a list sends one command for each hundred names until a call raises.

* `batch`, `Ends`     the names of a round, and how the loop stops;
* `mvLoop_course`     the calls of the whole loop, for any server;
* `mv_batches`        when channels open and commands run, the whole list is moved;
* `mv_until_failure`  when something fails, a first part of it is.
-/

set_option linter.unusedSectionVars false
set_option linter.unusedVariables false

namespace PyLibssh2.Facade

variable {ε : Type*} {server : Server ε} {src : List Str} {dst : Str} {channel : Nat} {blank : Blank}

theorem Outcome.andThen_of_some {a : Outcome ε} {e : Raised ε} (h : a.raised = some e) (b : Outcome ε) :
    a.andThen b = a := by
  unfold Outcome.andThen
  rw [h]

def batch {α : Type*} (src : List α) (i : Nat) : List α := (src.drop (100 * i)).take 100

theorem batch_drop {α : Type*} (src : List α) (i : Nat) : batch (src.drop 100) i = batch src (i + 1) := by
  have h : 100 + 100 * i = 100 * (i + 1) := by omega
  rw [batch, batch, List.drop_drop, h]

theorem batch_ne {α : Type*} {src : List α} {i : Nat} (h : 100 * i < src.length) : batch src i ≠ [] := by
  have hlen : (batch src i).length = min 100 (src.length - 100 * i) := by
    rw [batch, List.length_take, List.length_drop]
  intro h0
  rw [h0, List.length_nil] at hlen
  omega

theorem batch_le {α : Type*} (src : List α) (i : Nat) : (batch src i).length ≤ 100 := by
  rw [batch, List.length_take]
  exact Nat.min_le_left _ _

theorem batch_map {α β : Type*} (f : α → β) (src : List α) (i : Nat) :
    batch (src.map f) i = (batch src i).map f := by
  rw [batch, batch, ← List.map_drop, ← List.map_take]

/-- the first `m` rounds take the first names of the list, each once and in order -/
theorem flatten_batches {α : Type*} (src : List α) (m : Nat) :
    ((List.range m).map (batch src)).flatten = src.take (100 * m) := by
  induction m with
  | zero => rfl
  | succ m ih =>
    have h : 100 * (m + 1) = 100 * m + 100 := by omega
    rw [List.range_succ, List.map_append, List.flatten_append, ih, h, List.take_add]
    simp only [List.map_cons, List.map_nil, List.flatten_cons, List.flatten_nil, List.append_nil, batch]

/-- how the loop stops at channel number `channel`, with `rest` left of the list: its last calls and the
exception -/
inductive Ends (server : Server ε) (dst : Str) (channel : Nat) (rest : List Str) :
    List Op → Option (Raised ε) → Prop
  | finished (nil : rest = []) : Ends server dst channel rest [] none
  | unopened {e : ε} (ne : rest ≠ []) (fails : server.openSession channel = some e) :
      Ends server dst channel rest [.openSession channel] (some (.module e))
  | unrun {e : ε} (ne : rest ≠ []) (opens : server.openSession channel = none)
      (fails : server.execute channel = some e) :
      Ends server dst channel rest
        [.openSession channel, .execute channel (mvCommand (rest.take 100) dst)]
        (some (.module e))

/-- the loop from channel number `channel` on goes well for `n` rounds and stops there -/
structure Course (server : Server ε) (dst : Str) (channel : Nat) (src : List Str) (n : Nat)
    (last : List Op) : Prop where
  rounds : ∀ i < n, 100 * i < src.length
  opens : ∀ i < n, server.openSession (channel + i) = none
  runs : ∀ i < n, server.execute (channel + i) = none
  ops : (mvLoop server dst channel src).ops =
    (List.range n).flatMap (fun i => batchOps dst (batch src i, channel + i)) ++ last
  ends : Ends server dst (channel + n) (src.drop (100 * n)) last (mvLoop server dst channel src).raised

theorem course_nil : Course server dst channel [] 0 [] where
  rounds i hi := absurd hi (Nat.not_lt_zero i)
  opens i hi := absurd hi (Nat.not_lt_zero i)
  runs i hi := absurd hi (Nat.not_lt_zero i)
  ops := by
    rw [mvLoop_nil]
    rfl
  ends := by
    rw [mvLoop_nil]
    exact .finished rfl

theorem course_unopened {e : ε} (hsrc : 0 < src.length) (h : server.openSession channel = some e) :
    Course server dst channel src 0 [.openSession channel] := by
  have hraised : (openSession server channel).raised = some (.module e) := by
    rw [openSession, h]
    rfl
  have hrun := mvLoop_step server dst channel hsrc
  rw [Outcome.andThen_of_some hraised] at hrun
  refine ⟨fun i hi => absurd hi (Nat.not_lt_zero i), fun i hi => absurd hi (Nat.not_lt_zero i),
    fun i hi => absurd hi (Nat.not_lt_zero i), ?_, ?_⟩
  · rw [hrun]
    rfl
  · rw [hrun, hraised]
    exact .unopened (List.length_pos_iff.mp hsrc) h

/-- the command raises: its channel stays open -/
theorem course_unrun {e : ε} (hsrc : 0 < src.length) (hopen : server.openSession channel = none)
    (h : server.execute channel = some e) :
    Course server dst channel src 0
      [.openSession channel, .execute channel (mvCommand (src.take 100) dst)] := by
  have h1 : (openSession server channel).raised = none := by
    rw [openSession, hopen]
    rfl
  have h2 : (execute server (some channel) (mvCommand (src.take 100) dst)).raised = some (.module e) := by
    show (server.execute channel).map Raised.module = _
    rw [h]
    rfl
  have hrun := mvLoop_step server dst channel hsrc
  rw [Outcome.andThen_of_none h1, Outcome.andThen_of_some h2, h2] at hrun
  refine ⟨fun i hi => absurd hi (Nat.not_lt_zero i), fun i hi => absurd hi (Nat.not_lt_zero i),
    fun i hi => absurd hi (Nat.not_lt_zero i), ?_, ?_⟩
  · rw [hrun]
    rfl
  · rw [hrun]
    exact .unrun (List.length_pos_iff.mp hsrc) hopen h

theorem Course.cons {n : Nat} {last : List Op} (hsrc : 0 < src.length)
    (hopen : server.openSession channel = none) (hexec : server.execute channel = none)
    (h : Course server dst (channel + 1) (src.drop 100) n last) :
    Course server dst channel src (n + 1) last := by
  have h1 : (openSession server channel).raised = none := by
    rw [openSession, hopen]
    rfl
  have h2 : (execute server (some channel) (mvCommand (src.take 100) dst)).raised = none := by
    show (server.execute channel).map Raised.module = _
    rw [hexec]
    rfl
  have hrun := mvLoop_step server dst channel hsrc
  rw [Outcome.andThen_of_none h1, Outcome.andThen_of_none h2,
    Outcome.andThen_of_none (Outcome.raised_orPass _)] at hrun
  have hnum : ∀ i, channel + 1 + i = channel + (i + 1) := fun i => by omega
  have hdrop : 100 + 100 * n = 100 * (n + 1) := by omega
  refine ⟨?_, ?_, ?_, ?_, ?_⟩
  · intro i hi
    cases i with
    | zero => exact hsrc
    | succ i =>
      have hi' := h.rounds i (Nat.lt_of_succ_lt_succ hi)
      rw [List.length_drop] at hi'
      omega
  · intro i hi
    cases i with
    | zero => exact hopen
    | succ i =>
      rw [← hnum]
      exact h.opens i (Nat.lt_of_succ_lt_succ hi)
  · intro i hi
    cases i with
    | zero => exact hexec
    | succ i =>
      rw [← hnum]
      exact h.runs i (Nat.lt_of_succ_lt_succ hi)
  · rw [hrun, h.ops, List.range_succ_eq_map, List.flatMap_cons, List.flatMap_map]
    simp only [batch_drop, hnum, List.append_assoc]
    rfl
  · have hends := h.ends
    rw [List.drop_drop, hdrop, hnum] at hends
    rw [hrun]
    exact hends

/-- the loop always has a course, by induction on what is left of the list -/
theorem mvLoop_course (server : Server ε) (dst : Str) (channel : Nat) (src : List Str) :
    ∃ n last, Course server dst channel src n last := by
  induction hlen : src.length using Nat.strongRecOn generalizing src channel with
  | ind len ih =>
    rcases Nat.eq_zero_or_pos src.length with h0 | hsrc
    · rw [List.length_eq_zero_iff.mp h0]
      exact ⟨0, _, course_nil⟩
    · cases hopen : server.openSession channel with
      | some e => exact ⟨0, _, course_unopened hsrc hopen⟩
      | none =>
        cases hexec : server.execute channel with
        | some e => exact ⟨0, _, course_unrun hsrc hopen hexec⟩
        | none =>
          have hlt : (src.drop 100).length < len := by
            rw [List.length_drop]
            omega
          obtain ⟨n, last, h⟩ := ih _ hlt (channel + 1) (src.drop 100) rfl
          exact ⟨n + 1, last, h.cons hsrc hopen hexec⟩

/-! ## a server where nothing fails -/

/-- the words of a command: `mv`, the sources, the destination -/
def moveWords (batch : List Str) (dst : Str) : List Str := [109, 118] :: (batch ++ [dst])

/-- a channel is opened, the words are run on it with a space between them, and it is closed -/
def batchCalls (dst : Str) (batch : List Str × Nat) : List Op :=
  [.openSession batch.2, .execute batch.2 ([32].intercalate (moveWords batch.1 dst)), .channelClose batch.2]

theorem batchOps_eq {b : List Str × Nat} (hne : b.1 ≠ []) : batchOps dst b = batchCalls dst b := by
  rw [batchOps, mvCommand_eq hne]
  rfl

theorem zipIdx_range {α : Type*} (f : Nat → α) (n : Nat) :
    ((List.range n).map f).zipIdx = (List.range n).map fun i => (f i, i) := by
  apply List.ext_getElem (by simp)
  intro i h1 h2
  simp

/-- **Batches.**  When channels open and commands run, whatever `channel_close` ends with, `mv` returns
after one command for each 100 names; each command is made of the word `mv`, its names and the destination and
runs on a channel opened for it, which is closed before the next is opened, and the batches make up the list. -/
theorem mv_batches (server : Server ε) (src : List Str) (dst : Str)
    (hopen : ∀ c, server.openSession c = none) (hexec : ∀ c, server.execute c = none) :
    ∃ batches : List (List Str),
      mv server (.names src) dst = ⟨batches.zipIdx.flatMap (batchCalls dst), none⟩ ∧
      batches.length = (src.length + 99) / 100 ∧
      (∀ batch ∈ batches, 1 ≤ batch.length ∧ batch.length ≤ 100) ∧ batches.flatten = src := by
  obtain ⟨n, last, h⟩ := mvLoop_course server dst 0 src
  have hend : last = [] ∧ (mvLoop server dst 0 src).raised = none ∧ src.length ≤ 100 * n := by
    have hends := h.ends
    generalize (mvLoop server dst 0 src).raised = raised at hends ⊢
    cases hends with
    | finished hnil => exact ⟨rfl, rfl, List.drop_eq_nil_iff.mp hnil⟩
    | unopened hne hfails =>
      rw [hopen] at hfails
      cases hfails
    | unrun hne hopens hfails =>
      rw [hexec] at hfails
      cases hfails
  obtain ⟨hlast, hraised, hlen⟩ := hend
  refine ⟨(List.range n).map (batch src), ?_, ?_, fun b hb => ?_, ?_⟩
  · refine Outcome.ext ?_ hraised
    show (mvLoop server dst 0 src).ops = _
    rw [h.ops, hlast, List.append_nil, zipIdx_range, List.flatMap_map]
    apply List.flatMap_congr
    intro i hi
    rw [Nat.zero_add]
    exact batchOps_eq (batch_ne (h.rounds i (List.mem_range.mp hi)))
  · rw [List.length_map, List.length_range]
    cases n with
    | zero => omega
    | succ n =>
      have hlt := h.rounds n (Nat.lt_succ_self n)
      omega
  · obtain ⟨i, hi, rfl⟩ := List.mem_map.mp hb
    exact ⟨List.length_pos_iff.mpr (batch_ne (h.rounds i (List.mem_range.mp hi))), batch_le src i⟩
  · rw [flatten_batches, List.take_of_length_le hlen]

theorem mv_batches_two : ∃ batches : List (List Str),
    mv unclosing (.names [[97], [98]]) [100] = ⟨batches.zipIdx.flatMap (batchCalls [100]), none⟩ ∧
    batches.length = 1 ∧ (∀ batch ∈ batches, 1 ≤ batch.length ∧ batch.length ≤ 100) ∧
    batches.flatten = [[97], [98]] :=
  mv_batches unclosing [[97], [98]] [100] (fun _ => rfl) fun _ => rfl

/-! ## the text of the commands -/

def commandFor (dst : FileName) (names : List FileName) : Str :=
  mvCommand (names.map FileName.bytes) dst.bytes

def wordsFor (dst : FileName) (names : List FileName) : List Str :=
  mvWord :: (names.map FileName.bytes ++ [dst.bytes])

def commands (dst : FileName) (src : List FileName) (m : Nat) : List (Option Str) :=
  (List.range m).map fun i => some (commandFor dst (batch src i))

/-- the command reads as its words -/
def Reads (blank : Blank) (dst : FileName) (names : List FileName) : Prop :=
  (commandFor dst names).splitOnP blank.cut = wordsFor dst names

theorem parse_commandFor (dst : FileName) {names : List FileName} (hne : names ≠ [])
    (hle : names.length ≤ 100) : parseCommand (commandFor dst names) = some (commandFor dst names) := by
  have h : 0 ∉ commandFor dst names := MvArgs.noNul ⟨names, dst, hne, hle⟩
  rw [parseCommand, if_neg h]

theorem reads_iff {dst : FileName} {names : List FileName} (hne : names ≠ []) (hle : names.length ≤ 100) :
    Reads blank dst names ↔ ∀ f ∈ names ++ [dst], ∀ c ∈ f.bytes, blank.cut c = false := by
  have h : MvArgs.Splits blank ⟨names, dst, hne, hle⟩ ↔ MvArgs.Plain blank ⟨names, dst, hne, hle⟩ :=
    MvArgs.splits_iff_plain
  rw [MvArgs.splits_iff] at h
  exact h

variable {names : List FileName} {target : FileName} {n : Nat} {last : List Op}

theorem sent_rounds (hn : ∀ i < n, 100 * i < names.length) :
    ((List.range n).flatMap fun i =>
        batchOps target.bytes (batch (names.map FileName.bytes) i, channel + i)).flatMap Op.sent =
      commands target names n := by
  have hone : commands target names n =
      (List.range n).flatMap fun i => [some (commandFor target (batch names i))] := List.map_eq_flatMap
  rw [List.flatMap_assoc, hone]
  apply List.flatMap_congr
  intro i hi
  have hparse := parse_commandFor target (batch_ne (hn i (List.mem_range.mp hi))) (batch_le names i)
  show [parseCommand (mvCommand (batch (names.map FileName.bytes) i) target.bytes)] = _
  rw [batch_map]
  exact congrArg (fun s => [s]) hparse

/-- what the whole loop sends: one command more if the last one is the one that raises -/
theorem Course.sent (h : Course server target.bytes channel (names.map FileName.bytes) n last) :
    ∃ m, (∀ i < m, 100 * i < names.length) ∧
      (mvLoop server target.bytes channel (names.map FileName.bytes)).ops.flatMap Op.sent =
        commands target names m ∧
      ((mvLoop server target.bytes channel (names.map FileName.bytes)).raised = none →
        names.length ≤ 100 * m) := by
  have hn : ∀ i < n, 100 * i < names.length := by
    intro i hi
    have h1 := h.rounds i hi
    rwa [List.length_map] at h1
  have hends := h.ends
  rw [h.ops, List.flatMap_append, sent_rounds hn]
  generalize (mvLoop server target.bytes channel (names.map FileName.bytes)).raised = raised at hends ⊢
  cases hends with
  | finished hnil =>
    refine ⟨n, hn, List.append_nil _, fun _ => ?_⟩
    have h0 := List.drop_eq_nil_iff.mp hnil
    rwa [List.length_map] at h0
  | unopened hne hfails => exact ⟨n, hn, List.append_nil _, fun h0 => absurd h0 (Option.some_ne_none _)⟩
  | unrun hne hopens hfails =>
    have hlt : 100 * n < names.length := by
      have h0 := mt List.drop_eq_nil_iff.mpr hne
      rw [List.length_map] at h0
      omega
    refine ⟨n + 1, ?_, ?_, fun h0 => absurd h0 (Option.some_ne_none _)⟩
    · intro i hi
      rcases Nat.lt_succ_iff_lt_or_eq.mp hi with h1 | h1
      · exact hn i h1
      · rw [h1]
        exact hlt
    · have hparse := parse_commandFor target (batch_ne hlt) (batch_le names n)
      rw [commands, commands, List.range_succ, List.map_append]
      show _ ++ [parseCommand (mvCommand (batch (names.map FileName.bytes) n) target.bytes)] = _
      rw [batch_map]
      exact congrArg (fun s => _ ++ [s]) hparse

/-- **`mv` until something fails.**  Whatever the calls end with, `mv` works through the list by hundreds,
up to the first `open_session` or `execute` that raises; every round before it opens its channel, runs its
command and closes the channel, and a failing `execute` leaves its channel open.  The commands that go out
take a first part of the list, each name once and in order, and all of it if `mv` returns; they read as
the word `mv`, their names and the destination exactly if none of these has a blank in it. -/
theorem mv_until_failure (server : Server ε) (src : List FileName) (dst : FileName) (blank : Blank) :
    (∃ n last, Course server dst.bytes 0 (src.map FileName.bytes) n last) ∧
    ∃ m, (mv server (.names (src.map FileName.bytes)) dst.bytes).ops.flatMap Op.sent =
        commands dst src m ∧
      ((List.range m).map (batch src)).flatten = src.take (100 * m) ∧
      ((mv server (.names (src.map FileName.bytes)) dst.bytes).raised = none → src.length ≤ 100 * m) ∧
      ((∀ i < m, Reads blank dst (batch src i)) ↔
        ∀ i < m, ∀ f ∈ batch src i ++ [dst], ∀ c ∈ f.bytes, blank.cut c = false) := by
  obtain ⟨n, last, h⟩ := mvLoop_course server dst.bytes 0 (src.map FileName.bytes)
  obtain ⟨m, hm, hsent, hall⟩ := h.sent
  refine ⟨⟨n, last, h⟩, m, hsent, flatten_batches src m, hall, ?_⟩
  exact forall₂_congr fun i hi => reads_iff (batch_ne (hm i hi)) (batch_le src i)

end PyLibssh2.Facade

import PyLibssh2.Base.Blocks
import PyLibssh2.Base.Words

/-!
# Moving and removing files on the remote side

`Session.mv` of the facade runs the command `mv` of the remote host, for a list of names with at most 100
names a command, and `Session.rmrf` runs `rm`.  What opening a channel, `execute` and `channel_close` end
with is up to the server.

* `mvLoop_step`         one round of the loop over a list, whatever its calls end with;
* `mv_path_disagrees`   a single path is not moved: that branch uses a channel it never opened;
* `mv_text_iff`         the command gives its words back exactly if no name has a blank in it.
-/

set_option linter.unusedSectionVars false
set_option linter.unusedVariables false

namespace PyLibssh2.Facade

/-- a Python 2 string -/
abbrev Str := List UInt8

/-! ## what a piece of the program does -/

/-- a call of the extension module; channels have the number of the call that opened them -/
inductive Op
  | openSession (channel : Nat)
  | execute (channel : Nat) (command : Str)
  | channelClose (channel : Nat)
  deriving DecidableEq

inductive Raised (ε : Type*)
  /-- by a call of the extension module -/
  | module (e : ε)
  /-- `UnboundLocalError` -/
  | unboundLocal
  deriving DecidableEq

/-- the exceptions that the calls raise, if any -/
structure Server (ε : Type*) where
  openSession : Nat → Option ε
  execute : Nat → Option ε
  channelClose : Nat → Option ε

/-- the calls made, and the exception a piece of the program ended with -/
@[ext] structure Outcome (ε : Type*) where
  ops : List Op
  raised : Option (Raised ε)
  deriving DecidableEq

namespace Outcome

variable {ε : Type*}

def done : Outcome ε := ⟨[], none⟩

def andThen (a b : Outcome ε) : Outcome ε :=
  match a.raised with
  | some e => a
  | none => ⟨a.ops ++ b.ops, b.raised⟩

/-- `try: … except: pass` -/
def orPass (a : Outcome ε) : Outcome ε := ⟨a.ops, none⟩

theorem andThen_of_none {a : Outcome ε} (h : a.raised = none) (b : Outcome ε) :
    a.andThen b = ⟨a.ops ++ b.ops, b.raised⟩ := by
  rw [andThen, h]

@[simp] theorem raised_orPass (a : Outcome ε) : a.orPass.raised = none := rfl

@[simp] theorem ops_orPass (a : Outcome ε) : a.orPass.ops = a.ops := rfl

end Outcome

variable {ε : Type*}

/-- `channel = self.open_session()` -/
def openSession (server : Server ε) (channel : Nat) : Outcome ε :=
  ⟨[.openSession channel], (server.openSession channel).map .module⟩

/-- `channel.execute(command)`; the local variable may be unbound -/
def execute (server : Server ε) (channel : Option Nat) (command : Str) : Outcome ε :=
  match channel with
  | none => ⟨[], some .unboundLocal⟩
  | some c => ⟨[.execute c command], (server.execute c).map .module⟩

/-- `self.channel_close(channel)` -/
def channelClose (server : Server ε) (channel : Option Nat) : Outcome ε :=
  match channel with
  | none => ⟨[], some .unboundLocal⟩
  | some c => ⟨[.channelClose c], (server.channelClose c).map .module⟩

/-! ## `mv` -/

def space : UInt8 := 32

def mvWord : Str := [109, 118]

/-- `"mv %s %s" % (src, dst)` -/
def mvText (src dst : Str) : Str := mvWord ++ [space] ++ src ++ [space] ++ dst

/-- `"mv %s %s" % (" ".join(batch), dst)` -/
def mvCommand (batch : List Str) (dst : Str) : Str := mvText ([space].intercalate batch) dst

/-- the loop of `Session.mv`; `channel` numbers the channel that is opened next -/
def mvLoop (server : Server ε) (dst : Str) (channel : Nat) (src : List Str) : Outcome ε :=
  if 0 < src.length then
    let length := min 100 src.length
    let batch := src.take length
    (openSession server channel).andThen <|
      (execute server (some channel) (mvCommand batch dst)).andThen <|
        (channelClose server (some channel)).orPass.andThen <|
          mvLoop server dst (channel + 1) (src.drop length)
  else .done
termination_by src.length
decreasing_by
  rw [List.length_drop]
  omega

/-- the argument `src`: something with `__iter__` or `next`, or a string -/
inductive Src
  | names (src : List Str)
  | path (src : Str)

/-- `Session.mv` -/
def mv (server : Server ε) (src : Src) (dst : Str) : Outcome ε :=
  match src with
  | .names src => mvLoop server dst 0 src
  | .path src =>
    -- no channel has been opened here
    let channel : Option Nat := none
    (execute server channel (mvText src dst)).andThen (channelClose server channel).orPass

/-! ## `rmrf` -/

/-- `"rm -rf %s" % (dir_path)` -/
def rmText (dirPath : Str) : Str := [114, 109, 32, 45, 114, 102, 32] ++ dirPath

/-- `Session.rmrf` -/
def rmrf (server : Server ε) (dirPath : Str) : Outcome ε :=
  (openSession server 0).andThen <|
    (execute server (some 0) (rmText dirPath)).andThen (channelClose server (some 0)).orPass

variable {server : Server ε} {src : List Str} {dst : Str} {channel : Nat}

theorem mvLoop_nil : mvLoop server dst channel [] = .done := by
  have h : ¬ 0 < ([] : List Str).length := Nat.lt_irrefl 0
  rw [mvLoop, if_neg h]

theorem take_hundred {α : Type*} (src : List α) : src.take (min 100 src.length) = src.take 100 := by
  rw [List.take_eq_take_iff]
  omega

theorem drop_hundred {α : Type*} (src : List α) : src.drop (min 100 src.length) = src.drop 100 := by
  rcases Nat.le_total src.length 100 with h | h
  · rw [Nat.min_eq_right h, List.drop_length, List.drop_of_length_le h]
  · rw [Nat.min_eq_left h]

theorem mvLoop_step (server : Server ε) (dst : Str) (channel : Nat) (hsrc : 0 < src.length) :
    mvLoop server dst channel src =
      (openSession server channel).andThen
        ((execute server (some channel) (mvCommand (src.take 100) dst)).andThen
          ((channelClose server (some channel)).orPass.andThen
            (mvLoop server dst (channel + 1) (src.drop 100)))) := by
  rw [mvLoop, if_pos hsrc]
  simp only [take_hundred, drop_hundred]

/-- the calls of a batch that goes well -/
def batchOps (dst : Str) (batch : List Str × Nat) : List Op :=
  [.openSession batch.2, .execute batch.2 (mvCommand batch.1 dst), .channelClose batch.2]

def unclosing : Server Unit := ⟨fun _ => none, fun _ => none, fun _ => some ()⟩

/-! ## a single path -/

/-- the two forms make the same calls and end alike -/
def FormsAgree (server : Server ε) (src dst : Str) : Prop :=
  mv server (.path src) dst = mv server (.names [src]) dst

/-- the branch for a path makes no call at all -/
theorem mv_path (server : Server ε) (src dst : Str) :
    mv server (.path src) dst = ⟨[], some .unboundLocal⟩ := rfl

theorem head_names (server : Server ε) (src dst : Str) :
    (mv server (.names [src]) dst).ops.head? = some (.openSession 0) := by
  show (mvLoop server dst 0 [src]).ops.head? = _
  have h : 0 < [src].length := Nat.succ_pos 0
  rw [mvLoop, if_pos h]
  simp only [Outcome.andThen, openSession]
  split <;> rfl

/-- **A single path is never moved as the list of it is**: the branch for a path uses the variable
`channel` before anything is assigned to it. -/
theorem mv_path_disagrees (server : Server ε) (src dst : Str) : ¬ FormsAgree server src dst := by
  intro h
  have h1 := head_names server src dst
  rw [← h, mv_path] at h1
  cases h1

theorem mv_path_unmoved : ¬ ∀ (server : Server Unit) (src dst : Str), FormsAgree server src dst := by
  intro h
  have h1 : (mv unclosing (.names [[97]]) [100]).ops = [] := (congrArg Outcome.ops (h _ _ _)).symm
  have h2 := head_names unclosing [97] [100]
  rw [h1] at h2
  cases h2

/-! ## the text of the command -/

/-- a file name as a directory of the remote host can hold it, not empty -/
structure FileName where
  bytes : Str
  ne : bytes ≠ []
  noNul : 0 ∉ bytes

theorem FileName.ext {a b : FileName} (h : a.bytes = b.bytes) : a = b := by
  cases a
  cases b
  cases h
  rfl

/-- the arguments of a `mv` that needs one command -/
structure MvArgs where
  sources : List FileName
  dst : FileName
  ne : sources ≠ []
  le : sources.length ≤ 100

theorem MvArgs.ext {a b : MvArgs} (hs : a.sources = b.sources) (hd : a.dst = b.dst) : a = b := by
  cases a
  cases b
  cases hs
  cases hd
  rfl

/-- `PyArg_ParseTuple(args, "s:execute", &command)`: a string with a zero byte is refused -/
def parseCommand (command : Str) : Option Str := if 0 ∈ command then none else some command

/-- what a call hands to `libssh2_channel_exec`, for the calls of `execute` -/
def Op.sent : Op → List (Option Str)
  | .execute _ command => [parseCommand command]
  | _ => []

def willing : Server Unit := ⟨fun _ => none, fun _ => none, fun _ => none⟩

namespace MvArgs

def names (a : MvArgs) : List Str := a.sources.map FileName.bytes

def command (a : MvArgs) : Str := mvCommand a.names a.dst.bytes

def words (a : MvArgs) : List Str := mvWord :: (a.names ++ [a.dst.bytes])

/-- the command strings that reach the remote shell -/
def sent (a : MvArgs) : List (Option Str) :=
  (mv willing (.names a.names) a.dst.bytes).ops.flatMap Op.sent

end MvArgs

variable {a b : MvArgs}

theorem MvArgs.names_ne (a : MvArgs) : a.names ≠ [] := mt List.map_eq_nil_iff.mp a.ne

theorem mvCommand_eq {batch : List Str} (hne : batch ≠ []) (dst : Str) :
    mvCommand batch dst = [space].intercalate (mvWord :: (batch ++ [dst])) := by
  have happ : batch ++ [dst] ≠ [] := List.append_ne_nil_of_left_ne_nil hne _
  obtain ⟨v, vs, hv⟩ := List.exists_cons_of_ne_nil happ
  have h1 : [space].intercalate (mvWord :: (batch ++ [dst])) =
      mvWord ++ space :: [space].intercalate (v :: vs) := by
    rw [hv, List.intercalate_cons_cons, List.append_assoc]
    rfl
  rw [h1, ← hv, Words.join_snoc hne, mvCommand, mvText]
  simp only [List.append_assoc, List.cons_append, List.nil_append]

theorem MvArgs.command_eq (a : MvArgs) : a.command = [space].intercalate a.words :=
  mvCommand_eq a.names_ne a.dst.bytes

theorem MvArgs.noNul (a : MvArgs) : 0 ∉ a.command := by
  have hin : ∀ {c : UInt8} {ws : List Str}, c ∈ [space].intercalate ws → c = space ∨ ∃ w ∈ ws, c ∈ w := by
    intro c ws hc
    induction ws with
    | nil => exact absurd hc List.not_mem_nil
    | cons w ws ih =>
      cases ws with
      | nil =>
        rw [List.intercalate_singleton] at hc
        exact Or.inr ⟨w, List.mem_cons_self, hc⟩
      | cons v vs =>
        rw [List.intercalate_cons_cons, List.append_assoc] at hc
        rcases List.mem_append.mp hc with h | h
        · exact Or.inr ⟨w, List.mem_cons_self, h⟩
        · rcases List.mem_cons.mp h with h1 | h1
          · exact Or.inl h1
          · rcases ih h1 with h2 | ⟨u, hu, h2⟩
            · exact Or.inl h2
            · exact Or.inr ⟨u, List.mem_cons_of_mem w hu, h2⟩
  intro h0
  rw [a.command_eq] at h0
  rcases hin h0 with h | ⟨w, hw, h⟩
  · exact absurd h (by decide)
  · rcases List.mem_cons.mp hw with h1 | h1
    · rw [h1] at h
      exact absurd h (by decide)
    · rcases List.mem_append.mp h1 with h2 | h2
      · obtain ⟨f, _, rfl⟩ := List.mem_map.mp h2
        exact f.noNul h
      · rw [List.mem_singleton.mp h2] at h
        exact a.dst.noNul h

theorem MvArgs.sent_eq (a : MvArgs) : a.sent = [some a.command] := by
  have hlen : a.names.length ≤ 100 := by
    rw [MvArgs.names, List.length_map]
    exact a.le
  have hrun : (mv willing (.names a.names) a.dst.bytes).ops = batchOps a.dst.bytes (a.names, 0) := by
    show (mvLoop willing a.dst.bytes 0 a.names).ops = _
    rw [mvLoop_step _ _ _ (List.length_pos_iff.mpr a.names_ne), List.take_of_length_le hlen,
      List.drop_of_length_le hlen, mvLoop_nil]
    rfl
  rw [MvArgs.sent, hrun]
  show [parseCommand a.command] = _
  rw [parseCommand, if_neg a.noNul]

/-- the characters at which a reader cuts a command: the space, and not the letters of `mv` -/
structure Blank where
  cut : UInt8 → Bool
  space : cut space = true
  word : ∀ c ∈ mvWord, cut c = false

/-- cutting the command that is sent gives the word `mv`, the sources and the destination -/
def MvArgs.Splits (blank : Blank) (a : MvArgs) : Prop :=
  a.sent.map (Option.map (List.splitOnP blank.cut)) = [some a.words]

/-- no name has a blank in it -/
def MvArgs.Plain (blank : Blank) (a : MvArgs) : Prop :=
  ∀ f ∈ a.sources ++ [a.dst], ∀ c ∈ f.bytes, blank.cut c = false

variable {blank : Blank}

theorem MvArgs.splits_iff : a.Splits blank ↔ a.command.splitOnP blank.cut = a.words := by
  rw [MvArgs.Splits, a.sent_eq]
  simp only [List.map_cons, List.map_nil, Option.map_some, List.cons.injEq, Option.some.injEq, and_true]

theorem MvArgs.splits_iff_plain : a.Splits blank ↔ a.Plain blank := by
  rw [MvArgs.splits_iff]
  constructor
  · intro h f hf c hc
    refine Words.split_words h f.bytes (List.mem_cons_of_mem mvWord ?_) c hc
    rcases List.mem_append.mp hf with h1 | h1
    · exact List.mem_append_left _ (List.mem_map_of_mem h1)
    · rw [List.mem_singleton.mp h1]
      exact List.mem_append_right _ (List.mem_singleton_self _)
  · intro h
    rw [a.command_eq]
    apply Words.split_join blank.space (List.cons_ne_nil _ _)
    intro w hw
    rcases List.mem_cons.mp hw with h1 | h1
    · rw [h1]
      exact blank.word
    · rcases List.mem_append.mp h1 with h2 | h2
      · obtain ⟨f, hf, rfl⟩ := List.mem_map.mp h2
        exact h f (List.mem_append_left _ hf)
      · rw [List.mem_singleton.mp h2]
        exact h a.dst (List.mem_append_right _ (List.mem_singleton_self _))

theorem MvArgs.words_inj (h : a.words = b.words) : a = b := by
  have h1 : a.names ++ [a.dst.bytes] = b.names ++ [b.dst.bytes] := (List.cons.inj h).2
  obtain ⟨h2, h3⟩ := List.append_inj' h1 rfl
  have hs : a.sources = b.sources := List.map_injective_iff.mpr (fun _ _ => FileName.ext) h2
  exact MvArgs.ext hs (FileName.ext (List.cons.inj h3).1)

/-- **The text and the arguments.**  For two calls: the commands differ if the arguments do, and each is
cut back into its words, exactly if no name of either has a blank in it. -/
theorem mv_text_iff (blank : Blank) (a b : MvArgs) :
    ((a ≠ b → a.sent ≠ b.sent) ∧ a.Splits blank ∧ b.Splits blank) ↔
      a.Plain blank ∧ b.Plain blank := by
  constructor
  · intro h
    exact ⟨MvArgs.splits_iff_plain.mp h.2.1, MvArgs.splits_iff_plain.mp h.2.2⟩
  · intro h
    have ha := MvArgs.splits_iff_plain.mpr h.1
    have hb := MvArgs.splits_iff_plain.mpr h.2
    refine ⟨fun hne heq => hne (MvArgs.words_inj ?_), ha, hb⟩
    rw [a.sent_eq, b.sent_eq] at heq
    have hcom : a.command = b.command := Option.some.inj (List.cons.inj heq).1
    rw [← MvArgs.splits_iff.mp ha, ← MvArgs.splits_iff.mp hb, hcom]

/-- only the space is a blank -/
def onlySpace : Blank := ⟨fun c => c == space, by simp, by simp [mvWord, space]⟩

/-- `mv(["a", "b"], "d")` -/
def twoNames : MvArgs where
  sources := [⟨[97], by simp, by simp⟩, ⟨[98], by simp, by simp⟩]
  dst := ⟨[100], by simp, by simp⟩
  ne := List.cons_ne_nil _ _
  le := by decide

/-- `mv(["a b"], "d")` -/
def oneName : MvArgs where
  sources := [⟨[97, 32, 98], by simp, by simp⟩]
  dst := ⟨[100], by simp, by simp⟩
  ne := List.cons_ne_nil _ _
  le := by decide

theorem mv_text_ambiguous : ¬ ∀ (blank : Blank) (a b : MvArgs),
    (a ≠ b → a.sent ≠ b.sent) ∧ a.Splits blank ∧ b.Splits blank := by
  intro h
  have hne : oneName ≠ twoNames := fun he => absurd (congrArg (fun a => a.sources.length) he) (by decide)
  apply (h onlySpace oneName twoNames).1 hne
  rw [oneName.sent_eq, twoNames.sent_eq]
  rfl

end PyLibssh2.Facade

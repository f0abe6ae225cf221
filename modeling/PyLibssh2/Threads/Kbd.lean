import Mathlib.Data.List.TakeWhile
import Mathlib.Logic.Function.Basic
import PyLibssh2.Base.Run

/-!
# `userauth_keyboardinteractive` in several threads

The wrapper parses its arguments straight into `interactive_response` and `interactive_response_len`,
two variables of the process, and gives up the interpreter lock; `stub_kbd_callback_func` answers the
prompts of the server from these variables.  A step of the model is what a thread does between two
places where the lock changes hands.

* `parseTuple`          the parse, with the parts of it that have been stored when it fails;
* `stubKbdCallbackFunc` the answers to the prompts of one request;
* `latest`              the string that a schedule has left in `interactive_response`;
* `undisturbed_confidential`  if every prompt comes while that string is the password of the call, no
  response is another one; `prompt_discloses` if it does not.
-/

set_option linter.unusedSectionVars false
set_option linter.unusedVariables false

namespace PyLibssh2.Kbd

/-! ## the state -/

abbrev Tid := Nat

/-- an object, by identity: a session or a string -/
abbrev Ref := Nat

abbrev Bytes := List UInt8

/-- a call inside `libssh2_userauth_keyboard_interactive`: the session, and the password argument with
what it holds -/
structure Login where
  session : Ref
  arg : Ref
  password : Bytes

/-- a response given to libssh2, with the call that was prompted; the text is `none` if it is `NULL` or
was copied from a string that is gone -/
structure Response where
  login : Login
  text : Option Bytes
  length : Nat

inductive Act
  /-- a string object comes into being -/
  | alloc (x : Ref) (text : Bytes)
  /-- the last reference to a string goes -/
  | free (x : Ref)
  /-- `t` calls `userauth_keyboardinteractive(username, password)` on `s` -/
  | parse (t : Tid) (s : Ref) (username : Bytes) (x : Ref) (password : Bytes)
  /-- libssh2 calls back in `t`, with a prompt for each member; it says whether `strdup` gets memory -/
  | prompt (t : Tid) (mem : List Bool)
  /-- the call of `t` returns -/
  | ret (t : Tid)

structure State where
  strings : Ref → Option Bytes
  interactiveResponse : Option Ref
  interactiveResponseLen : Nat
  calls : Tid → Option Login
  sent : List Response
  /-- what has been done, the latest first -/
  trace : List Act

def State.init : State where
  strings := fun _ => none
  interactiveResponse := none
  interactiveResponseLen := 0
  calls := fun _ => none
  sent := []
  trace := []

/-! ## steps -/

def INT_MAX : Nat := 2147483647

/-- `PyArg_ParseTuple(args, "ssi:userauth_keyboardinteractive", …)`, the third argument being
`len(password)`: the pointer to a string is stored before the string is looked at -/
def parseTuple (username : Bytes) (x : Ref) (password : Bytes) (K : State) : State × Bool :=
  if 0 ∈ username then (K, false)
  else
    let K := { K with interactiveResponse := some x }
    if 0 ∈ password then (K, false)
    else if INT_MAX < password.length then (K, false)
    else ({ K with interactiveResponseLen := password.length }, true)

/-- `PYLIBSSH2_Session_userauth_keyboardinteractive` up to where it gives up the lock -/
def userauthKeyboardinteractive (t : Tid) (s : Ref) (username : Bytes) (x : Ref) (password : Bytes)
    (K : State) : State :=
  match parseTuple username x password K with
  | (K, false) => K
  | (K, true) => { K with calls := Function.update K.calls t (some ⟨s, x, password⟩) }

def strdup (mem : Bool) (text : Option Bytes) : Option Bytes :=
  if mem then text.map (List.takeWhile (· ≠ 0)) else none

/-- `stub_kbd_callback_func` -/
def stubKbdCallbackFunc (l : Login) (mem : List Bool) (K : State) : State :=
  { K with sent := (mem.map fun m =>
      ⟨l, strdup m (K.interactiveResponse.bind K.strings), K.interactiveResponseLen⟩) ++ K.sent }

def effect (K : State) : Act → State
  | .alloc x text => { K with strings := Function.update K.strings x (some text) }
  | .free x => { K with strings := Function.update K.strings x none }
  | .parse t s username x password => userauthKeyboardinteractive t s username x password K
  | .prompt t mem =>
    match K.calls t with
    | some l => stubKbdCallbackFunc l mem K
    | none => K
  | .ret t => { K with calls := Function.update K.calls t none }

def step (K : State) (a : Act) : State := { effect K a with trace := a :: K.trace }

/-- a call keeps its arguments, and a thread makes one call at a time -/
def Enabled (K : State) : Act → Prop
  | .alloc x _ => K.strings x = none
  | .free x => (∃ text, K.strings x = some text) ∧ ∀ t l, K.calls t = some l → l.arg ≠ x
  | .parse t _ _ x password => K.calls t = none ∧ K.strings x = some password
  | .prompt t _ => ∃ l, K.calls t = some l
  | .ret t => ∃ l, K.calls t = some l

/-- a step that is possible, and allowed by `C` -/
def StepIf (C : State → Act → Prop) (K : State) (a : Act) (K' : State) : Prop :=
  C K a ∧ Enabled K a ∧ K' = step K a

/-! ## the property -/

/-- every response is the password of the call that was prompted -/
def Confidential (K : State) : Prop :=
  ∀ r ∈ K.sent, r.text = some r.login.password ∧ r.length = r.login.password.length

/-- the string that the latest parse stored, unless it is gone -/
def latest : List Act → Option (Ref × Bytes)
  | [] => none
  | .parse _ _ username x password :: as => if 0 ∈ username then latest as else some (x, password)
  | .free x :: as => if (latest as).map Prod.fst = some x then none else latest as
  | _ :: as => latest as

/-- a call is prompted only while the latest parse was one of its password -/
def Undisturbed (K : State) : Act → Prop
  | .prompt t mem => ∀ l, K.calls t = some l → mem ≠ [] →
    (latest K.trace).map Prod.snd = some l.password ∧ ∀ m ∈ mem, m = true
  | _ => True

variable {K K' : State} {a : Act} {as : List Act} {t : Tid} {s x : Ref} {l : Login}
  {username password text : Bytes} {mem : List Bool} {C : State → Act → Prop}

/-! ## what a parse does -/

/-- a parse leaves everything alone, or stores the pointer, or stores both and starts the call -/
theorem userauth_cases (t : Tid) (s : Ref) (username : Bytes) (x : Ref) (password : Bytes) (K : State) :
    (0 ∈ username ∧ userauthKeyboardinteractive t s username x password K = K) ∨
    (0 ∉ username ∧ ¬ (0 ∉ password ∧ password.length ≤ INT_MAX) ∧
      userauthKeyboardinteractive t s username x password K =
        { K with interactiveResponse := some x }) ∨
    (0 ∉ username ∧ 0 ∉ password ∧ password.length ≤ INT_MAX ∧
      userauthKeyboardinteractive t s username x password K =
        { K with interactiveResponse := some x, interactiveResponseLen := password.length
                 calls := Function.update K.calls t (some ⟨s, x, password⟩) }) := by
  unfold userauthKeyboardinteractive parseTuple
  by_cases hu : 0 ∈ username
  · exact Or.inl ⟨hu, by rw [if_pos hu]⟩
  · rw [if_neg hu]
    by_cases hp : 0 ∈ password
    · exact Or.inr (Or.inl ⟨hu, fun h => h.1 hp, by simp only [if_pos hp]⟩)
    · by_cases hl : INT_MAX < password.length
      · exact Or.inr (Or.inl ⟨hu, fun h => absurd hl (Nat.not_lt.mpr h.2), by
          simp only [if_neg hp, if_pos hl]⟩)
      · exact Or.inr (Or.inr ⟨hu, hp, Nat.le_of_not_lt hl, by simp only [if_neg hp, if_neg hl]⟩)

theorem strdup_of_no_nul (h : 0 ∉ text) : strdup true (some text) = some text := by
  refine congrArg some (List.takeWhile_eq_self_iff.mpr fun b hb => decide_eq_true fun h0 => ?_)
  exact h (h0 ▸ hb)

/-! ## the invariant -/

/-- the variables hold what `latest` says, and only well-formed passwords are logged in with -/
structure Inv (K : State) : Prop where
  stored : ∀ x pw, latest K.trace = some (x, pw) →
    K.interactiveResponse = some x ∧ K.strings x = some pw ∧
    (0 ∉ pw → pw.length ≤ INT_MAX → K.interactiveResponseLen = pw.length)
  login : ∀ t l, K.calls t = some l → 0 ∉ l.password ∧ l.password.length ≤ INT_MAX

theorem inv_init : Inv State.init := by
  refine ⟨fun x pw h => ?_, fun t l h => ?_⟩
  · cases h
  · cases h

theorem inv_parse (h : Inv K) (hx : K.strings x = some password) :
    Inv (step K (.parse t s username x password)) := by
  have hlatest : latest (step K (.parse t s username x password)).trace =
      if 0 ∈ username then latest K.trace else some (x, password) := rfl
  rcases userauth_cases t s username x password K with ⟨hu, he⟩ | ⟨hu, hbad, he⟩ | ⟨hu, hp, hl, he⟩
  · refine ⟨fun y pw hy => ?_, fun t' l hl => ?_⟩
    · rw [hlatest, if_pos hu] at hy
      simp only [step, effect, he]
      exact h.stored y pw hy
    · simp only [step, effect, he] at hl
      exact h.login t' l hl
  · refine ⟨fun y pw hy => ?_, fun t' l hl => ?_⟩
    · rw [hlatest, if_neg hu] at hy
      cases hy
      simp only [step, effect, he]
      exact ⟨trivial, hx, fun h1 h2 => absurd ⟨h1, h2⟩ hbad⟩
    · simp only [step, effect, he] at hl
      exact h.login t' l hl
  · refine ⟨fun y pw hy => ?_, fun t' l hl' => ?_⟩
    · rw [hlatest, if_neg hu] at hy
      cases hy
      simp only [step, effect, he]
      exact ⟨trivial, hx, fun _ _ => trivial⟩
    · simp only [step, effect, he, Function.update_apply] at hl'
      split at hl'
      · cases hl'
        exact ⟨hp, hl⟩
      · exact h.login t' l hl'

/-- **Every possible step keeps the invariant.** -/
theorem inv_step (h : Inv K) (hen : Enabled K a) : Inv (step K a) := by
  cases a with
  | alloc x text =>
    refine ⟨fun y pw hy => ?_, h.login⟩
    obtain ⟨h1, h2, h3⟩ := h.stored y pw hy
    -- a new object is not the one that is pointed to
    have hne : y ≠ x := fun h4 => by
      rw [h4] at h2
      cases h2.symm.trans hen
    exact ⟨h1, by rw [← h2]; exact Function.update_of_ne hne .., h3⟩
  | free x =>
    refine ⟨fun y pw hy => ?_, h.login⟩
    have hy' : (if (latest K.trace).map Prod.fst = some x then none else latest K.trace) =
      some (y, pw) := hy
    split at hy'
    · cases hy'
    · rename_i hne
      obtain ⟨h1, h2, h3⟩ := h.stored y pw hy'
      have hyx : y ≠ x := fun h4 => hne (by rw [hy', h4]; rfl)
      exact ⟨h1, by rw [← h2]; exact Function.update_of_ne hyx .., h3⟩
  | parse t s username x password => exact inv_parse h hen.2
  | prompt t mem =>
    obtain ⟨l, hl⟩ := hen
    have he : effect K (.prompt t mem) = stubKbdCallbackFunc l mem K := by simp only [effect, hl]
    refine ⟨fun y pw hy => ?_, fun t' l' hl' => ?_⟩
    · simp only [step, he]
      exact h.stored y pw hy
    · simp only [step, he] at hl'
      exact h.login t' l' hl'
  | ret t =>
    refine ⟨h.stored, fun t' l hl => ?_⟩
    simp only [step, effect, Function.update_apply] at hl
    split at hl
    · cases hl
    · exact h.login t' l hl

/-! ## responses -/

theorem mem_sent_step {r : Response} (hr : r ∈ (step K a).sent) : r ∈ K.sent ∨
    ∃ t mem l, a = .prompt t mem ∧ K.calls t = some l ∧ ∃ m ∈ mem,
      r = ⟨l, strdup m (K.interactiveResponse.bind K.strings), K.interactiveResponseLen⟩ := by
  cases a with
  | alloc x text => exact Or.inl hr
  | free x => exact Or.inl hr
  | ret t => exact Or.inl hr
  | parse t s username x password =>
    left
    rcases userauth_cases t s username x password K with ⟨_, he⟩ | ⟨_, _, he⟩ | ⟨_, _, _, he⟩
    all_goals
      simp only [step, effect, he] at hr
      exact hr
  | prompt t mem =>
    cases hl : K.calls t with
    | none =>
      simp only [step, effect, hl] at hr
      exact Or.inl hr
    | some l =>
      simp only [step, effect, hl] at hr
      rcases List.mem_append.mp hr with h | h
      · obtain ⟨m, hm, rfl⟩ := List.mem_map.mp h
        exact Or.inr ⟨t, mem, l, rfl, hl, m, hm, rfl⟩
      · exact Or.inl h

theorem confidential_step (h : Inv K) (hc : Confidential K) (hu : Undisturbed K a) :
    Confidential (step K a) := by
  intro r hr
  rcases mem_sent_step hr with h1 | ⟨t, mem, l, rfl, hl, m, hm, rfl⟩
  · exact hc r h1
  · obtain ⟨hpw, hmem⟩ := hu l hl (List.ne_nil_of_mem hm)
    obtain ⟨⟨x, pw⟩, hlat, hsnd⟩ := Option.map_eq_some_iff.mp hpw
    obtain ⟨h1, h2, h3⟩ := h.stored x pw hlat
    obtain ⟨hnul, hlen⟩ := h.login t l hl
    have hpl : pw = l.password := hsnd
    subst hpl
    refine ⟨?_, h3 hnul hlen⟩
    show strdup m (K.interactiveResponse.bind K.strings) = some l.password
    rw [h1, hmem m hm]
    show strdup true (K.strings x) = some l.password
    rw [h2, strdup_of_no_nul hnul]

/-- a prompt that comes when another password was parsed last gives that one away -/
theorem prompt_discloses (h : Inv K) (hl : K.calls t = some l) {pw : Bytes}
    (hlat : latest K.trace = some (x, pw)) (hnul : 0 ∉ pw) (hne : pw ≠ l.password) :
    (∃ r ∈ (step K (.prompt t [true])).sent, r.login = l ∧ r.text = some pw) ∧
      ¬ Confidential (step K (.prompt t [true])) := by
  obtain ⟨h1, h2, h3⟩ := h.stored x pw hlat
  have htext : strdup true (K.interactiveResponse.bind K.strings) = some pw := by
    rw [h1]
    show strdup true (K.strings x) = some pw
    rw [h2, strdup_of_no_nul hnul]
  have hmem : (⟨l, some pw, K.interactiveResponseLen⟩ : Response) ∈
      (step K (.prompt t [true])).sent := by
    simp only [step, effect, hl, stubKbdCallbackFunc, List.map_cons, htext]
    exact List.mem_cons_self
  refine ⟨⟨_, hmem, rfl, rfl⟩, fun hc => hne ?_⟩
  exact Option.some.inj (hc _ hmem).1

/-- **No response is another password, in a run whose prompts are undisturbed.** -/
theorem undisturbed_confidential (hr : Trans.Run (StepIf Undisturbed) State.init as K) :
    Confidential K := by
  have h : Inv K ∧ Confidential K := by
    refine hr.inv (fun K => Inv K ∧ Confidential K) ⟨inv_init, fun r hr => by cases hr⟩ ?_
    rintro K a K' ⟨hi, hc⟩ ⟨hu, hen, rfl⟩
    exact ⟨inv_step hi hen, confidential_step hi hc hu⟩
  exact h.2

/-! ### two sessions -/

/-- a thread has called `userauth_keyboardinteractive("u", "ab")` -/
def loggingIn : State :=
  step (step State.init (.alloc 3 [97, 98])) (.parse 1 1 [117] 3 [97, 98])

/-- another one calls it on another session, with the password `"xyz"` -/
def overlapping : State :=
  step (step loggingIn (.alloc 4 [120, 121, 122])) (.parse 2 2 [118] 4 [120, 121, 122])

theorem loggingIn_run : Trans.Run (StepIf Undisturbed) State.init
    [.alloc 3 [97, 98], .parse 1 1 [117] 3 [97, 98]] loggingIn :=
  (Trans.Run.nil.snoc ⟨trivial, rfl, rfl⟩).snoc ⟨trivial, ⟨rfl, rfl⟩, rfl⟩

/-- the server of the first session prompts -/
def prompted : State := step loggingIn (.prompt 1 [true])

/-- only then the other thread calls -/
def inTurn : State :=
  step (step prompted (.alloc 4 [120, 121, 122])) (.parse 2 2 [118] 4 [120, 121, 122])

theorem undisturbed_confidential_inTurn :
    Confidential (step inTurn (.prompt 2 [true, true])) ∧
      (step inTurn (.prompt 2 [true, true])).sent.map (·.login.session) = [2, 2, 1] := by
  have h1 : StepIf Undisturbed loggingIn (.prompt 1 [true]) prompted := by
    refine ⟨fun l hl _ => ?_, ⟨_, rfl⟩, rfl⟩
    cases hl
    exact ⟨rfl, by decide⟩
  have h2 : StepIf Undisturbed prompted (.alloc 4 [120, 121, 122]) _ := ⟨trivial, rfl, rfl⟩
  have h3 : StepIf Undisturbed _ (.parse 2 2 [118] 4 [120, 121, 122]) inTurn := ⟨trivial, ⟨rfl, rfl⟩, rfl⟩
  have h4 : StepIf Undisturbed inTurn (.prompt 2 [true, true])
      (step inTurn (.prompt 2 [true, true])) := by
    refine ⟨fun l hl _ => ?_, ⟨_, rfl⟩, rfl⟩
    cases hl
    exact ⟨rfl, by decide⟩
  exact ⟨undisturbed_confidential ((((loggingIn_run.snoc h1).snoc h2).snoc h3).snoc h4), rfl⟩

/-- the first session is given the password of the second -/
theorem overlapping_discloses : ¬ ∀ as K, Trans.Run (StepIf fun _ _ => True) State.init as K →
    Confidential K := by
  intro hall
  have h1 : Trans.Run (StepIf fun _ _ => True) State.init _ loggingIn :=
    loggingIn_run.mono fun _ _ _ h => ⟨trivial, h.2⟩
  have h2 : StepIf (fun _ _ => True) loggingIn (.alloc 4 [120, 121, 122]) _ := ⟨trivial, rfl, rfl⟩
  have h3 : StepIf (fun _ _ => True) _ (.parse 2 2 [118] 4 [120, 121, 122]) overlapping :=
    ⟨trivial, ⟨rfl, rfl⟩, rfl⟩
  have h4 : StepIf (fun _ _ => True) overlapping (.prompt 1 [true]) _ := ⟨trivial, ⟨_, rfl⟩, rfl⟩
  have h := hall _ _ (((h1.snoc h2).snoc h3).snoc h4) _ List.mem_cons_self
  exact absurd h.1 (by decide)

end PyLibssh2.Kbd

import Mathlib.Data.List.Basic
import Mathlib.Data.List.Induction

/-!
# Callbacks of a session

`Session.callback_set` keeps the callable in one variable of the module, `py_callback_func`, and has
libssh2 call `stub_x11_callback_func`, which calls it.  `Libssh2` is the table of callbacks that libssh2
keeps for every session.

* `pyCallbackFunc_after`   the variable holds the callable accepted last, on whatever session;
* `isolated_iff`           registrations are accepted and used as documented exactly in the programs that
  register nothing callable.
-/

set_option linter.unusedSectionVars false
set_option linter.unusedVariables false

namespace PyLibssh2.Callback

/-- a session, by the number of its `LIBSSH2_SESSION` -/
abbrev Session := Nat

/-- a Python object, with what `PyCallable_Check` says of it -/
structure PyObj where
  id : Nat
  callable : Bool
  deriving DecidableEq

/-- `LIBSSH2_CALLBACK_X11` -/
def callbackX11 : Int := 4

/-- the callbacks libssh2 keeps: `set` is `libssh2_session_callback_set` with the stub, `x11` says whether
a channel that the server opens for X11 runs the stub -/
structure Libssh2 (τ : Type*) where
  start : τ
  set : τ → Session → Int → τ
  x11 : τ → Session → Bool
  x11_start : ∀ s, x11 start s = false
  x11_set : ∀ t s cbtype s',
    x11 (set t s cbtype) s' = if s' = s ∧ cbtype = callbackX11 then true else x11 t s'

/-- the variable `py_callback_func` and the callbacks of libssh2 -/
@[ext] structure State (τ : Type*) where
  pyCallbackFunc : Option PyObj
  table : τ

inductive Ret
  | none
  /-- `None` is returned while an exception is set -/
  | noneWithError
  /-- `TypeError` with "parameter must be callable" -/
  | notCallable
  /-- `PYLIBSSH2_Error` with "Only callback supported is LIBSSH2_CALLBACK_X11" -/
  | onlyX11
  deriving DecidableEq

variable {τ : Type*}

def State.start (lib : Libssh2 τ) : State τ := ⟨none, lib.start⟩

/-- `PYLIBSSH2_Session_callback_set`; the arguments are `none` if `PyArg_ParseTuple` refuses them -/
def callbackSet (lib : Libssh2 τ) (self : Session) (args : Option (Int × PyObj)) (S : State τ) :
    State τ × Ret :=
  match args with
  | none => (S, .noneWithError)
  | some (cbtype, cb) =>
    if cb.callable = false then (S, .notCallable)
    else if cbtype = callbackX11 then (S, .onlyX11)
    else ({ pyCallbackFunc := some cb, table := lib.set S.table self cbtype }, .none)

/-- `stub_x11_callback_func`: the callable it calls -/
def stub (S : State τ) : Option PyObj := S.pyCallbackFunc

/-- the callable that an X11 open of the server on the session `s` runs -/
def x11Open (lib : Libssh2 τ) (s : Session) (S : State τ) : Option PyObj :=
  if lib.x11 S.table s then stub S else none

/-! ## programs -/

inductive Act
  | callbackSet (s : Session) (args : Option (Int × PyObj))
  | x11Open (s : Session)

def step (lib : Libssh2 τ) (S : State τ) : Act → State τ
  | .callbackSet s args => (callbackSet lib s args S).1
  | .x11Open _ => S

def after (lib : Libssh2 τ) (as : List Act) : State τ := as.foldl (step lib) (State.start lib)

/-- the callable that this call registers on a session of `on`, if it returns normally -/
def accepted (lib : Libssh2 τ) (on : Session → Bool) (S : State τ) : Act → Option PyObj
  | .callbackSet s (some (cbtype, cb)) =>
    if on s = true ∧ (callbackSet lib s (some (cbtype, cb)) S).2 = .none then some cb else none
  | _ => none

/-- the callable of the last call that registered one on a session of `on` -/
def lastAccepted (lib : Libssh2 τ) (on : Session → Bool) (as : List Act) : Option PyObj :=
  (as.foldl (fun (r : State τ × Option PyObj) a =>
    (step lib r.1 a, (accepted lib on r.1 a).or r.2)) (State.start lib, none)).2

variable {lib : Libssh2 τ} {S : State τ} {s : Session} {as : List Act} {cbtype : Int} {cb : PyObj}
  {on : Session → Bool}

theorem after_snoc (as : List Act) (a : Act) : after lib (as ++ [a]) = step lib (after lib as) a :=
  List.foldl_concat ..

theorem lastAccepted_snoc (as : List Act) (a : Act) : lastAccepted lib on (as ++ [a]) =
    (accepted lib on (after lib as) a).or (lastAccepted lib on as) := by
  have h : ∀ as : List Act, (as.foldl (fun (r : State τ × Option PyObj) a =>
      (step lib r.1 a, (accepted lib on r.1 a).or r.2)) (State.start lib, none)).1 = after lib as := by
    intro as
    induction as using List.reverseRecOn with
    | nil => rfl
    | append_singleton as a ih =>
      rw [List.foldl_concat, after_snoc, ← ih]
  rw [lastAccepted, List.foldl_concat]
  simp only
  rw [h as]
  rfl

/-! ## one call -/

theorem callbackSet_refused (h : (callbackSet lib s args S).2 ≠ .none) :
    (callbackSet lib s args S).1 = S := by
  unfold callbackSet at h ⊢
  split
  · rfl
  · rename_i cbtype cb
    simp only at h
    by_cases hc : cb.callable = false
    · rw [if_pos hc]
    · rw [if_neg hc] at h ⊢
      by_cases hx : cbtype = callbackX11
      · rw [if_pos hx]
      · rw [if_neg hx] at h
        exact absurd rfl h

/-- the test of the type is the wrong way round -/
theorem callbackSet_accepts : (callbackSet lib s (some (cbtype, cb)) S).2 = .none ↔
    cb.callable = true ∧ cbtype ≠ callbackX11 := by
  unfold callbackSet
  by_cases hc : cb.callable = false
  · simp [hc]
  · have hc' : cb.callable = true := by simpa using hc
    by_cases hx : cbtype = callbackX11
    · simp [hc', hx]
    · simp [hc', hx]

theorem callbackSet_not_callable (hc : cb.callable = false) :
    callbackSet lib s (some (cbtype, cb)) S = (S, .notCallable) := by
  show (if cb.callable = false then _ else _) = _
  rw [if_pos hc]

/-- there is one variable for all sessions -/
theorem pyCallbackFunc_after (as : List Act) :
    (after lib as).pyCallbackFunc = lastAccepted lib (fun _ => true) as := by
  induction as using List.reverseRecOn with
  | nil => rfl
  | append_singleton as a ih =>
    rw [after_snoc, lastAccepted_snoc]
    cases a with
    | x11Open s => exact ih
    | callbackSet s args =>
      cases args with
      | none => exact ih
      | some args =>
        obtain ⟨cbtype, cb⟩ := args
        simp only [accepted, step, true_and]
        by_cases h : (callbackSet lib s (some (cbtype, cb)) (after lib as)).2 = .none
        · rw [if_pos h]
          obtain ⟨hc, hx⟩ := callbackSet_accepts.mp h
          simp [callbackSet, hc, hx]
        · rw [if_neg h, callbackSet_refused h]
          exact ih

/-- a server that opens a channel for X11 never reaches the stub -/
theorem x11_after (as : List Act) (s : Session) : lib.x11 (after lib as).table s = false := by
  induction as using List.reverseRecOn with
  | nil => exact lib.x11_start s
  | append_singleton as a ih =>
    rw [after_snoc]
    cases a with
    | x11Open r => exact ih
    | callbackSet r args =>
      show lib.x11 (callbackSet lib r args (after lib as)).1.table s = false
      by_cases h : (callbackSet lib r args (after lib as)).2 = .none
      · cases args with
        | none => exact ih
        | some args =>
          obtain ⟨cbtype, cb⟩ := args
          obtain ⟨hc, hx⟩ := callbackSet_accepts.mp h
          have hset : (callbackSet lib r (some (cbtype, cb)) (after lib as)).1.table =
              lib.set (after lib as).table r cbtype := by
            simp [callbackSet, hc, hx]
          rw [hset, lib.x11_set, if_neg fun h1 => hx h1.2]
          exact ih
      · rw [callbackSet_refused h]
        exact ih

/-! ## the documented behaviour -/

/-- what one call or event of a program should do after the calls and events `pre` -/
def Proper (lib : Libssh2 τ) (pre : List Act) : Act → Prop
  | .callbackSet s args =>
    ((callbackSet lib s args (after lib pre)).2 = .none ↔
      ∃ cbtype cb, args = some (cbtype, cb) ∧ cb.callable = true ∧ cbtype = callbackX11) ∧
    ((callbackSet lib s args (after lib pre)).2 ≠ .none →
      (callbackSet lib s args (after lib pre)).1 = after lib pre)
  | .x11Open s => x11Open lib s (after lib pre) = lastAccepted lib (fun r => r == s) pre

/-- every call and every event of the program does what it should -/
def Isolated (lib : Libssh2 τ) (as : List Act) : Prop :=
  ∀ pre a post, as = pre ++ a :: post → Proper lib pre a

def NoCallable (as : List Act) : Prop :=
  ∀ s cbtype cb, .callbackSet s (some (cbtype, cb)) ∈ as → cb.callable = false

theorem lastAccepted_noCallable (h : NoCallable as) : lastAccepted lib on as = none := by
  induction as using List.reverseRecOn with
  | nil => rfl
  | append_singleton as a ih =>
    have hih := ih fun s cbtype cb hm => h s cbtype cb (List.mem_append_left _ hm)
    rw [lastAccepted_snoc, hih]
    cases a with
    | x11Open s => rfl
    | callbackSet s args =>
      cases args with
      | none => rfl
      | some args =>
        obtain ⟨cbtype, cb⟩ := args
        have hc := h s cbtype cb (List.mem_append_right _ (List.mem_singleton_self _))
        simp [accepted, callbackSet_not_callable hc]

/-- **Isolation.**  In a program of `callback_set` calls on any sessions and X11 opens, every call is
accepted as documented and every open runs the callable registered last on its session, exactly if the
program never passes a callable. -/
theorem isolated_iff (lib : Libssh2 τ) (as : List Act) : Isolated lib as ↔ NoCallable as := by
  constructor
  · intro h s cbtype cb hm
    obtain ⟨pre, post, hsplit⟩ := List.append_of_mem hm
    obtain ⟨hret, _⟩ := h pre _ post hsplit
    rw [callbackSet_accepts] at hret
    by_contra hne
    have hc : cb.callable = true := by simpa using hne
    by_cases hx : cbtype = callbackX11
    · exact (hret.mpr ⟨cbtype, cb, rfl, hc, hx⟩).2 hx
    · obtain ⟨cbtype', cb', heq, _, hx'⟩ := hret.mp ⟨hc, hx⟩
      cases heq
      exact hx hx'
  · intro h pre a post hsplit
    have hpre : NoCallable pre := fun s cbtype cb hm =>
      h s cbtype cb (hsplit ▸ List.mem_append_left _ hm)
    cases a with
    | x11Open s =>
      show x11Open lib s (after lib pre) = lastAccepted lib (fun r => r == s) pre
      rw [lastAccepted_noCallable hpre, x11Open, x11_after]
      rfl
    | callbackSet s args =>
      refine ⟨?_, callbackSet_refused⟩
      cases args with
      | none =>
        refine ⟨fun h1 => (by cases h1), ?_⟩
        intro h1
        obtain ⟨_, _, heq, _⟩ := h1
        cases heq
      | some args =>
        obtain ⟨cbtype, cb⟩ := args
        have hm : Act.callbackSet s (some (cbtype, cb)) ∈ as :=
          hsplit ▸ List.mem_append_right _ List.mem_cons_self
        have hc := h s cbtype cb hm
        rw [callbackSet_not_callable hc]
        refine ⟨fun h1 => (by cases h1), ?_⟩
        intro h1
        obtain ⟨_, _, heq, hc', _⟩ := h1
        cases heq
        rw [hc] at hc'
        cases hc'

/-! ### a handler for X11 -/

/-- a table that says on which sessions the stub is the X11 callback -/
def flags : Libssh2 (Session → Bool) where
  start := fun _ => false
  set := fun t s cbtype s' => if s' = s ∧ cbtype = callbackX11 then true else t s'
  x11 := fun t s => t s
  x11_start := fun _ => rfl
  x11_set := fun _ _ _ _ => rfl

theorem callbackSet_refuses_x11 : ¬ ∀ as : List Act, Isolated flags as := by
  intro h
  have h1 := h [.callbackSet 1 (some (callbackX11, ⟨7, true⟩))] [] _ [] rfl
  exact (callbackSet_accepts.mp (h1.1.mpr ⟨callbackX11, ⟨7, true⟩, rfl, rfl, rfl⟩)).2 rfl

end PyLibssh2.Callback

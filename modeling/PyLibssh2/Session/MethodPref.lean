import Mathlib.Data.List.Basic
import Mathlib.Data.List.Induction
import Mathlib.Logic.Function.Basic

/-!
# Preferred methods

`Session.session_method_pref` of the facade passes its arguments to `session_methods` of the extension,
not to `session_method_pref`.  `Libssh2` is what libssh2 keeps of a session: the preferences for every
method type, and the methods negotiated when it has been started.

* `extension_effective`   the method of the extension does what the facade documents: after any sequence of
  accepted calls the preferences are those asked for last;
* `methodPref_iff`        the method of the facade does not: on a session that has not been started every
  call raises.
-/

set_option linter.unusedSectionVars false
set_option linter.unusedVariables false

namespace PyLibssh2.MethodPref

/-- a string as C reads it: no zero byte in it -/
structure CString where
  bytes : List UInt8
  zero : 0 ∉ bytes

inductive Arg
  | int (n : Int)
  | str (s : List UInt8)

inductive Exc
  | typeError
  | overflowError
  /-- `PYLIBSSH2_Error` -/
  | error (msg : String)
  deriving DecidableEq

/-- `LIBSSH2_METHOD_KEX`, … -/
inductive Method
  | kex | hostkey | cryptCs | cryptSc | macCs | macSc | compCs | compSc | langCs | langSc
  deriving DecidableEq

def Method.code : Method → Int
  | .kex => 0
  | .hostkey => 1
  | .cryptCs => 2
  | .cryptSc => 3
  | .macCs => 4
  | .macSc => 5
  | .compCs => 6
  | .compSc => 7
  | .langCs => 8
  | .langSc => 9

/-- libssh2, where a session is in a state of `σ`.  The fields after `accepts` are what it documents:
`libssh2_session_methods` returns `NULL` if the session has not been started, and a call of
`libssh2_session_method_pref` that it accepts sets the preferences for one method type. -/
structure Libssh2 (σ : Type*) where
  started : σ → Bool
  /-- the preferences held for a method type -/
  pref : σ → Int → CString
  /-- `libssh2_session_method_pref`, with what it returns -/
  sessionMethodPref : σ → Int → CString → σ × Int
  /-- `libssh2_session_methods` -/
  sessionMethods : σ → Int → Option CString
  accepts : Int → CString → Prop
  methods_null : ∀ t method, started t = false → sessionMethods t (Method.code method) = none
  accepts_code : ∀ m p, accepts m p → ∃ method, m = Method.code method
  method_pref : ∀ t m p, accepts m p → (sessionMethodPref t m p).2 = 0 ∧
    ∀ m', pref (sessionMethodPref t m p).1 m' = if m' = m then p else pref t m'

variable {σ : Type*}

/-! ## the extension -/

def INT_MIN : Int := -2147483648
def INT_MAX : Int := 2147483647

/-- `PyArg_ParseTuple` with the format `is` -/
def parseIs : List Arg → Except Exc (Int × CString)
  | [.int n, .str s] =>
    if INT_MIN ≤ n ∧ n ≤ INT_MAX then
      if h : 0 ∉ s then .ok (n, ⟨s, h⟩) else .error .typeError
    else .error .overflowError
  | _ => .error .typeError

def errorAlloc : Int := -6
def errorMethodNotSupported : Int := -33
def errorInval : Int := -34

/-- the `switch` of `PYLIBSSH2_Session_session_method_pref` -/
def prefError (rc : Int) : Exc :=
  .error <|
    if rc = errorInval then "The requested method type was invalid."
    else if rc = errorAlloc then "An internal memory allocation call failed."
    else if rc = errorMethodNotSupported then "The requested method is not supported."
    else "Unknown Error " ++ toString rc

/-- `PYLIBSSH2_Session_session_method_pref` -/
def Ext.sessionMethodPref (lib : Libssh2 σ) (args : List Arg) (self : σ) : σ × Except Exc Unit :=
  match parseIs args with
  | .error e => (self, .error e)
  | .ok (method, pref) =>
    match lib.sessionMethodPref self method pref with
    | (self, rc) => if rc < 0 then (self, .error (prefError rc)) else (self, .ok ())

/-- a dictionary; `none` is a `NULL` that libssh2 returned -/
abbrev Methods := List (String × Option CString)

/-- `PYLIBSSH2_Session_session_methods`, which does not look at its arguments -/
def Ext.sessionMethods (lib : Libssh2 σ) (args : List Arg) (self : σ) : Except Exc Methods :=
  let get (method : Method) := lib.sessionMethods self method.code
  match get .kex with
  | none => .error (.error "session has not yet been started no methods negociated")
  | some kex =>
    .ok [("KEX", some kex), ("HOSTKEY", get .hostkey), ("CRYPT_CS", get .cryptCs),
      ("CRYPT_SC", get .cryptSc), ("MAC_CS", get .macCs), ("MAC_SC", get .macSc),
      ("COMP_CS", get .compCs), ("COMP_SC", get .compSc), ("LANG_CS", get .langCs),
      ("LANG_SC", get .langSc)]

/-! ## the facade -/

/-- `Session.session_method_pref` -/
def Session.sessionMethodPref (lib : Libssh2 σ) (methodType pref : Arg) (self : σ) :
    σ × Except Exc Unit :=
  match Ext.sessionMethods lib [methodType, pref] self with
  | .error e => (self, .error e)
  | .ok _ => (self, .ok ())

/-! ## sequences of calls -/

/-- a method type and the preferences for it -/
abbrev Call := Int × CString

abbrev Setter (σ : Type*) := Call → σ → σ × Except Exc Unit

def facade (lib : Libssh2 σ) : Setter σ :=
  fun c => Session.sessionMethodPref lib (.int c.1) (.str c.2.bytes)

def extension (lib : Libssh2 σ) : Setter σ :=
  fun c => Ext.sessionMethodPref lib [.int c.1, .str c.2.bytes]

def after (set : Setter σ) (t : σ) (calls : List Call) : σ := calls.foldl (fun t c => (set c t).1) t

/-- the preferences of the last call for the method type `m` -/
def lastPref (m : Int) (calls : List Call) : Option CString :=
  (calls.filter fun c => c.1 = m).getLast?.map Prod.snd

/-- every call returns, and libssh2 holds what was asked for last -/
structure Effective (lib : Libssh2 σ) (set : Setter σ) (t : σ) (calls : List Call) : Prop where
  returns : ∀ pre c post, calls = pre ++ c :: post → (set c (after set t pre)).2 = .ok ()
  prefs : ∀ m, lib.pref (after set t calls) m = (lastPref m calls).getD (lib.pref t m)

variable {lib : Libssh2 σ} {set : Setter σ} {t : σ} {calls : List Call} {c : Call} {m : Int}

theorem after_snoc (calls : List Call) (c : Call) :
    after set t (calls ++ [c]) = (set c (after set t calls)).1 := List.foldl_concat ..

theorem lastPref_snoc (calls : List Call) (c : Call) :
    lastPref m (calls ++ [c]) = if m = c.1 then some c.2 else lastPref m calls := by
  unfold lastPref
  by_cases h : m = c.1
  · simp [h]
  · simp [h, Ne.symm h]

theorem Effective.snoc (h : Effective lib set t calls) (hret : (set c (after set t calls)).2 = .ok ())
    (hpref : ∀ m, lib.pref (set c (after set t calls)).1 m =
      if m = c.1 then c.2 else lib.pref (after set t calls) m) : Effective lib set t (calls ++ [c]) := by
  refine ⟨fun pre d post hsplit => ?_, fun m => ?_⟩
  · rcases List.eq_nil_or_concat post with rfl | ⟨post, e, rfl⟩
    · obtain ⟨rfl, hcd⟩ := List.append_inj' hsplit rfl
      cases hcd
      exact hret
    · rw [List.concat_eq_append, ← List.cons_append, ← List.append_assoc] at hsplit
      exact h.returns pre d post (List.append_inj' hsplit rfl).1
  · rw [after_snoc, hpref, lastPref_snoc, h.prefs]
    by_cases hm : m = c.1
    · rw [if_pos hm, if_pos hm, Option.getD_some]
    · rw [if_neg hm, if_neg hm]

/-! ## the two setters -/

theorem parseIs_accepted (h : lib.accepts c.1 c.2) :
    parseIs [.int c.1, .str c.2.bytes] = .ok (c.1, c.2) := by
  obtain ⟨method, hm⟩ := lib.accepts_code _ _ h
  have hint : INT_MIN ≤ c.1 ∧ c.1 ≤ INT_MAX := by
    rw [hm]
    cases method <;> decide
  rw [parseIs, if_pos hint, dif_pos c.2.zero]

theorem extension_step (h : lib.accepts c.1 c.2) (t : σ) : (extension lib c t).2 = .ok () ∧
    ∀ m, lib.pref (extension lib c t).1 m = if m = c.1 then c.2 else lib.pref t m := by
  obtain ⟨hrc, hpref⟩ := lib.method_pref t c.1 c.2 h
  have heq : extension lib c t = ((lib.sessionMethodPref t c.1 c.2).1, .ok ()) := by
    unfold extension Ext.sessionMethodPref
    rw [parseIs_accepted h]
    simp only
    rw [if_neg (by rw [hrc]; decide)]
  rw [heq]
  exact ⟨rfl, hpref⟩

theorem extension_effective (lib : Libssh2 σ) (t : σ) (calls : List Call)
    (h : ∀ c ∈ calls, lib.accepts c.1 c.2) : Effective lib (extension lib) t calls := by
  induction calls using List.reverseRecOn with
  | nil =>
    refine ⟨fun pre c post hsplit => ?_, fun m => rfl⟩
    simp at hsplit
  | append_singleton calls c ih =>
    have hcalls := ih fun d hd => h d (List.mem_append_left _ hd)
    obtain ⟨hret, hpref⟩ := extension_step (h c (List.mem_append_right _ (List.mem_singleton_self c)))
      (after (extension lib) t calls)
    exact hcalls.snoc hret hpref

/-- the method of the facade raises, whatever it is called with -/
theorem facade_raises (ht : lib.started t = false) (c : Call) : facade lib c t =
    (t, .error (.error "session has not yet been started no methods negociated")) := by
  unfold facade Session.sessionMethodPref Ext.sessionMethods
  simp only
  rw [lib.methods_null t .kex ht]

/-- **Preferred methods.**  On a session that has not been started a sequence of calls of the facade returns
normally and leaves the preferences asked for last, exactly if it is empty. -/
theorem methodPref_iff (lib : Libssh2 σ) (ht : lib.started t = false) (calls : List Call) :
    Effective lib (facade lib) t calls ↔ calls = [] := by
  constructor
  · intro h
    cases calls with
    | nil => rfl
    | cons c calls =>
      have hret : (facade lib c t).2 = .ok () := h.returns [] c calls rfl
      rw [facade_raises ht] at hret
      cases hret
  · intro h
    subst h
    refine ⟨fun pre c post hsplit => ?_, fun m => rfl⟩
    simp at hsplit

/-! ### a preference for the compression -/

def noCompression : CString := ⟨[110, 111, 110, 101], by simp⟩

def noName : CString := ⟨[], List.not_mem_nil⟩

/-- a session that has not been started and takes any name for any method type -/
def unstarted : Libssh2 (Int → CString) where
  started := fun _ => false
  pref := fun t => t
  sessionMethodPref := fun t m p => if 0 ≤ m ∧ m ≤ 9 then (Function.update t m p, 0) else (t, errorInval)
  sessionMethods := fun _ _ => none
  accepts := fun m _ => ∃ method, m = Method.code method
  methods_null := fun _ _ _ => rfl
  accepts_code := fun _ _ h => h
  method_pref := by
    intro t m p h
    have hcode : 0 ≤ m ∧ m ≤ 9 := by
      obtain ⟨method, rfl⟩ := h
      cases method <;> decide
    rw [if_pos hcode]
    exact ⟨rfl, fun m' => Function.update_apply t m p m'⟩

theorem methodPref_iff_none : Effective unstarted (facade unstarted) (fun _ => noName)
    [(Method.code .compCs, noCompression)] ↔ [(Method.code .compCs, noCompression)] = [] :=
  methodPref_iff unstarted rfl _

/-- the preference is not set, and the call raises -/
theorem methodPref_raises : ¬ ∀ (lib : Libssh2 (Int → CString)) (t : Int → CString) (calls : List Call),
    lib.started t = false → (∀ c ∈ calls, lib.accepts c.1 c.2) → Effective lib (facade lib) t calls := by
  intro h
  have h1 := (h unstarted (fun _ => noName) [(Method.code .compCs, noCompression)] rfl fun c hc => by
    rw [List.mem_singleton.mp hc]
    exact ⟨.compCs, rfl⟩).returns [] _ [] rfl
  rw [facade_raises rfl] at h1
  cases h1

end PyLibssh2.MethodPref

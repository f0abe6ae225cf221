import PyLibssh2.Ext.Held

/-!
# The sets while a transfer helper works

The transfer helpers of the facade hold a channel of a session, or files of an sftp.  A helper restores
the sets, or it leaves a member over.

* `sameSets_iff`     the sets are the same exactly if nothing is left over;
* `Added.leaked`     a wrapper that is not closed is left over;
* `Added.channelClose`, `Added.closeFile`  closing it restores the sets.
-/

set_option linter.unusedSectionVars false
set_option linter.unusedVariables false

namespace PyLibssh2.Transfer

open World

variable {W W' : World} {o x y s f : Ref} {k : Kind} {a : Answer}

/-! ## exceptions -/

/-- an exception that leaves a helper -/
inductive Raised
  /-- of the extension module -/
  | module (e : Exc)
  /-- `IOError` or `OSError` of the local system -/
  | environment
  /-- `OverflowError` -/
  | overflow
  deriving DecidableEq

/-- what leaves a helper when a call of the module gives `r` back -/
def raisedBy : Ret → Option Raised
  | .raised e => some (.module e)
  | _ => none

/-- the registry of kind `k` of `o` has a member that it had not before -/
def Leaked (o : Ref) (k : Kind) (W W' : World) : Prop := ∃ x, x ∈ W'.members o k ∧ x ∉ W.members o k

/-- the set of open channels of `s` and the set of open files of `f` are the same -/
def SameSets (s f : Ref) (W W' : World) : Prop :=
  (∀ x, x ∈ W'.members s .channel ↔ x ∈ W.members s .channel) ∧
    ∀ x, x ∈ W'.members f .file ↔ x ∈ W.members f .file

/-- the sets are as before and `P`, or a member of one set is left over and not `P` -/
def Either (o : Ref) (k : Kind) (W W' : World) (P : Prop) : Prop :=
  (W'.reg = W.reg ∧ P) ∨ (Leaked o k W W' ∧ ¬ P)

theorem sameSets_iff {P : Prop} (hok : (o = s ∧ k = .channel) ∨ (o = f ∧ k = .file))
    (h : Either o k W W' P) : SameSets s f W W' ↔ P := by
  rcases h with ⟨hreg, hP⟩ | ⟨⟨x, hx, hnew⟩, hP⟩
  · refine ⟨fun _ => hP, fun _ => ⟨fun x => ?_, fun x => ?_⟩⟩
    · rw [World.members, hreg]
      rfl
    · rw [World.members, hreg]
      rfl
  · refine ⟨fun hs => ?_, fun h => absurd h hP⟩
    rcases hok with ⟨rfl, rfl⟩ | ⟨rfl, rfl⟩
    · exact absurd ((hs.1 x).mp hx) hnew
    · exact absurd ((hs.2 x).mp hx) hnew

/-! ## since a world -/

/-- the wrapper `x` is held, and its being in the set of `o` is all that has changed since `W` -/
structure Added (o : Ref) (k : Kind) (x : Ref) (W V : World) : Prop where
  held : Holding o k x (W.reg o k) [] V
  aside : Aside o k W V

theorem Added.of_open (h : Opened o k x W W') : Added o k x W W' := ⟨h.holding, h.aside⟩

theorem Added.calls {V V' : World} (h : Added o k x W V) (hw : OnlyCalls V V') : Added o k x W V' :=
  ⟨h.held.calls hw, h.aside.calls hw⟩

theorem Added.negative {V : World} (h : Added o k x W V) (fn : UseFn) (lastError : Bool) (rc : Int) :
    (0 ≤ rc ∧ ∃ V', Added o k x W V' ∧
      PyLibssh2.guarded ⟨fn, PyLibssh2.negative, lastError⟩ x rc V = (V', .none)) ∨
    (¬ 0 ≤ rc ∧ ∃ V', Added o k x W V' ∧
      PyLibssh2.guarded ⟨fn, PyLibssh2.negative, lastError⟩ x rc V = (V', .raised .libssh2)) := by
  obtain ⟨V', hw, ⟨h0, hres⟩ | ⟨h0, hres⟩⟩ := h.held.negative fn lastError rc
  · exact Or.inl ⟨h0, V', h.calls hw, hres⟩
  · exact Or.inr ⟨h0, V', h.calls hw, hres⟩

theorem Added.leaked {V : World} (h : Added o k x W V) (hk : k = .channel ∨ k = .file) :
    Leaked o k W (leave x V) :=
  ⟨x, h.held.leave hk, h.held.notPre⟩

theorem Added.channelClose {V : World} (h : Added s .channel x W V) :
    (leave x (Session.channelClose s x V).1).reg = W.reg := by
  have htaken := h.held.channelClose
  rw [List.append_nil] at htaken
  exact htaken.leave h.aside (Or.inl rfl)

theorem Added.closeFile {V : World} (h : Added f .file x W V)
    (hf : ∃ p, (V.heap f).bind Obj.ptr = some p) :
    ∃ V', Sftp.closeFile f x V = (V', .none) ∧ (leave x V').reg = W.reg := by
  obtain ⟨V', hclose, htaken⟩ := h.held.closeFile hf
  rw [List.append_nil] at htaken
  exact ⟨V', hclose, htaken.leave h.aside (Or.inr rfl)⟩

/-- the file `x` was opened through the sftp `f` in the world `W`, and both are open -/
structure Working (f x : Ref) (W V : World) : Prop where
  added : Added f .file x W V
  sftp : ∃ p, (V.heap f).bind Obj.ptr = some p

theorem Working.of_open (h : Opened f .file x W W') (hf : ∃ p, (W.heap f).bind Obj.ptr = some p) :
    Working f x W W' := ⟨Added.of_open h, h.sftp hf⟩

theorem Working.calls {V V' : World} (h : Working f x W V) (hw : OnlyCalls V V') :
    Working f x W V' := by
  refine ⟨h.added.calls hw, ?_⟩
  rw [hw.heap]
  exact h.sftp

theorem Working.leaked {V : World} (h : Working f x W V) : Leaked f .file W (leave x V) :=
  h.added.leaked (Or.inr rfl)

theorem Working.close {V : World} (h : Working f x W V) :
    ∃ V', Sftp.closeFile f x V = (V', .none) ∧ (leave x V').reg = W.reg := h.added.closeFile h.sftp

end PyLibssh2.Transfer

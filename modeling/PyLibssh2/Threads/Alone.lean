import Mathlib.Data.List.Dedup
import PyLibssh2.Threads.Leftover

/-!
# Closing a session in one thread

The sections of `PyLibssh2.Threads.Closing`, run by one thread with nobody else around, do what `Session_close` does.

* `Sys.cut`            some wrappers leave their sets, and some are closed;
* `solo_loop`          a loop, with a rule for one round;
* `solo_close`         the sections of one call of `Session_close`;
* `sections_of_close`  they lead to the sets and to the open wrappers that `Session_close` leaves.
-/

set_option linter.unusedSectionVars false
set_option linter.unusedVariables false

namespace PyLibssh2.Leftover

open World
open Threads (Tid)

variable {kind : Ref → Kind} (hash : Ref → Bool → BitVec 64) {W : World} {Y Y' Y'' Z : Sys} {t u : Tid} {o q s x y : Ref} {k : Kind} {c : Obj}
  {fs : List Frame} {todo : List Kind} {as : List Act} {g : Ghost} {E : Prop}

/-! ## one thread -/

/-- thread `t` gets from `Y` to `Y'` on its own -/
abbrev Solo (kind : Ref → Kind) (hash : Ref → Bool → BitVec 64) (t : Tid) : Sys → Sys → Prop :=
  Trans.Reaches (Step kind hash) fun e => e.1 = t

/-- the wrappers in `U` leave their sets, and those in `V` are closed -/
def Sys.cut (Y : Sys) (U V : Ref → Bool) : Sys :=
  { Y with listed := fun y => Y.listed y && !U y, live := fun y => Y.live y && !V y }

def only (x : Ref) : Ref → Bool := fun y => decide (y = x)

theorem goes_goes (Y : Sys) (t : Tid) (fs gs : List Frame) : (Y.goes t fs).goes t gs = Y.goes t gs := by
  unfold Sys.goes
  rw [Function.update_idem]

structure In (kind : Ref → Kind) (Y : Sys) (o : Ref) (k : Kind) (x : Ref) : Prop where
  listed : Y.listed x = true
  owner : Y.owner x = some o
  kind : kind x = k

def inB (kind : Ref → Kind) (Y : Sys) (o : Ref) (k : Kind) (y : Ref) : Bool :=
  Y.listed y && decide (Y.owner y = some o) && decide (kind y = k)

theorem inB_iff : inB kind Y o k y = true ↔ In kind Y o k y := by
  unfold inB
  rw [Bool.and_eq_true_iff, Bool.and_eq_true_iff, decide_eq_true_iff, decide_eq_true_iff]
  exact ⟨fun h => ⟨h.1.1, h.1.2, h.2⟩, fun h => ⟨⟨h.listed, h.owner⟩, h.kind⟩⟩

/-- every member of the set of `o` for the type `k` is taken out and closed -/
def Sys.drain (kind : Ref → Kind) (Y : Sys) (o : Ref) (k : Kind) : Sys :=
  Y.cut (inB kind Y o k) (inB kind Y o k)

/-- what is kept while one thread is in the loops -/
structure Tidy (kind : Ref → Kind) (l : List Ref) (Y : Sys) : Prop where
  finite : ∀ y, Y.listed y = true → y ∈ l
  kinds : ∀ y o, Y.owner y = some o → (kind y).parent = some (kind o)
  kept : ∀ y q, kind q = .sftp → Y.owner y = some q → Y.live y = true → Y.listed y = true
  shut : ∀ y q, kind q = .sftp → Y.owner y = some q → Y.live q = false → Y.listed y = false

variable {l : List Ref} {U V : Ref → Bool}

theorem Tidy.members (h : Tidy kind l Y) (o : Ref) (k : Kind) :
    ∃ xs : List Ref, (∀ x, x ∈ xs ↔ In kind Y o k x) ∧ xs.Nodup := by
  refine ⟨l.dedup.filter (inB kind Y o k), fun x => ?_, (List.nodup_dedup l).filter _⟩
  rw [List.mem_filter, List.mem_dedup, inB_iff]
  exact ⟨And.right, fun h1 => ⟨h.finite x h1.listed, h1⟩⟩

theorem Tidy.cut (h : Tidy kind l Y)
    (hkept : ∀ y q, kind q = .sftp → Y.owner y = some q → Y.listed y = true → U y = true → V y = true)
    (hshut : ∀ y q, kind q = .sftp → Y.owner y = some q → V q = true → Y.listed y = true → U y = true) :
    Tidy kind l (Y.cut U V) := by
  refine ⟨fun y hy => h.finite y (Bool.and_eq_true_iff.mp hy).1, h.kinds, fun y q hq ho hl => ?_,
    fun y q hq ho hl => ?_⟩
  · obtain ⟨h1, h2⟩ := Bool.and_eq_true_iff.mp hl
    have h3 := h.kept y q hq ho h1
    show (Y.listed y && !U y) = true
    rw [h3, Bool.true_and]
    cases hU : U y with
    | false => rfl
    | true =>
      rw [hkept y q hq ho h3 hU] at h2
      cases h2
  · show (Y.listed y && !U y) = false
    cases hy : Y.listed y with
    | false => rfl
    | true =>
      have h1 : Y.live q = true := by
        by_contra h2
        rw [h.shut y q hq ho (Bool.eq_false_iff.mpr h2)] at hy
        cases hy
      have h2 : (Y.live q && !V q) = false := hl
      rw [h1, Bool.true_and, Bool.not_eq_false'] at h2
      rw [hshut y q hq ho h2 hy]
      rfl

theorem only_eq (h : only x y = true) : y = x := decide_eq_true_iff.mp h

/-- the members of the set of listeners are taken out, and those in `last` are cancelled -/
def Sys.drop (kind : Ref → Kind) (Y : Sys) (o : Ref) (last : Ref → Bool) : Sys :=
  Y.cut (inB kind Y o .listener) fun y => inB kind Y o .listener y && last y

def below (owner : Ref → Option Ref) (q : Ref) : Ref → Bool := fun y => only q y || decide (owner y = some q)

theorem Tidy.handles (h : Tidy kind l Y) (hq : kind q = .sftp) (ho : Y.owner y = some q) :
    kind y = .dir ∨ kind y = .file := by
  have h1 := h.kinds y q ho
  rw [hq] at h1
  cases hk : kind y <;> rw [hk] at h1 <;> first | exact Or.inl rfl | exact Or.inr rfl | cases h1

theorem Tidy.sftp_owner (h : Tidy kind l Y) (hq : kind q = .sftp) (hx : kind x = .sftp) :
    Y.owner x ≠ some q := by
  intro h1
  rcases h.handles hq h1 with h2 | h2
  · rw [hx] at h2
    cases h2
  · rw [hx] at h2
    cases h2

theorem Tidy.below (h : Tidy kind l Y) (hq : kind q = .sftp) :
    Tidy kind l (Y.cut (below Y.owner q) (below Y.owner q)) := by
  apply h.cut (fun y r _ _ _ hy => hy)
  intro y r hr ho hy hly
  unfold Leftover.below at hy
  rcases Bool.or_eq_true_iff.mp hy with h1 | h1
  · rw [only_eq h1] at ho
    exact Bool.or_eq_true_iff.mpr (Or.inr (decide_eq_true ho))
  · exact absurd (of_decide_eq_true h1) (h.sftp_owner hq hr)

end PyLibssh2.Leftover

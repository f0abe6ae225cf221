import PyLibssh2.Base.Since
import PyLibssh2.Ext.Exact
import PyLibssh2.Threads.Sections

/-!
# The loops of `Session_close` and `Sftp_shutdown` in several threads

Closing a session empties the sets of its sftps, channels and listeners one after the other, and shutting an sftp
down those of its directories and files.  Nearly every round gives up the interpreter lock, so that other threads
open wrappers that are entered in these sets, and close some of those that are in there.

* `Frame`, `Step`  where the calls of each thread are, and what a thread does next;
* `Busy`           a wrapper that some thread is closing;
* `Stray`          an sftp that a set did not keep, or a listener that a loop let go;
* `Late`           a wrapper whose opening call returned when the loop for its type had been left;
* `Inv`            what is open is in its set, `Busy` or `Stray`.

A thread that has given up the lock may be called back and begin another call, so a thread has a stack of calls;
what is below a call in this stack gives the depth of the call.  Channels of `direct_tcpip` and of listeners are
in no set and have no part in this.
-/

set_option linter.unusedSectionVars false
set_option linter.unusedVariables false

namespace PyLibssh2.Leftover

open World
open Trans (After Since)
open Threads (Tid)

/-! ## threads in closing functions -/

inductive Frame
  /-- `Session_close` or `Sftp_shutdown`: the loops that are not left yet -/
  | loops (o : Ref) (todo : List Kind)
  /-- libssh2 closes what `x` stands for -/
  | leaf (x : Ref)
  /-- `libssh2_session_disconnect` -/
  | ending (s : Ref)
  /-- libssh2 opens something through `o` -/
  | opening (o : Ref)
  deriving DecidableEq

def Frame.self : Frame → Ref
  | .loops o _ => o
  | .leaf x => x
  | .ending s => s
  | .opening o => o

/-- the wrapper that is being closed -/
def Frame.closes : Frame → Option Ref
  | .loops o _ => some o
  | .leaf x => some x
  | .ending _ => none
  | .opening _ => none

/-- the sets of a wrapper, in the order in which they are emptied -/
def loopsOf : Kind → List Kind
  | .session => [.sftp, .channel, .listener]
  | .sftp => [.dir, .file]
  | _ => []

@[ext]
structure Sys where
  /-- through which wrapper it was opened -/
  owner : Ref → Option Ref
  /-- it is in the set of its owner -/
  listed : Ref → Bool
  /-- `opened` of a session; of the other types, the pointer is not `NULL` -/
  live : Ref → Bool
  /-- it has been deallocated -/
  gone : Ref → Bool
  /-- the calls of each thread, the innermost first -/
  stack : Tid → List Frame

def Sys.goes (Y : Sys) (t : Tid) (fs : List Frame) : Sys :=
  { Y with stack := Function.update Y.stack t fs }

def Sys.unlist (Y : Sys) (x : Ref) : Sys := { Y with listed := Function.update Y.listed x false }

/-- what `PySet_Discard` or `PySet_Pop` finds leaves its set -/
def Sys.takes (Y : Sys) : Option Ref → Sys
  | none => Y
  | some x => Y.unlist x

def Sys.kill (Y : Sys) (x : Ref) : Sys := { Y with live := Function.update Y.live x false }

/-- `x` is new, and in the set of `o` if `entered` -/
def Sys.joins (Y : Sys) (o x : Ref) (entered : Bool) : Sys :=
  { Y with
    owner := Function.update Y.owner x (some o)
    listed := Function.update Y.listed x entered
    live := Function.update Y.live x true }

/-- `Session_close`, `Sftp_shutdown`, `Channel_close`, `PYLIBSSH2_Sftpdir_close`, `PYLIBSSH2_Sftpfile_close` and
`Listener_cancel` up to the first call of libssh2 or the first loop; the last three have no test -/
def closing (kind : Ref → Kind) (live : Ref → Bool) (x : Ref) : List Frame :=
  match kind x with
  | .session | .sftp => if live x then [.loops x (loopsOf (kind x))] else []
  | .channel => if live x then [.leaf x] else []
  | .file | .dir | .listener => [.leaf x]

/-- the sftp `y` is in the set of `o`, stored under the hash `h`: `PYLIBSSH2_Sftp_cmp` gives `0` for different
sftps, so that the set has it for every sftp with this hash -/
def Found (kind : Ref → Kind) (hash : Ref → Bool → BitVec 64) (Y : Sys) (o : Ref) (h : BitVec 64) (y : Ref) : Prop :=
  kind y = .sftp ∧ Y.listed y = true ∧ Y.owner y = some o ∧ hash y true = h

/-- `PySet_Size` is `0` -/
def Sys.Empty (kind : Ref → Kind) (Y : Sys) (o : Ref) (k : Kind) : Prop :=
  ∀ x, Y.listed x = true → Y.owner x = some o → kind x ≠ k

inductive Ev
  | started (s : Ref)
  | opens (o : Ref)
  | opened (o x : Ref) (entered : Bool)
  | failed (o : Ref)
  /-- a call at the depth `d` that closes `x`; `out` was taken out of a set before it -/
  | enters (x : Ref) (out : Option Ref) (d : Nat)
  | dropped (x : Ref)
  /-- the call at the depth `d` leaves a loop and goes to the next -/
  | left (o : Ref) (k : Kind) (d : Nat)
  /-- the call at the depth `d` leaves its last loop -/
  | last (o : Ref) (d : Nat)
  | ended (s : Ref)
  | back (x : Ref)
  | dealloc (x : Ref)

/-- a thread makes a step; `kind` gives the types of the wrappers, and `hash x b` is what `PYLIBSSH2_Sftp_hash`
gives for `x`, open or closed -/
inductive Step (kind : Ref → Kind) (hash : Ref → Bool → BitVec 64) : Sys → Tid × Ev → Sys → Prop
  /-- `PYLIBSSH2_Session_startup` -/
  | started {Y : Sys} {t : Tid} (s : Ref) (hk : kind s = .session) :
      Step kind hash Y (t, .started s) { Y with live := Function.update Y.live s true }
  /-- an opening method; the methods of a session have no test -/
  | opens {Y : Sys} {t : Tid} (o : Ref) (hg : Y.gone o = false) (hl : kind o = .sftp → Y.live o = true) :
      Step kind hash Y (t, .opens o) (Y.goes t (.opening o :: Y.stack t))
  /-- the new wrapper is entered in the set, unless `PySet_Add` finds another sftp; for an sftp that is `NULL`
  there is no wrapper -/
  | opened {Y : Sys} {t : Tid} {o : Ref} {fs : List Frame} (x : Ref) (entered : Bool)
      (h : Y.stack t = .opening o :: fs) (hk : (kind x).parent = some (kind o))
      (hl : kind o = .sftp → Y.live o = true) (hx : Y.owner x = none ∧ Y.live x = false)
      (hg : Y.gone x = false)
      (hadd : entered = false ↔ kind x = .sftp ∧ ∃ y, Found kind hash Y o (hash x true) y) :
      Step kind hash Y (t, .opened o x entered) ((Y.goes t fs).joins o x entered)
  | failed {Y : Sys} {t : Tid} {o : Ref} {fs : List Frame} (h : Y.stack t = .opening o :: fs) :
      Step kind hash Y (t, .failed o) (Y.goes t fs)
  /-- `Session.close`, or `PySet_Discard` and the closing function: `Session.sftp_shutdown`, `Session.channel_close`,
  `Session.forward_cancel`, `Sftp.close_file`, `Sftp.close_dir`; or the closing function in a deallocator.
  `PySet_Discard` may find another sftp -/
  | enters {Y : Sys} {t : Tid} (x : Ref) (out : Option Ref) (hg : Y.gone x = false)
      (hout : ∀ y, out = some y → y = x ∨ kind x = .sftp ∧ ∃ o, Found kind hash Y o (hash x (Y.live x)) y) :
      Step kind hash Y (t, .enters x out (Y.stack t).length)
        ((Y.takes out).goes t (closing kind Y.live x ++ Y.stack t))
  /-- a round of a loop: `PySet_Pop` and the closing function; a listener is cancelled by its deallocator -/
  | pops {Y : Sys} {t : Tid} {o : Ref} {todo : List Kind} {fs : List Frame} (x : Ref)
      (h : Y.stack t = .loops o (kind x :: todo) :: fs) (hl : Y.listed x = true) (ho : Y.owner x = some o) :
      Step kind hash Y (t, .enters x (some x) (Y.stack t).length)
        ((Y.unlist x).goes t (closing kind Y.live x ++ Y.stack t))
  /-- the round for a listener to which there are other references -/
  | dropped {Y : Sys} {t : Tid} {o : Ref} {todo : List Kind} {fs : List Frame} (x : Ref)
      (h : Y.stack t = .loops o (.listener :: todo) :: fs) (hk : kind x = .listener) (hl : Y.listed x = true)
      (ho : Y.owner x = some o) : Step kind hash Y (t, .dropped x) (Y.unlist x)
  | left {Y : Sys} {t : Tid} {o : Ref} {k k' : Kind} {todo : List Kind} {fs : List Frame}
      (h : Y.stack t = .loops o (k :: k' :: todo) :: fs) (hno : Y.Empty kind o k) :
      Step kind hash Y (t, .left o k fs.length) (Y.goes t (.loops o (k' :: todo) :: fs))
  /-- the last loop is left and `libssh2_sftp_shutdown` is called, all under the lock -/
  | shut {Y : Sys} {t : Tid} {q : Ref} {k : Kind} {fs : List Frame} (h : Y.stack t = .loops q [k] :: fs)
      (hk : kind q = .sftp) (hno : Y.Empty kind q k) :
      Step kind hash Y (t, .last q fs.length) ((Y.kill q).goes t fs)
  /-- the last loop is left and `libssh2_session_disconnect` begins -/
  | disconnects {Y : Sys} {t : Tid} {s : Ref} {k : Kind} {fs : List Frame} (h : Y.stack t = .loops s [k] :: fs)
      (hk : kind s = .session) (hno : Y.Empty kind s k) :
      Step kind hash Y (t, .last s fs.length) (Y.goes t (.ending s :: fs))
  /-- `self->opened = 0` -/
  | ended {Y : Sys} {t : Tid} {s : Ref} {fs : List Frame} (h : Y.stack t = .ending s :: fs) :
      Step kind hash Y (t, .ended s) ((Y.kill s).goes t fs)
  | back {Y : Sys} {t : Tid} {x : Ref} {fs : List Frame} (h : Y.stack t = .leaf x :: fs) :
      Step kind hash Y (t, .back x) ((Y.kill x).goes t fs)
  /-- nobody refers to `x`, and its sets are given up with it -/
  | dealloc {Y : Sys} {t : Tid} (x : Ref) (hl : Y.live x = false) (hx : Y.listed x = false)
      (hf : ∀ u, ∀ f ∈ Y.stack u, f.self ≠ x) : Step kind hash Y (t, .dealloc x) { Y with
        gone := Function.update Y.gone x true
        listed := fun y => Y.listed y && decide (Y.owner y ≠ some x) }

def Busy (Y : Sys) (x : Ref) : Prop := ∃ t, ∃ f ∈ Y.stack t, f.closes = some x

/-- thread `t` begins to close `o`, at the depth `d` -/
def Enters (t : Tid) (o : Ref) (d : Nat) (a : Tid × Ev) : Prop := ∃ out, a = (t, .enters o out d)

/-- since thread `t` last began to close `o` at the depth `d`, it has left the loop for wrappers like `x`, and
only then did the call return that opened `x` -/
def Late (kind : Ref → Kind) (as : List (Tid × Ev)) (t : Tid) (o : Ref) (d : Nat) (x : Ref) : Prop :=
  ∃ cs v, After (Enters t o d) as cs ∧ [(t, .left o (kind x) d), (v, .opened o x true)].Sublist cs

/-- after the events `as` from `Z` on, `x` may be open and in no set -/
inductive Stray (kind : Ref → Kind) (Z : Sys) (as : List (Tid × Ev)) (x : Ref) : Prop
  | before (hk : kind x = .sftp ∨ kind x = .listener) (hl : Z.live x = true) (hx : Z.listed x = false)
  /-- a loop took the listener out, and there were other references to it -/
  | dropped (t : Tid) (hk : kind x = .listener) (h : (t, .dropped x) ∈ as)
  /-- `PySet_Add` found another sftp for `x` -/
  | missed (t : Tid) (o : Ref) (hk : kind x = .sftp) (h : (t, .opened o x false) ∈ as)
  /-- `PySet_Discard` found `x` for another sftp -/
  | taken (t : Tid) (y : Ref) (d : Nat) (hk : kind x = .sftp) (hy : x ≠ y) (h : (t, .enters y (some x) d) ∈ as)

variable {kind : Ref → Kind} {hash : Ref → Bool → BitVec 64} {Y Y' Z : Sys} {t u : Tid} {o q s x y : Ref} {k : Kind}
  {e : Ev} {f : Frame} {fs gs : List Frame} {todo : List Kind} {as : List (Tid × Ev)} {d : Nat} {out : Option Ref}

/-! ## what a step does -/

@[simp] theorem goes_stack_self (fs : List Frame) : (Y.goes t fs).stack t = fs := Function.update_self ..

theorem goes_stack_of_ne (fs : List Frame) (h : u ≠ t) : (Y.goes t fs).stack u = Y.stack u :=
  Function.update_of_ne h ..

@[simp] theorem takes_stack : (Y.takes out).stack = Y.stack := by
  cases out <;> rfl

@[simp] theorem takes_owner : (Y.takes out).owner = Y.owner := by
  cases out <;> rfl

@[simp] theorem takes_live : (Y.takes out).live = Y.live := by
  cases out <;> rfl

@[simp] theorem takes_gone : (Y.takes out).gone = Y.gone := by
  cases out <;> rfl

theorem takes_listed (out : Option Ref) (h : Y.listed x = true) : (Y.takes out).listed x = true ∨ out = some x := by
  cases out with
  | none => exact Or.inl h
  | some y =>
    by_cases hxy : x = y
    · exact Or.inr (hxy ▸ rfl)
    · exact Or.inl ((Function.update_of_ne hxy ..).trans h)

theorem listed_of_takes (out : Option Ref) (h : (Y.takes out).listed x = true) : Y.listed x = true := by
  cases out with
  | none => exact h
  | some y =>
    by_cases hxy : x = y
    · rw [hxy, show (Y.takes (some y)).listed y = false from Function.update_self ..] at h
      cases h
    · exact (Function.update_of_ne hxy ..).symm.trans h

theorem live_of_kill (h : (Y.kill y).live x = true) : Y.live x = true := by
  by_cases hxy : x = y
  · rw [hxy, show (Y.kill y).live y = false from Function.update_self ..] at h
    cases h
  · exact (Function.update_of_ne hxy ..).symm.trans h

theorem eq_of_kill (hl : Y.live x = true) (h : (Y.kill y).live x = false) : x = y := by
  by_contra hxy
  rw [show (Y.kill y).live x = Y.live x from Function.update_of_ne hxy .., hl] at h
  cases h

theorem suffix_goes : f :: fs <:+ (Y.goes t gs).stack u ↔
    (u = t ∧ f :: fs <:+ gs) ∨ (u ≠ t ∧ f :: fs <:+ Y.stack u) := by
  by_cases h : u = t
  · rw [h, goes_stack_self]
    exact ⟨fun h1 => Or.inl ⟨rfl, h1⟩, fun h1 => h1.elim And.right fun h2 => absurd rfl h2.1⟩
  · rw [goes_stack_of_ne _ h]
    exact ⟨fun h1 => Or.inr ⟨h, h1⟩, fun h1 => h1.elim (fun h2 => absurd h2.1 h) And.right⟩

theorem exists_below (h : f ∈ gs) : ∃ fs, f :: fs <:+ gs := by
  obtain ⟨bs, cs, rfl⟩ := List.append_of_mem h
  exact ⟨cs, List.suffix_append bs (f :: cs)⟩

theorem mem_of_suffix (h : f :: fs <:+ gs) : f ∈ gs := h.subset List.mem_cons_self

theorem mem_goes : f ∈ (Y.goes t gs).stack u ↔ (u = t ∧ f ∈ gs) ∨ (u ≠ t ∧ f ∈ Y.stack u) := by
  by_cases h : u = t
  · rw [h, goes_stack_self]
    exact ⟨fun h1 => Or.inl ⟨rfl, h1⟩, fun h1 => h1.elim And.right fun h2 => absurd rfl h2.1⟩
  · rw [goes_stack_of_ne _ h]
    exact ⟨fun h1 => Or.inr ⟨h, h1⟩, fun h1 => h1.elim (fun h2 => absurd h2.1 h) And.right⟩

theorem closing_cases (kind : Ref → Kind) (live : Ref → Bool) (x : Ref) :
    closing kind live x = [] ∨ (closing kind live x = [.leaf x] ∧ loopsOf (kind x) = []) ∨
      closing kind live x = [.loops x (loopsOf (kind x))] := by
  unfold closing
  cases kind x with
  | session =>
    by_cases h : live x = true
    · exact Or.inr (Or.inr (if_pos h))
    · exact Or.inl (if_neg h)
  | sftp =>
    by_cases h : live x = true
    · exact Or.inr (Or.inr (if_pos h))
    · exact Or.inl (if_neg h)
  | channel =>
    by_cases h : live x = true
    · exact Or.inr (Or.inl ⟨if_pos h, rfl⟩)
    · exact Or.inl (if_neg h)
  | file => exact Or.inr (Or.inl ⟨rfl, rfl⟩)
  | dir => exact Or.inr (Or.inl ⟨rfl, rfl⟩)
  | listener => exact Or.inr (Or.inl ⟨rfl, rfl⟩)

inductive Origin (kind : Ref → Kind) (Y : Sys) (t : Tid) (e : Ev) (u : Tid) (f : Frame) (fs : List Frame) : Prop
  | old (h : f :: fs <:+ Y.stack u)
  | opening (o : Ref) (hu : u = t) (hf : f = .opening o) (hg : Y.gone o = false)
  | leaf (x : Ref) (hf : f = .leaf x) (hk : loopsOf (kind x) = [])
      (hg : Y.gone x = false ∨ Y.listed x = true)
  | loops (x : Ref) (out : Option Ref) (hu : u = t) (hf : f = .loops x (loopsOf (kind x)))
      (he : e = .enters x out fs.length) (hg : Y.gone x = false ∨ Y.listed x = true)
  | left (o : Ref) (k : Kind) (todo : List Kind) (hu : u = t) (hf : f = .loops o todo)
      (he : e = .left o k fs.length) (h : Y.stack t = .loops o (k :: todo) :: fs)
  | ending (s : Ref) (k : Kind) (hf : f = .ending s) (hk : kind s = .session)
      (h : Y.stack t = .loops s [k] :: fs)

theorem origin_top {g : Frame} (h : Y.stack t = g :: gs) (hf : f :: fs <:+ (Y.goes t gs).stack u) :
    Origin kind Y t e u f fs := by
  rcases suffix_goes.mp hf with ⟨rfl, h1⟩ | ⟨_, h1⟩
  · exact .old (h ▸ h1.trans (List.suffix_cons g gs))
  · exact .old h1

theorem origin_enters (hZ : Z.stack = Y.stack) (hg : Y.gone x = false ∨ Y.listed x = true)
    (hf : f :: fs <:+ (Z.goes t (closing kind Y.live x ++ Y.stack t)).stack u) :
    Origin kind Y t (.enters x out (Y.stack t).length) u f fs := by
  rcases suffix_goes.mp hf with ⟨rfl, h1⟩ | ⟨_, h1⟩
  · rcases closing_cases kind Y.live x with h2 | ⟨h2, hk⟩ | h2
    · rw [h2, List.nil_append] at h1
      exact .old h1
    · rw [h2, List.singleton_append] at h1
      rcases List.suffix_cons_iff.mp h1 with h3 | h3
      · cases h3
        exact .leaf x rfl hk hg
      · exact .old h3
    · rw [h2, List.singleton_append] at h1
      rcases List.suffix_cons_iff.mp h1 with h3 | h3
      · cases h3
        exact .loops x out rfl rfl rfl hg
      · exact .old h3
  · rw [hZ] at h1
    exact .old h1

theorem origin (h : Step kind hash Y (t, e) Y') (hf : f :: fs <:+ Y'.stack u) : Origin kind Y t e u f fs := by
  cases h with
  | started s hk => exact .old hf
  | opens o hg hl =>
    rcases suffix_goes.mp hf with ⟨rfl, h1⟩ | ⟨_, h1⟩
    · rcases List.suffix_cons_iff.mp h1 with h2 | h2
      · cases h2
        exact .opening o rfl rfl hg
      · exact .old h2
    · exact .old h1
  | opened x b h hk hl hx hg hadd => exact origin_top h hf
  | failed h => exact origin_top h hf
  | enters x out hg hout => exact origin_enters takes_stack (Or.inl hg) hf
  | pops x h hl ho => exact origin_enters (Z := Y.unlist x) rfl (Or.inr hl) hf
  | dropped x h hk hl ho => exact .old hf
  | @left _ o k k' todo gs h hno =>
    rcases suffix_goes.mp hf with ⟨rfl, h1⟩ | ⟨_, h1⟩
    · rcases List.suffix_cons_iff.mp h1 with h2 | h2
      · cases h2
        exact .left o k (k' :: todo) rfl rfl rfl h
      · exact .old (h ▸ h2.trans (List.suffix_cons _ _))
    · exact .old h1
  | shut h hk hno => exact origin_top h hf
  | @disconnects _ s k gs h hk hno =>
    rcases suffix_goes.mp hf with ⟨rfl, h1⟩ | ⟨_, h1⟩
    · rcases List.suffix_cons_iff.mp h1 with h2 | h2
      · cases h2
        exact .ending s k rfl hk h
      · exact .old (h ▸ h2.trans (List.suffix_cons _ _))
    · exact .old h1
  | ended h => exact origin_top h hf
  | back h => exact origin_top h hf
  | dealloc x hl hx hfr => exact .old hf

theorem mem_top {g : Frame} (h : Y.stack t = g :: fs) (hf : f ∈ Y.stack u) :
    f ∈ (Y.goes t fs).stack u ∨ f = g := by
  by_cases hu : u = t
  · rw [hu, h] at hf
    rcases List.mem_cons.mp hf with h1 | h1
    · exact Or.inr h1
    · exact Or.inl (mem_goes.mpr (Or.inl ⟨hu, h1⟩))
  · exact Or.inl (mem_goes.mpr (Or.inr ⟨hu, hf⟩))

theorem mem_under (gs : List Frame) (hf : f ∈ Y.stack u) : f ∈ (Y.goes t (gs ++ Y.stack t)).stack u := by
  by_cases hu : u = t
  · rw [hu] at hf
    exact mem_goes.mpr (Or.inl ⟨hu, List.mem_append_right _ hf⟩)
  · exact mem_goes.mpr (Or.inr ⟨hu, hf⟩)

theorem mem_next {g g' : Frame} (h : Y.stack t = g :: fs) (hf : f ∈ Y.stack u) :
    f ∈ (Y.goes t (g' :: fs)).stack u ∨ (f = g ∧ g' ∈ (Y.goes t (g' :: fs)).stack t) := by
  rcases mem_top h hf with h1 | h1
  · apply Or.inl
    rcases mem_goes.mp h1 with ⟨hu, h2⟩ | h2
    · exact mem_goes.mpr (Or.inl ⟨hu, List.mem_cons_of_mem _ h2⟩)
    · exact mem_goes.mpr (Or.inr h2)
  · exact Or.inr ⟨h1, mem_goes.mpr (Or.inl ⟨rfl, List.mem_cons_self⟩)⟩

/-- a wrapper that is being closed still is, or it is closed now -/
theorem busy_step (h : Step kind hash Y (t, e) Y') (hb : Busy Y x) :
    Busy Y' x ∨ Y'.live x = false ∨ kind x = .session := by
  obtain ⟨u, f, hf, hc⟩ := hb
  cases h with
  | started s hk => exact Or.inl ⟨u, f, hf, hc⟩
  | opens o hg hl => exact Or.inl ⟨u, f, mem_under [.opening o] hf, hc⟩
  | opened x b h hk hl hx hg hadd =>
    rcases mem_top h hf with h1 | rfl
    · exact Or.inl ⟨u, f, h1, hc⟩
    · cases hc
  | failed h =>
    rcases mem_top h hf with h1 | rfl
    · exact Or.inl ⟨u, f, h1, hc⟩
    · cases hc
  | enters y out hg hout =>
    have h1 : f ∈ (Y.takes out).stack u := by rwa [takes_stack]
    have h2 := mem_under (t := t) (closing kind Y.live y) h1
    rw [takes_stack] at h2
    exact Or.inl ⟨u, f, h2, hc⟩
  | pops y h hl ho => exact Or.inl ⟨u, f, mem_under (Y := Y.unlist y) _ hf, hc⟩
  | dropped y h hk hl ho => exact Or.inl ⟨u, f, hf, hc⟩
  | left h hno =>
    rcases mem_next h hf with h1 | ⟨rfl, h1⟩
    · exact Or.inl ⟨u, f, h1, hc⟩
    · exact Or.inl ⟨t, _, h1, hc⟩
  | shut h hk hno =>
    rcases mem_top h hf with h1 | rfl
    · exact Or.inl ⟨u, f, h1, hc⟩
    · cases hc
      exact Or.inr (Or.inl (Function.update_self ..))
  | disconnects h hk hno =>
    rcases mem_next h hf with h1 | ⟨rfl, _⟩
    · exact Or.inl ⟨u, f, h1, hc⟩
    · cases hc
      exact Or.inr (Or.inr hk)
  | ended h =>
    rcases mem_top h hf with h1 | rfl
    · exact Or.inl ⟨u, f, h1, hc⟩
    · cases hc
  | back h =>
    rcases mem_top h hf with h1 | rfl
    · exact Or.inl ⟨u, f, h1, hc⟩
    · cases hc
      exact Or.inr (Or.inl (Function.update_self ..))
  | dealloc y hl hx hfr => exact Or.inl ⟨u, f, hf, hc⟩

theorem closing_live (kind : Ref → Kind) (hl : Y.live x = true) : ∃ f ∈ closing kind Y.live x, f.closes = some x := by
  unfold closing
  rw [if_pos hl, if_pos hl]
  cases kind x with
  | session => exact ⟨_, List.mem_cons_self, rfl⟩
  | sftp => exact ⟨_, List.mem_cons_self, rfl⟩
  | channel => exact ⟨_, List.mem_cons_self, rfl⟩
  | file => exact ⟨_, List.mem_cons_self, rfl⟩
  | dir => exact ⟨_, List.mem_cons_self, rfl⟩
  | listener => exact ⟨_, List.mem_cons_self, rfl⟩

theorem busy_closing (hl : Y.live x = true) : Busy (Z.goes t (closing kind Y.live x ++ fs)) x := by
  obtain ⟨f, hf, hc⟩ := closing_live kind hl
  exact ⟨t, f, mem_goes.mpr (Or.inl ⟨rfl, List.mem_append_left _ hf⟩), hc⟩

/-- how an open wrapper leaves its set -/
theorem listed_step (Z : Sys) (as : List (Tid × Ev)) (h : Step kind hash Y (t, e) Y') (hx : Y.listed x = true) (hl : Y.live x = true) :
    Y'.listed x = true ∨ Busy Y' x ∨ Stray kind Z (as ++ [(t, e)]) x ∨
      ∃ o, Y.owner x = some o ∧ Y'.gone o = true := by
  have hlast : ∀ {a : Tid × Ev}, a ∈ as ++ [a] := List.mem_append_right _ List.mem_cons_self
  cases h with
  | started s hk => exact Or.inl hx
  | opens o hg hl => exact Or.inl hx
  | opened y b h hk hlo hy hg hadd =>
    apply Or.inl
    show Function.update Y.listed y b x = true
    by_cases hxy : x = y
    · rw [hxy, hy.2] at hl
      cases hl
    · rw [Function.update_of_ne hxy, hx]
  | failed h => exact Or.inl hx
  | enters y out hg hout =>
    rcases takes_listed out hx with h1 | h1
    · exact Or.inl h1
    · by_cases hxy : x = y
      · rw [← hxy]
        exact Or.inr (Or.inl (busy_closing hl))
      · rcases hout x h1 with h2 | ⟨_, o, h2⟩
        · exact absurd h2 hxy
        · rw [h1]
          exact Or.inr (Or.inr (Or.inl (.taken t y _ h2.1 hxy hlast)))
  | pops y h hly ho =>
    rcases takes_listed (some y) hx with h1 | h1
    · exact Or.inl h1
    · cases h1
      exact Or.inr (Or.inl (busy_closing hl))
  | dropped y h hk hly ho =>
    rcases takes_listed (some y) hx with h1 | h1
    · exact Or.inl h1
    · cases h1
      exact Or.inr (Or.inr (Or.inl (.dropped t hk hlast)))
  | left h hno => exact Or.inl hx
  | shut h hk hno => exact Or.inl hx
  | disconnects h hk hno => exact Or.inl hx
  | ended h => exact Or.inl hx
  | back h => exact Or.inl hx
  | dealloc y hly hy hfr =>
    by_cases ho : Y.owner x = some y
    · exact Or.inr (Or.inr (Or.inr ⟨y, ho, Function.update_self ..⟩))
    · apply Or.inl
      show (Y.listed x && decide (Y.owner x ≠ some y)) = true
      rw [hx, decide_eq_true ho]
      rfl

structure Opened (kind : Ref → Kind) (Y Y' : Sys) (t : Tid) (e : Ev) (o x : Ref) (entered : Bool) : Prop where
  event : e = .opened o x entered
  frame : .opening o ∈ Y.stack t
  kinds : (kind x).parent = some (kind o)
  up : kind o = .sftp → Y'.live o = true
  new : Y.owner x = none ∧ Y.live x = false
  owner : Y'.owner x = some o
  listed : Y'.listed x = entered
  gone : Y.gone x = false
  missed : entered = false → kind x = .sftp

theorem opened_step (b : Bool) (h : Y.stack t = .opening o :: fs) (hk : (kind x).parent = some (kind o))
    (hl : kind o = .sftp → Y.live o = true) (hx : Y.owner x = none ∧ Y.live x = false) (hg : Y.gone x = false)
    (hadd : b = false → kind x = .sftp) :
    Opened kind Y ((Y.goes t fs).joins o x b) t (.opened o x b) o x b := by
  refine ⟨rfl, h ▸ List.mem_cons_self, hk, fun ho => ?_, hx, Function.update_self .., Function.update_self ..,
    hg, hadd⟩
  show Function.update Y.live x true o = true
  by_cases hox : o = x
  · rw [hox, Function.update_self]
  · rw [Function.update_of_ne hox, hl ho]

theorem owner_step (h : Step kind hash Y (t, e) Y') (x : Ref) :
    Y'.owner x = Y.owner x ∨ ∃ o b, Opened kind Y Y' t e o x b := by
  cases h with
  | @opened _ o fs y b h hk hl hy hg hadd =>
    by_cases hxy : x = y
    · subst hxy
      exact Or.inr ⟨o, b, opened_step b h hk hl hy hg fun hb => (hadd.mp hb).1⟩
    · exact Or.inl (Function.update_of_ne hxy ..)
  | enters y out hg hout => exact Or.inl (congrFun takes_owner x)
  | _ => exact Or.inl rfl

theorem live_step (h : Step kind hash Y (t, e) Y') (hx : Y'.live x = true) :
    Y.live x = true ∨ kind x = .session ∨ ∃ o b, Opened kind Y Y' t e o x b := by
  cases h with
  | started s hk =>
    by_cases hxs : x = s
    · exact Or.inr (Or.inl (hxs ▸ hk))
    · exact Or.inl ((Function.update_of_ne hxs ..).symm.trans hx)
  | @opened _ o fs y b h hk hl hy hg hadd =>
    by_cases hxy : x = y
    · subst hxy
      exact Or.inr (Or.inr ⟨o, b, opened_step b h hk hl hy hg fun hb => (hadd.mp hb).1⟩)
    · exact Or.inl ((Function.update_of_ne hxy ..).symm.trans hx)
  | enters y out hg hout => exact Or.inl ((congrFun takes_live x).symm.trans hx)
  | shut h hk hno => exact Or.inl (live_of_kill hx)
  | ended h => exact Or.inl (live_of_kill hx)
  | back h => exact Or.inl (live_of_kill hx)
  | _ => exact Or.inl hx

/-- where a wrapper is closed -/
theorem shut_step (h : Step kind hash Y (t, e) Y') (hx : Y.live x = true) (hx' : Y'.live x = false) :
    .leaf x ∈ Y.stack t ∨ .ending x ∈ Y.stack t ∨
      ∃ k fs, Y.stack t = .loops x [k] :: fs ∧ e = .last x fs.length ∧ Y.Empty kind x k ∧ Y' = (Y.kill x).goes t fs := by
  have hset : ∀ y, Function.update Y.live y true x = false → False := by
    intro y h1
    by_cases hxy : x = y
    · rw [hxy, Function.update_self] at h1
      cases h1
    · rw [Function.update_of_ne hxy, hx] at h1
      cases h1
  cases h with
  | started s hk => exact (hset s hx').elim
  | opened y b h hk hl hy hg hadd => exact (hset y hx').elim
  | enters y out hg hout =>
    have h1 : Y.live x = false := (congrFun takes_live x).symm.trans hx'
    rw [hx] at h1
    cases h1
  | @shut _ q k fs h hk hno =>
    cases eq_of_kill hx hx'
    exact Or.inr (Or.inr ⟨k, fs, h, rfl, hno, rfl⟩)
  | ended h =>
    cases eq_of_kill hx hx'
    exact Or.inr (Or.inl (h ▸ List.mem_cons_self))
  | back h =>
    cases eq_of_kill hx hx'
    exact Or.inl (h ▸ List.mem_cons_self)
  | _ =>
    rw [show Y.live x = false from hx'] at hx
    cases hx

theorem gone_step (h : Step kind hash Y (t, e) Y') (x : Ref) : Y'.gone x = Y.gone x ∨
    (Y'.gone x = true ∧ e = .dealloc x ∧ Y.listed x = false ∧ ∀ u, ∀ f ∈ Y.stack u, f.self ≠ x) := by
  cases h with
  | dealloc y hl hy hfr =>
    by_cases hxy : x = y
    · subst hxy
      exact Or.inr ⟨Function.update_self .., rfl, hy, hfr⟩
    · exact Or.inl (Function.update_of_ne hxy ..)
  | enters y out hg hout => exact Or.inl (congrFun takes_gone x)
  | _ => exact Or.inl rfl

theorem listed_new (h : Step kind hash Y (t, e) Y') (hx : Y'.listed x = true) :
    Y.listed x = true ∨ ∃ o, Opened kind Y Y' t e o x true := by
  cases h with
  | @opened _ o fs y b h hk hl hy hg hadd =>
    by_cases hxy : x = y
    · subst hxy
      have hb : Function.update Y.listed x b x = true := hx
      rw [Function.update_self] at hb
      subst hb
      exact Or.inr ⟨o, opened_step true h hk hl hy hg fun hb => (hadd.mp hb).1⟩
    · exact Or.inl ((Function.update_of_ne hxy ..).symm.trans hx)
  | enters y out hg hout => exact Or.inl (listed_of_takes out hx)
  | pops y h hl ho => exact Or.inl (listed_of_takes (some y) hx)
  | dropped y h hk hl ho => exact Or.inl (listed_of_takes (some y) hx)
  | dealloc y hl hy hfr => exact Or.inl (Bool.and_eq_true_iff.mp hx).1
  | _ => exact Or.inl hx

/-! ## the set has been empty -/

/-- no thread is in a call, an open file, directory or channel is in its set, and nothing is open below an sftp
that is not -/
structure Begins (kind : Ref → Kind) (Y : Sys) : Prop where
  stack : ∀ t, Y.stack t = []
  kinds : ∀ x o, Y.owner x = some o → (kind x).parent = some (kind o)
  members : ∀ x, Y.listed x = true → Y.gone x = false
  kept : ∀ x o, Y.owner x = some o → Y.live x = true → kind x ≠ .sftp → kind x ≠ .listener → Y.listed x = true
  shut : ∀ x q, kind q = .sftp → Y.live q = false → Y.owner x = some q → Y.live x = false

/-- what is in a set was entered there after any thread had last found the set empty -/
theorem listed_since (hr : Trans.Run (Step kind hash) Z as Y) (hl : Y.listed x = true)
    (ho : Y.owner x = some o) :
    Since (fun a => a.2 = .opened o x true) (fun a => ∃ d, a.2 = .left o (kind x) d) as := by
  refine Trans.Run.since (fun Y => Y.listed x = true ∧ Y.owner x = some o) (fun Y a Y' hs hn h => ?_)
    (fun Y a Y' hs ha h => ?_) hr ⟨hl, ho⟩
  · -- a wrapper is new
    obtain ⟨t, e⟩ := a
    by_cases hown : Y'.owner x = Y.owner x
    · rcases listed_new hs h.1 with h1 | ⟨o', h1⟩
      · exact absurd ⟨h1, hown ▸ h.2⟩ hn
      · cases h1.owner.symm.trans h.2
        exact h1.event
    · rcases owner_step hs x with h1 | ⟨o', b, h1⟩
      · exact absurd h1 hown
      · cases h1.owner.symm.trans h.2
        cases h1.listed.symm.trans h.1
        exact h1.event
  · obtain ⟨t, e⟩ := a
    obtain ⟨d, ha⟩ := ha
    cases hs with
    | left hst hno =>
      cases ha
      exact hno x h.1 h.2 rfl
    | _ => cases ha

/-! ## the invariant -/

/-- the wrappers and the calls that are under way, after the events `as` from `Z` on -/
structure Inv (kind : Ref → Kind) (Z : Sys) (as : List (Tid × Ev)) (Y : Sys) : Prop where
  kinds : ∀ x o, Y.owner x = some o → (kind x).parent = some (kind o)
  alive : ∀ t, ∀ f ∈ Y.stack t, Y.gone f.self = false
  members : ∀ x, Y.listed x = true → Y.gone x = false
  leaves : ∀ t x, .leaf x ∈ Y.stack t → loopsOf (kind x) = []
  endings : ∀ t s, .ending s ∈ Y.stack t → kind s = .session
  /-- the loops that are no longer to do were left since the call began -/
  loops : ∀ t o todo fs, .loops o todo :: fs <:+ Y.stack t → todo <:+ loopsOf (kind o) ∧
    ∃ cs, After (Enters t o fs.length) as cs ∧
      ∀ k ∈ loopsOf (kind o), k ∉ todo → (t, .left o k fs.length) ∈ cs
  /-- what is open is in its set, or somebody is closing it -/
  kept : ∀ x o, Y.owner x = some o → Y.live x = true → Y.gone o = false →
    Y.listed x = true ∨ Busy Y x ∨ Stray kind Z as x

theorem Begins.inv (h : Begins kind Y) : Inv kind Y [] Y := by
  have hout : ∀ t f, f ∉ Y.stack t := fun t f => by
    rw [h.stack t]
    exact List.not_mem_nil
  refine ⟨h.kinds, fun t f hf => absurd hf (hout t f), h.members, fun t x hf => absurd hf (hout t _),
    fun t s hf => absurd hf (hout t _), fun t o todo fs hf => absurd (mem_of_suffix hf) (hout t _),
    fun x o ho hl _ => ?_⟩
  cases hx : Y.listed x with
  | true => exact Or.inl rfl
  | false =>
    refine Or.inr (Or.inr (.before ?_ hl hx))
    by_contra hk
    obtain ⟨h1, h2⟩ := not_or.mp hk
    rw [h.kept x o ho hl h1 h2] at hx
    cases hx

theorem Stray.mono (h : Stray kind Z as x) (a : Tid × Ev) : Stray kind Z (as ++ [a]) x := by
  cases h with
  | before hk hl hx => exact .before hk hl hx
  | dropped t hk h => exact .dropped t hk (List.mem_append_left _ h)
  | missed t o hk h => exact .missed t o hk (List.mem_append_left _ h)
  | taken t y d hk hy h => exact .taken t y d hk hy (List.mem_append_left _ h)

theorem Inv.alive_step (h : Inv kind Z as Y) (hs : Step kind hash Y (t, e) Y') (hf : f ∈ Y'.stack u) :
    Y'.gone f.self = false := by
  obtain ⟨fs, hfs⟩ := exists_below hf
  have hmem : ∀ x, Y.gone x = false ∨ Y.listed x = true → Y.gone x = false := fun x hx =>
    hx.elim id (h.members x)
  have hold : Y.gone f.self = false := by
    cases origin hs hfs with
    | old h1 => exact h.alive u f (mem_of_suffix h1)
    | opening o hu hfo hg => rw [hfo]; exact hg
    | leaf x hfx hk hg => rw [hfx]; exact hmem x hg
    | loops x out hu hfx he hg => rw [hfx]; exact hmem x hg
    | left o k todo hu hfl he h1 =>
      rw [hfl]
      exact h.alive t (.loops o (k :: todo)) (h1 ▸ List.mem_cons_self)
    | ending s k hfe hk h1 =>
      rw [hfe]
      exact h.alive t (.loops s [k]) (h1 ▸ List.mem_cons_self)
  rcases gone_step hs f.self with h1 | ⟨_, rfl, _, h1⟩
  · rw [h1, hold]
  · -- nobody is in a call on what is deallocated
    cases hs
    exact absurd rfl (h1 u f hf)

theorem enters_length (h : Step kind hash Y (t, e) Y') (hd : d < (Y.stack u).length) :
    ¬ Enters u o d (t, e) := by
  intro hex
  obtain ⟨out, h1⟩ := hex
  cases h with
  | enters x out' hg hout =>
    cases h1
    exact absurd hd (Nat.lt_irrefl _)
  | pops x hst hl ho =>
    cases h1
    exact absurd hd (Nat.lt_irrefl _)
  | _ => cases h1

theorem Inv.loops_step (h : Inv kind Z as Y) (hs : Step kind hash Y (t, e) Y')
    (hf : .loops o todo :: fs <:+ Y'.stack u) : todo <:+ loopsOf (kind o) ∧
    ∃ cs, After (Enters u o fs.length) (as ++ [(t, e)]) cs ∧
      ∀ k ∈ loopsOf (kind o), k ∉ todo → (u, .left o k fs.length) ∈ cs := by
  cases origin hs hf with
  | old h1 =>
    obtain ⟨htodo, cs, h2, h3⟩ := h.loops u o todo fs h1
    refine ⟨htodo, cs ++ [(t, e)], h2.snoc (enters_length hs ?_),
      fun k hk hno => List.mem_append_left _ (h3 k hk hno)⟩
    exact h1.length_le
  | opening o hu hfo hg => cases hfo
  | leaf x hfx hk hg => cases hfx
  | loops x out hu hfx he hg =>
    cases hfx
    rw [hu, he]
    exact ⟨List.suffix_refl _, [], Trans.after_snoc ⟨out, rfl⟩, fun k hk hno => absurd hk hno⟩
  | left o k todo hu hfl he h1 =>
    cases hfl
    have h2 : .loops o (k :: todo) :: fs <:+ Y.stack u := by
      subst hu
      exact h1 ▸ List.suffix_refl _
    obtain ⟨htodo, cs, h3, h4⟩ := h.loops u o (k :: todo) fs h2
    refine ⟨(List.suffix_cons k todo).trans htodo, cs ++ [(t, e)], h3.snoc (enters_length hs h2.length_le),
      fun k' hk' hno => ?_⟩
    by_cases hkk : k' = k
    · rw [hkk, hu, he]
      exact List.mem_append_right _ List.mem_cons_self
    · refine List.mem_append_left _ (h4 k' hk' fun h5 => ?_)
      rcases List.mem_cons.mp h5 with h6 | h6
      · exact hkk h6
      · exact hno h6
  | ending s k hfe hk h1 => cases hfe

theorem Inv.live_old (h : Inv kind Z as Y) (hs : Step kind hash Y (t, e) Y') (ho : Y.owner x = some o)
    (hl : Y'.live x = true) : Y.live x = true ∧ kind x ≠ .session := by
  have hses : kind x ≠ .session := by
    intro h1
    have h2 := h.kinds x o ho
    rw [h1] at h2
    cases h2
  refine ⟨?_, hses⟩
  rcases live_step hs hl with h1 | h1 | ⟨o', b, h1⟩
  · exact h1
  · exact absurd h1 hses
  · rw [h1.new.1] at ho
    cases ho

theorem Inv.busy_step (h : Inv kind Z as Y) (hs : Step kind hash Y (t, e) Y') (ho : Y.owner x = some o)
    (hl : Y'.live x = true) (hb : Busy Y x) : Busy Y' x := by
  rcases Leftover.busy_step hs hb with h1 | h1 | h1
  · exact h1
  · rw [hl] at h1
    cases h1
  · exact absurd h1 (h.live_old hs ho hl).2

theorem Inv.kept_step (h : Inv kind Z as Y) (hs : Step kind hash Y (t, e) Y') (ho : Y'.owner x = some o)
    (hl : Y'.live x = true) (hg : Y'.gone o = false) :
    Y'.listed x = true ∨ Busy Y' x ∨ Stray kind Z (as ++ [(t, e)]) x := by
  rcases owner_step hs x with h1 | ⟨o', b, h1⟩
  · rw [h1] at ho
    obtain ⟨hlive, _⟩ := h.live_old hs ho hl
    have hgo : Y.gone o = false := by
      rcases gone_step hs o with h3 | h3
      · exact h3 ▸ hg
      · rw [h3.1] at hg
        cases hg
    rcases h.kept x o ho hlive hgo with h3 | h3 | h3
    · rcases listed_step Z as hs h3 hlive with h4 | h4 | h4 | ⟨o', h4, h5⟩
      · exact Or.inl h4
      · exact Or.inr (Or.inl h4)
      · exact Or.inr (Or.inr h4)
      · cases ho.symm.trans h4
        rw [h5] at hg
        cases hg
    · exact Or.inr (Or.inl (h.busy_step hs ho hl h3))
    · exact Or.inr (Or.inr (h3.mono _))
  · cases b with
    | true => exact Or.inl h1.listed
    | false =>
      have h2 := h1.event
      rw [h2]
      exact Or.inr (Or.inr (.missed t o' (h1.missed rfl) (List.mem_append_right _ List.mem_cons_self)))

theorem inv_step (h : Inv kind Z as Y) (hs : Step kind hash Y (t, e) Y') : Inv kind Z (as ++ [(t, e)]) Y' := by
  refine ⟨fun x o ho => ?_, fun u f hf => h.alive_step hs hf, fun x hx => ?_, fun u x hf => ?_,
    fun u s hf => ?_, fun u o todo fs hf => h.loops_step hs hf, fun x o ho hl hg => h.kept_step hs ho hl hg⟩
  · rcases owner_step hs x with h1 | ⟨o', b, h1⟩
    · exact h.kinds x o (h1 ▸ ho)
    · cases h1.owner.symm.trans ho
      exact h1.kinds
  · rcases gone_step hs x with h1 | ⟨_, rfl, h2, _⟩
    · rw [h1]
      rcases listed_new hs hx with h2 | ⟨o, h2⟩
      · exact h.members x h2
      · exact h2.gone
    · rcases listed_new hs hx with h3 | ⟨o, h3⟩
      · rw [h2] at h3
        cases h3
      · cases h3.event
  · obtain ⟨fs, hfs⟩ := exists_below hf
    cases origin hs hfs with
    | old h1 => exact h.leaves u x (mem_of_suffix h1)
    | leaf y hfy hk hg =>
      cases hfy
      exact hk
    | opening o hu hfo hg => cases hfo
    | loops y out hu hfy he hg => cases hfy
    | left o k todo hu hfl he h1 => cases hfl
    | ending s k hfe hk h1 => cases hfe
  · obtain ⟨fs, hfs⟩ := exists_below hf
    cases origin hs hfs with
    | old h1 => exact h.endings u s (mem_of_suffix h1)
    | ending s' k hfe hk h1 =>
      cases hfe
      exact hk
    | opening o hu hfo hg => cases hfo
    | leaf y hfy hk hg => cases hfy
    | loops y out hu hfy he hg => cases hfy
    | left o k todo hu hfl he h1 => cases hfl

theorem inv_run (h0 : Begins kind Z) (hr : Trans.Run (Step kind hash) Z as Y) : Inv kind Z as Y :=
  hr.inv_trace (Inv kind Z) h0.inv fun _ _ _ _ h hs => inv_step h hs

/-! ## what is left when the loops are through -/

theorem mem_loopsOf {k j : Kind} (h : k.parent = some j) : k ∈ loopsOf j := by
  cases k <;> cases h <;> decide

/-- a call that has one loop left to do, and its set is empty -/
theorem left_over (h0 : Begins kind Z) (hr : Trans.Run (Step kind hash) Z as Y)
    (hst : Y.stack t = .loops o [k] :: fs) (hno : Y.Empty kind o k) (ho : Y.owner x = some o)
    (hl : Y.live x = true) : Busy Y x ∨ (Y.listed x = false ∧ Stray kind Z as x) ∨
      (Y.listed x = true ∧ Late kind as t o fs.length x) := by
  have h := inv_run h0 hr
  cases hx : Y.listed x with
  | true =>
    obtain ⟨_, cs, hcs, h1⟩ := h.loops t o [k] fs (hst ▸ List.suffix_refl _)
    have hk : kind x ∉ [k] := fun h2 => hno x hx ho (List.mem_singleton.mp h2)
    obtain ⟨⟨v, e⟩, hv, h2⟩ := (listed_since hr hx ho).after hcs
      (h1 (kind x) (mem_loopsOf (h.kinds x o ho)) hk) ⟨fs.length, rfl⟩
    cases hv
    exact Or.inr (Or.inr ⟨rfl, cs, v, hcs, h2⟩)
  | false =>
    rcases h.kept x o ho hl (h.alive t (.loops o [k]) (hst ▸ List.mem_cons_self)) with h1 | h1 | h1
    · rw [hx] at h1
      cases h1
    · exact Or.inl h1
    · exact Or.inr (Or.inl ⟨rfl, h1⟩)

theorem last_leaves_of (h0 : Begins kind Z) (hr : Trans.Run (Step kind hash) Z as Y)
    (hs : Step kind hash Y (t, .last o d) Y') (ho : Y.owner x = some o) (hl : Y.live x = true) :
    Busy Y x ∨ (Y.listed x = false ∧ Stray kind Z as x) ∨ (Y.listed x = true ∧ Late kind as t o d x) := by
  cases hs with
  | shut h hk hno => exact left_over h0 hr h hno ho hl
  | disconnects h hk hno => exact left_over h0 hr h hno ho hl

/-! ## sftps that were shut down -/

/-- a thread shut the sftp `q` down among the events `as`, and `x` is a directory that came late -/
def Behind (kind : Ref → Kind) (as : List (Tid × Ev)) (q x : Ref) : Prop :=
  kind x = .dir ∧ ∃ bs t d, bs ++ [(t, .last q d)] <+: as ∧ Late kind bs t q d x

theorem Behind.mono (h : Behind kind as q x) (a : Tid × Ev) : Behind kind (as ++ [a]) q x := by
  obtain ⟨hk, bs, t, d, h1, h2⟩ := h
  exact ⟨hk, bs, t, d, h1.trans (List.prefix_append _ _), h2⟩

theorem shut_leaves (h0 : Begins kind Z) (hr : Trans.Run (Step kind hash) Z as Y)
    (hs : Step kind hash Y (t, e) Y') (hk : kind q = .sftp) (hq : Y.live q = true) (hq' : Y'.live q = false)
    (ho : Y.owner x = some q) (hl : Y.live x = true) :
    Busy Y x ∨ Behind kind (as ++ [(t, e)]) q x := by
  have h := inv_run h0 hr
  rcases shut_step hs hq hq' with h1 | h1 | ⟨k, fs, hst, rfl, hno, rfl⟩
  · have h2 := h.leaves t q h1
    rw [hk] at h2
    cases h2
  · have h2 := h.endings t q h1
    rw [hk] at h2
    cases h2
  · have hkx := h.kinds x q ho
    rw [hk] at hkx
    rcases left_over h0 hr hst hno ho hl with h1 | ⟨_, h1⟩ | ⟨hx, h1⟩
    · exact Or.inl h1
    · have h2 : kind x = .sftp ∨ kind x = .listener := by
        cases h1 with
        | before hk' _ _ => exact hk'
        | dropped _ hk' _ => exact Or.inr hk'
        | missed _ _ hk' _ => exact Or.inl hk'
        | taken _ _ _ hk' _ _ => exact Or.inl hk'
      rcases h2 with h3 | h3 <;> rw [h3] at hkx <;> cases hkx
    · refine Or.inr ⟨?_, as, t, fs.length, List.prefix_refl _, h1⟩
      -- the loop over files is the last one
      have hlast : k = .file := by
        have h2 := (h.loops t q [k] fs (hst ▸ List.suffix_refl _)).1
        rw [hk] at h2
        rcases List.suffix_cons_iff.mp h2 with h3 | h3
        · cases h3
        · rcases List.suffix_cons_iff.mp h3 with h4 | h4
          · cases h4
            rfl
          · exact absurd h4.length_le (Nat.not_succ_le_zero _)
      have hfile : kind x ≠ .file := fun h2 => hno x hx ho (h2.trans hlast.symm)
      cases hkind : kind x <;> rw [hkind] at hkx hfile <;> first | rfl | exact absurd rfl hfile | cases hkx

theorem outlives_of (h0 : Begins kind Z) (hr : Trans.Run (Step kind hash) Z as Y) (hk : kind q = .sftp)
    (hq : Y.live q = false) (ho : Y.owner x = some q) (hl : Y.live x = true) :
    Busy Y x ∨ Behind kind as q x := by
  induction hr with
  | nil =>
    rw [h0.shut x q hk hq ho] at hl
    cases hl
  | @snoc as a Y Y' hr hs ih =>
    obtain ⟨t, e⟩ := a
    have h := inv_run h0 hr
    rcases owner_step hs x with h1 | ⟨o, b, h1⟩
    · rw [h1] at ho
      obtain ⟨hlive, _⟩ := h.live_old hs ho hl
      have hbefore : Busy Y x ∨ Behind kind (as ++ [(t, e)]) q x := by
        cases hqY : Y.live q with
        | false => exact (ih hqY ho hlive).imp id fun h2 => h2.mono _
        | true => exact shut_leaves h0 hr hs hk hqY hq ho hlive
      exact hbefore.imp (h.busy_step hs ho hl) id
    · -- nothing is opened through an sftp that is not up
      cases h1.owner.symm.trans ho
      rw [h1.up hk] at hq
      cases hq

end PyLibssh2.Leftover

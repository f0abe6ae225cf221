import PyLibssh2.Threads.Closing

/-!
# What closing a session leaves when other threads go on

* `sysOf`             the sets and the wrappers that a program has, with no thread in a call;
* `last_leaves`       what is still open when the session is disconnected or the sftp shut down;
* `outlives`          what is open although the sftp through which it was opened is not;
* `dir_left_behind`   a directory of an sftp that was shut down, which nobody is going to close.
-/

set_option linter.unusedSectionVars false
set_option linter.unusedVariables false

namespace PyLibssh2.Leftover

open World
open Threads (Tid)

variable {kind : Ref → Kind} {hash : Ref → Bool → BitVec 64} {W : World} {Y Y' Y'' Z : Sys} {t u : Tid}
  {o q s x y : Ref} {k : Kind} {c d : Obj} {n : Nat} {fs : List Frame} {todo : List Kind} {es : List (Tid × Ev)}
  {as : List Act} {g : Ghost} {E : Prop}

/-! ## a program before its threads -/

/-- through which wrapper it was opened, if that is still there; a channel that is in no set has none -/
def ownerOf (W : World) (x : Ref) : Option Ref :=
  (W.heap x).bind fun c => (W.heap c.parent).bind fun d =>
    if c.kind.parent = some d.kind ∧ (c.kind = .channel → x ∈ W.members c.parent c.kind) then some c.parent
    else none

def listedOf (W : World) (x : Ref) : Bool := (W.heap x).any fun c => decide (x ∈ W.members c.parent c.kind)

def isLive (c : Obj) : Bool := if c.kind = .session then c.opened else c.ptr.isSome

def liveOf (W : World) (x : Ref) : Bool := ((W.heap x).map isLive).getD false

def sysOf (W : World) : Sys where
  owner := ownerOf W
  listed := listedOf W
  live := liveOf W
  gone := fun x => decide (x < W.fresh) && (W.heap x).isNone
  stack := fun _ => []

/-- `kind` gives the types of the wrappers -/
def Sorts (kind : Ref → Kind) (W : World) : Prop := ∀ x c, W.heap x = some c → kind x = c.kind

theorem ownerOf_some (h : ownerOf W x = some o) : ∃ c d, W.heap x = some c ∧ W.heap o = some d ∧ c.parent = o ∧
    c.kind.parent = some d.kind ∧ (c.kind = .channel → x ∈ W.members o c.kind) := by
  obtain ⟨c, hc, h1⟩ := Option.bind_eq_some_iff.mp h
  obtain ⟨d, hd, h2⟩ := Option.bind_eq_some_iff.mp h1
  split at h2
  · rename_i hif
    cases h2
    exact ⟨c, d, hc, hd, rfl, hif⟩
  · cases h2

theorem listedOf_iff : listedOf W x = true ↔ ∃ c, W.heap x = some c ∧ x ∈ W.members c.parent c.kind := by
  unfold listedOf
  rw [Option.any_eq_true]
  refine exists_congr fun c => and_congr Iff.rfl ?_
  exact decide_eq_true_iff

theorem liveOf_of_heap (h : W.heap x = some c) : liveOf W x = isLive c := by
  unfold liveOf
  rw [h]
  rfl

/-- what is open, and neither an sftp nor a listener, is in its set -/
theorem listedOf_open (hb : Books E g [] [] [] W) (ho : ownerOf W x = some o) (hx : W.heap x = some c)
    (hl : liveOf W x = true) (hs : c.kind ≠ .sftp) (hli : c.kind ≠ .listener) : x ∈ W.members o c.kind := by
  obtain ⟨c', d, hc, hd, rfl, hk, hm⟩ := ownerOf_some ho
  cases hx.symm.trans hc
  have hhome : c.kind.Handle → x ∈ W.members c.parent c.kind := by
    intro hh
    rw [liveOf_of_heap hx, isLive, if_neg (by rcases hh with h1 | h1 <;> rw [h1] <;> decide)] at hl
    obtain ⟨p, hp⟩ := Option.isSome_iff_exists.mp hl
    exact hb.home x c p ⟨hx, hp⟩ hh List.not_mem_nil
  cases hck : c.kind with
  | session =>
    rw [hck] at hk
    cases hk
  | sftp => exact absurd hck hs
  | listener => exact absurd hck hli
  | channel => exact hck ▸ hm hck
  | file => exact hck ▸ hhome (Or.inl hck)
  | dir => exact hck ▸ hhome (Or.inr hck)

theorem liveOf_below (hb : Books E g [] [] [] W) (hk : Sorts kind W) (hq : kind q = .sftp)
    (hl : liveOf W q = false) (ho : ownerOf W x = some q) : liveOf W x = false := by
  obtain ⟨c, d, hc, hd, _, hcd, _⟩ := ownerOf_some ho
  have hdk : d.kind = .sftp := (hk q d hd).symm.trans hq
  have hdp : d.ptr = none := by
    rw [liveOf_of_heap hd, isLive, hdk, if_neg (by decide)] at hl
    exact Option.isNone_iff_eq_none.mp (by rw [← Option.not_isSome, hl]; rfl)
  by_contra h1
  rw [hdk] at hcd
  have hx := listedOf_open hb ho hc (Bool.not_eq_false _ ▸ h1)
    (fun h2 => by rw [h2] at hcd; cases hcd) fun h2 => by rw [h2] at hcd; cases hcd
  have h2 := hb.shut q d hd hdk hdp c.kind
  unfold World.members at hx
  rw [h2] at hx
  exact absurd hx List.not_mem_nil

theorem begins (hb : Books E g [] [] [] W) (hk : Sorts kind W) : Begins kind (sysOf W) := by
  refine ⟨fun _ => rfl, fun x o ho => ?_, fun x hx => ?_, fun x o ho hl hs hli => ?_,
    fun x q hq hl ho => liveOf_below hb hk hq hl ho⟩
  · obtain ⟨c, d, hc, hd, _, h1, _⟩ := ownerOf_some ho
    rw [hk x c hc, hk o d hd]
    exact h1
  · obtain ⟨c, hc, _⟩ := listedOf_iff.mp hx
    show (decide (x < W.fresh) && (W.heap x).isNone) = false
    rw [hc]
    exact Bool.and_false _
  · obtain ⟨c, d, hc, _, rfl, _⟩ := ownerOf_some ho
    rw [hk x c hc] at hs hli
    exact listedOf_iff.mpr ⟨c, hc, listedOf_open hb ho hc hl hs hli⟩

/-! ## what is left -/

/-- **What is left when a session is disconnected or an sftp shut down.**  After any program, threads open wrappers
and close sessions, sftps and wrappers in any interleaving.  When a call that closes `o` leaves its last loop,
a wrapper that was opened through `o` and is still open is being closed by some thread; or it is in no set, being
an sftp that the set did not keep or a listener that a loop let go; or it is in the set, and the call that
opened it returned when this closing call had left the loop for its type. -/
theorem last_leaves (hr : Trans.Run PyLibssh2.Step World.empty as W) (hk : Sorts kind W)
    (h : Trans.Run (Step kind hash) (sysOf W) es Y) (hs : Step kind hash Y (t, .last o n) Y')
    (ho : Y.owner x = some o) (hl : Y.live x = true) :
    Busy Y x ∨ (Y.listed x = false ∧ Stray kind (sysOf W) es x) ∨
      (Y.listed x = true ∧ Late kind es t o n x) := by
  obtain ⟨g, _, hb⟩ := books_run (E := False) books_empty hr fun h1 => h1.elim
  exact last_leaves_of (begins hb hk) h hs ho hl

/-- **What outlives its sftp.**  In any interleaving, a file or a directory that is open although the sftp through
which it was opened is not is being closed by some thread; or it is a directory, and the call that opened it
returned when the call that shut the sftp down had left the loop over directories. -/
theorem outlives (hr : Trans.Run PyLibssh2.Step World.empty as W) (hk : Sorts kind W)
    (h : Trans.Run (Step kind hash) (sysOf W) es Y) (hq : kind q = .sftp) (hd : Y.live q = false)
    (ho : Y.owner x = some q) (hl : Y.live x = true) : Busy Y x ∨ Behind kind es q x := by
  obtain ⟨g, _, hb⟩ := books_run (E := False) books_empty hr fun h1 => h1.elim
  exact outlives_of (begins hb hk) h hq hd ho hl

/-! ### a directory that comes late -/

def lateKind (x : Ref) : Kind :=
  if x = 1 then .session else if x = 3 then .sftp else if x = 5 then .file else .dir

theorem sorts_withFile : Sorts lateKind withFile := by
  obtain ⟨as, hr⟩ := withFile_proper
  obtain ⟨g, _, hb⟩ := books_run (E := False) books_empty (hr.mono fun _ _ _ h => h.2) fun h => h.elim
  intro x c hc
  have hlt : x < 6 := hb.lt_fresh (x := x) (by rw [hc]; exact Option.some_ne_none c)
  have h1 : ∀ n : Nat, n < 6 → n = 0 ∨ n = 1 ∨ n = 2 ∨ n = 3 ∨ n = 4 ∨ n = 5 := by omega
  rcases h1 x hlt with rfl | rfl | rfl | rfl | rfl | rfl
  · cases hc
  · cases hc
    rfl
  · cases hc
  · cases hc
    rfl
  · cases hc
  · cases hc
    rfl

def lateHash (x : Ref) (_ : Bool) : BitVec 64 := x

/-- thread `1` opens a directory while thread `2` shuts the sftp down and closes a file, and gets it before the
last loop is left -/
theorem late_run : ∃ es Y, Trans.Run (Step lateKind lateHash) (sysOf withFile) es Y ∧
    Step lateKind lateHash Y (2, .last 3 0) ((Y.kill 3).goes 2 []) ∧
    (∀ u, u ≠ 2 → Y.stack u = []) ∧ Y.stack 2 = [.loops 3 [.file]] ∧ Y.owner 9 = some 3 ∧
    Y.listed 9 = true ∧ Y.live 9 = true := by
  have hdirs : ∀ x, (sysOf withFile).listed x = true → (sysOf withFile).owner x = some 3 →
      lateKind x ≠ .dir := by
    intro x hl ho hx
    obtain ⟨c, hc, hm⟩ := listedOf_iff.mp hl
    obtain ⟨c', _, hc', _, hp, _⟩ := ownerOf_some ho
    cases hc.symm.trans hc'
    rw [hp, ← sorts_withFile x c hc, hx] at hm
    exact absurd hm List.not_mem_nil
  have hfiles : ∀ x, lateKind x = .file → x = 5 := by
    intro x hx
    unfold lateKind at hx
    by_contra h5
    rw [if_neg h5] at hx
    by_cases h1 : x = 1
    · rw [if_pos h1] at hx
      cases hx
    · by_cases h3 : x = 3
      · rw [if_neg h1, if_pos h3] at hx
        cases hx
      · rw [if_neg h1, if_neg h3] at hx
        cases hx
  let Y0 := sysOf withFile
  let Y1 := Y0.goes 1 [.opening 3]
  let Y2 := Y1.goes 2 [.loops 3 [.dir, .file]]
  let Y3 := Y2.goes 2 [.loops 3 [.file]]
  let Y4 := (Y3.unlist 5).goes 2 [.leaf 5, .loops 3 [.file]]
  let Y5 := (Y4.goes 1 []).joins 3 9 true
  let Y6 := (Y5.kill 5).goes 2 [.loops 3 [.file]]
  have h1 : Step lateKind lateHash Y0 (1, .opens 3) Y1 := .opens 3 rfl fun _ => rfl
  have h2 : Step lateKind lateHash Y1 (2, .enters 3 none 0) Y2 := .enters 3 none rfl fun y hy => by cases hy
  have h3 : Step lateKind lateHash Y2 (2, .left 3 .dir 0) Y3 :=
    @Step.left lateKind lateHash Y2 2 3 .dir .file [] [] rfl hdirs
  have h4 : Step lateKind lateHash Y3 (2, .enters 5 (some 5) 1) Y4 := .pops 5 rfl rfl rfl
  have hadd : true = false ↔ lateKind 9 = .sftp ∧ ∃ y, Found lateKind lateHash Y4 3 (lateHash 9 true) y :=
    ⟨fun h => (by cases h), fun h => (by cases h.1)⟩
  have h5 : Step lateKind lateHash Y4 (1, .opened 3 9 true) Y5 :=
    .opened 9 true rfl rfl (fun _ => rfl) ⟨rfl, rfl⟩ rfl hadd
  have h6 : Step lateKind lateHash Y5 (2, .back 5) Y6 := .back rfl
  have hno : Y6.Empty lateKind 3 .file := by
    intro x hl _ hx
    rw [hfiles x hx] at hl
    cases hl
  have h7 : Step lateKind lateHash Y6 (2, .last 3 0) ((Y6.kill 3).goes 2 []) :=
    @Step.shut lateKind lateHash Y6 2 3 .file [] rfl rfl hno
  refine ⟨_, Y6, (((((Trans.Run.nil.snoc h1).snoc h2).snoc h3).snoc h4).snoc h5).snoc h6, h7, fun u hu => ?_,
    rfl, rfl, rfl, rfl⟩
  by_cases h : u = 1
  · rw [h]
    rfl
  · calc Y6.stack u = Y5.stack u := goes_stack_of_ne _ hu
      _ = Y4.stack u := goes_stack_of_ne _ h
      _ = Y3.stack u := goes_stack_of_ne _ hu
      _ = Y2.stack u := goes_stack_of_ne _ hu
      _ = Y1.stack u := goes_stack_of_ne _ hu
      _ = [] := goes_stack_of_ne _ h

theorem last_leaves_withFile : ∃ es Y, Trans.Run (Step lateKind lateHash) (sysOf withFile) es Y ∧
    ¬ Busy Y 9 ∧ Late lateKind es 2 3 0 9 := by
  obtain ⟨as, hr⟩ := withFile_proper
  obtain ⟨es, Y, h, hs, hu, h2, ho, hli, hl⟩ := late_run
  have hb : ¬ Busy Y 9 := by
    intro hbusy
    obtain ⟨t, f, hf, hc⟩ := hbusy
    by_cases ht : t = 2
    · rw [ht, h2] at hf
      rw [List.mem_singleton.mp hf] at hc
      cases hc
    · rw [hu t ht] at hf
      exact absurd hf List.not_mem_nil
  refine ⟨es, Y, h, hb, ?_⟩
  rcases last_leaves (hr.mono fun _ _ _ h => h.2) sorts_withFile h hs ho hl with h1 | h1 | h1
  · exact absurd h1 hb
  · rw [hli] at h1
    cases h1.1
  · exact h1.2

/-- the sftp is shut down, nobody is in a call, and the directory is open -/
theorem dir_left_behind : ∃ es Y, Trans.Run (Step lateKind lateHash) (sysOf withFile) es Y ∧ Y.live 3 = false ∧
    (∀ u, Y.stack u = []) ∧ Y.owner 9 = some 3 ∧ Y.live 9 = true := by
  obtain ⟨es, Y, h, hs, hu, _, ho, _, hl⟩ := late_run
  refine ⟨_, _, h.snoc hs, ?_, fun u => ?_, ho, ?_⟩
  · show Function.update Y.live 3 false 3 = false
    exact Function.update_self ..
  · by_cases h2 : u = 2
    · rw [h2]
      exact goes_stack_self _
    · exact (goes_stack_of_ne _ h2).trans (hu u h2)
  · show Function.update Y.live 3 false 9 = true
    rw [Function.update_of_ne (by decide), hl]

theorem outlives_withFile : ∃ es Y, Trans.Run (Step lateKind lateHash) (sysOf withFile) es Y ∧ ¬ Busy Y 9 ∧
    Behind lateKind es 3 9 := by
  obtain ⟨as, hr⟩ := withFile_proper
  obtain ⟨es, Y, h, hd, hst, ho, hl⟩ := dir_left_behind
  have hb : ¬ Busy Y 9 := by
    intro hbusy
    obtain ⟨t, f, hf, _⟩ := hbusy
    rw [hst t] at hf
    exact absurd hf List.not_mem_nil
  exact ⟨es, Y, h, hb,
    (outlives (hr.mono fun _ _ _ h => h.2) sorts_withFile h rfl hd ho hl).resolve_left hb⟩

end PyLibssh2.Leftover

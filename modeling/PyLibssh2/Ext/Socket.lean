import Mathlib.Data.Nat.Count
import PyLibssh2.Ext.Accounts
import PyLibssh2.Ext.Own

/-!
# The references the module holds

Besides the references of its sets the module has one to the socket of every session, in the field `socket`.
`Desk` adds these fields to the wrappers, `Desk.startup` and `Desk.sessionDealloc` are the two functions that
use them.

`Accounted D` says that every count is right: a wrapper has the references of Python code and one for every
set that it is in, a socket one for every session it is the socket of.  `startup` on a session that has a
socket loses the old one, and `scp_recv` makes a channel with one reference too many; `accounted_run` says
that nothing else goes wrong.
-/

set_option linter.unusedSectionVars false
set_option linter.unusedVariables false

namespace PyLibssh2

open World

/-! ## counting below a bound -/

section Count
variable {p q : Nat → Prop} [DecidablePred p] [DecidablePred q] {a m n : Nat}

theorem count_bound (hm : ∀ x, p x → x < m) (hn : ∀ x, p x → x < n) : Nat.count p m = Nat.count p n := by
  have hup : ∀ m n, m ≤ n → (∀ x, p x → x < m) → Nat.count p n = Nat.count p m := by
    intro m n h hm
    induction n, h using Nat.le_induction with
    | base => rfl
    | succ n hn ih =>
      have h1 : ¬ p n := fun h2 => absurd (hm n h2) (Nat.not_lt.mpr hn)
      rw [Nat.count_succ, if_neg h1, ih, Nat.add_zero]
  rcases Nat.le_total m n with h | h
  · exact (hup m n h hm).symm
  · exact hup n m h hn

theorem count_congr (h : ∀ y, y < n → (p y ↔ q y)) : Nat.count p n = Nat.count q n :=
  le_antisymm (Nat.count_mono_left fun y hy => (h y hy).mp) (Nat.count_mono_left fun y hy => (h y hy).mpr)

theorem count_change (h : ∀ y, y ≠ a → (p y ↔ q y)) (ha : a < n) :
    Nat.count p n + (if q a then 1 else 0) = Nat.count q n + if p a then 1 else 0 := by
  induction n with
  | zero => exact absurd ha (Nat.not_lt_zero a)
  | succ n ih =>
    rw [Nat.count_succ, Nat.count_succ]
    by_cases han : a = n
    · subst han
      have h1 : Nat.count p a = Nat.count q a := count_congr fun y hy => h y hy.ne
      omega
    · have h1 := ih (by omega)
      have h2 : (if p n then 1 else 0) = if q n then 1 else 0 := if_congr (h n (Ne.symm han)) rfl rfl
      omega

theorem count_one (h : ∀ y, y ≠ a → ¬ p y) (ha : a < n) : Nat.count p n = if p a then 1 else 0 := by
  have h1 := count_change (p := p) (q := fun _ => False) (fun y hy => iff_false_intro (h y hy)) ha
  rw [Nat.count_false, if_neg not_false] at h1
  omega

end Count

/-! ## sockets -/

/-- a Python object that is used as a socket -/
abbrev Sock := Nat

/-- the wrappers, the field `socket` of every session, and the references the module has to every socket -/
structure Desk where
  world : World
  socket : Ref → Option Sock
  refs : Sock → Nat

def Desk.empty : Desk := ⟨World.empty, fun _ => none, fun _ => 0⟩

/-- `PYLIBSSH2_Session_startup`: the field is overwritten before the startup is tried -/
def Desk.startup (self : Ref) (socket : Sock) (rc : Int) (D : Desk) : Desk where
  world := (Session.startup self rc D.world).1
  socket := Function.update D.socket self (some socket)
  refs := Function.update D.refs socket (D.refs socket + 1)

/-- what `PYLIBSSH2_Session_dealloc` does with the socket -/
def Desk.sessionDealloc (self : Ref) (D : Desk) : Desk :=
  match (D.world.heap self).bind Obj.ptr, D.socket self with
  | some _, some socket =>
    { D with
      socket := Function.update D.socket self none
      refs := Function.update D.refs socket (D.refs socket - 1) }
  | _, _ => D

def World.isSession (W : World) (x : Ref) : Bool :=
  match W.heap x with
  | some c => decide (c.kind = .session)
  | none => false

/-- whether the reference that goes is the last one to a session -/
def World.lastOfSession (W : World) (x : Ref) : Bool :=
  match W.heap x with
  | some c => decide (c.kind = .session) && decide (c.refcnt = 1)
  | none => false

/-- what a call does with the sockets, apart from `startup` -/
def Desk.sockets (D : Desk) : Act → Desk
  -- `PYLIBSSH2_Session_New`
  | .session _ => { D with socket := Function.update D.socket (D.world.fresh + 1) none }
  | .drop x _ => if D.world.lastOfSession x then D.sessionDealloc x else D
  | _ => D

def Desk.call (a : Act) (D : Desk) : Desk := { D.sockets a with world := (step D.world a).1 }

/-! ## programs -/

inductive Deed
  | startup (s : Ref) (socket : Sock) (rc : Int)
  | call (a : Act)

def Deed.act : Deed → Act
  | .startup s _ rc => .startup s rc
  | .call a => a

def Deed.run (D : Desk) : Deed → Desk
  | .startup s socket rc => D.startup s socket rc
  | .call a => D.call a

/-- a call of the module by a Python program; `startup` is always called with a socket -/
def Desk.Step (D : Desk) (d : Deed) (D' : Desk) : Prop :=
  Enabled D.world d.act ∧ (∀ s rc, d ≠ .call (.startup s rc)) ∧ D' = d.run D

/-- no socket is lost and no channel made with a reference too many -/
def Balanced (D : Desk) : Deed → Prop
  | .startup s _ _ => D.socket s = none
  | .call a => a.Even

def BalancedStep (D : Desk) (d : Deed) (D' : Desk) : Prop := Balanced D d ∧ D.Step d D'

/-! ## the accounts -/

def Kind.sets : List Kind := [.sftp, .channel, .listener, .file, .dir]

def World.setsWith (W : World) (x : Ref) : Nat :=
  (Kind.sets.map fun k => Nat.count (fun o => x ∈ W.members o k) W.fresh).sum

/-- the number of live sessions with this socket -/
def Desk.sessionsWith (D : Desk) (socket : Sock) : Nat :=
  Nat.count (fun s => D.world.isSession s = true ∧ D.socket s = some socket) D.world.fresh

structure Accounted (D : Desk) : Prop where
  wrappers : ∀ x c, D.world.heap x = some c → c.refcnt = D.world.held x + D.world.setsWith x
  sockets : ∀ socket, D.refs socket = D.sessionsWith socket

/-- the call `a` or one before it has closed `o`: it is gone, it is an sftp that was shut down, or it is a
session that was started and is closed now -/
def Closed (W : World) (a : Act) (W' : World) (o : Ref) : Prop :=
  W'.heap o = none ∨ (∃ e, W'.heap o = some e ∧ e.kind = .sftp ∧ e.ptr = none) ∨
    ∃ pick rc e, a = .close o pick rc ∧ W.heap o = some e ∧ e.opened = true

variable {E : Prop} {g : Ghost} {W W' : World} {x y o s f : Ref} {c d e : Obj} {k : Kind} {a : Act}
  {D D' D'' : Desk} {ds es : List Deed} {deed : Deed}

/-! ### wrappers -/

theorem setsWith_eq (h : Books E g [] [] [] W) (hx : W.heap x = some c) :
    W.setsWith x = if x ∈ W.members c.parent c.kind then 1 else 0 := by
  have hcount : ∀ k, Nat.count (fun o => x ∈ W.members o k) W.fresh =
      if k = c.kind ∧ x ∈ W.members c.parent c.kind then 1 else 0 := by
    intro k
    by_cases hk : k = c.kind ∧ x ∈ W.members c.parent c.kind
    · obtain ⟨s, hs, _⟩ := h.owner _ _ x hk.2
      have hlt : c.parent < W.fresh := h.lt_fresh (ne_of_eq_of_ne hs (Option.some_ne_none s))
      rw [if_pos hk, count_one (a := c.parent) (fun o ho h1 => ho ((h.member_iff hx).mp h1).1.1) hlt, hk.1,
        if_pos hk.2]
    · rw [if_neg hk]
      refine Nat.count_iff_forall_not.mpr fun o _ h1 => hk ?_
      have h2 := (h.member_iff hx).mp h1
      exact ⟨h2.1.2, h2.2⟩
  unfold World.setsWith
  simp only [hcount]
  by_cases hm : x ∈ W.members c.parent c.kind
  · have hns : c.kind ≠ .session := fun h1 => by
      obtain ⟨s, _, hs⟩ := h.owner _ _ x hm
      rw [h1] at hs
      cases hs
    rw [if_pos hm]
    simp only [hm, and_true]
    cases hk : c.kind with
    | session => exact absurd hk hns
    | channel => rfl
    | sftp => rfl
    | listener => rfl
    | file => rfl
    | dir => rfl
  · rw [if_neg hm]
    simp [hm, Kind.sets]

theorem wrapper_refs (h : Books True g [] [] [] W) (hx : W.heap x = some c) :
    c.refcnt = W.held x + W.setsWith x := by
  have h1 := h.refs x c hx
  have h2 := h.even trivial x c hx
  rw [World.claims, List.count_nil] at h1 h2
  rw [setsWith_eq h hx]
  omega

theorem passing_held (y : Ref) : Passing (fun W W' => W'.held = W.held) fun W => 0 < W.held y where
  closing := closing_held
  keep hR h := lt_of_lt_of_eq h (congrFun hR y).symm
  got _ _ h _ _ := h
  new _ h _ := h
  add o k x h _ := by
    unfold setAdd
    split
    · exact h
    · exact h
  hand x h := by
    simp only [Function.update_apply]
    split
    · exact Nat.one_pos
    · exact h

theorem held_step (ha : ∀ pick, a ≠ .drop y pick) (hy : 0 < W.held y) : 0 < (step W a).1.held y := by
  apply (passing_held y).step hy a
  intro x pick h
  have hne : y ≠ x := fun h1 => ha pick (h1 ▸ h)
  exact lt_of_lt_of_eq hy (Function.update_of_ne hne ..).symm

theorem held_drop (pick : Pick) (x : Ref) (W : World) :
    (step W (.drop x pick)).1.held = Function.update W.held x (W.held x - 1) :=
  closing_held.decref pick _ x

/-! ### sessions -/

theorem isSession_iff : W.isSession x = true ↔ ∃ c, W.heap x = some c ∧ c.kind = .session := by
  unfold World.isSession
  cases hx : W.heap x with
  | none => simp
  | some c => simp

theorem session_refs (h : Books True g [] [] [] W) (hx : W.heap x = some c) (hk : c.kind = .session) :
    c.refcnt = W.held x ∧ 0 < W.held x := by
  have h1 := wrapper_refs h hx
  have hm : x ∉ W.members c.parent c.kind := fun hm => by
    obtain ⟨s, _, hs⟩ := h.owner _ _ x hm
    rw [hk] at hs
    cases hs
  rw [setsWith_eq h hx, if_neg hm, Nat.add_zero] at h1
  refine ⟨h1, Nat.pos_of_ne_zero fun h0 => ?_⟩
  have h2 := h.zombie x c hx (h1.trans h0) List.not_mem_nil
  rw [hk] at h2
  exact not_handle_session h2

theorem session_stays (h : Books True g [] [] [] W) (hen : Enabled W a) (hev : a.Even)
    (hs : W.isSession s = true) (hpos : 0 < (step W a).1.held s) : (step W a).1.isSession s = true := by
  obtain ⟨c, hc, hk⟩ := isSession_iff.mp hs
  obtain ⟨g', hg, h'⟩ := books_step (h.follow hc) a hen fun _ => hev
  obtain ⟨d, hd⟩ := Option.ne_none_iff_exists'.mp (h'.alive s (Or.inr (Or.inr hpos)))
  have hkind : g'.kind s = g.kind s := hg.kind s rfl
  refine isSession_iff.mpr ⟨d, hd, ?_⟩
  rw [h'.kinds s d hd, hkind, ← h.kinds s c hc, hk]

/-! ### sockets -/

structure Sockets (D : Desk) : Prop where
  live : ∀ s socket, D.socket s = some socket → D.world.isSession s = true
  count : ∀ socket, D.refs socket = Nat.count (fun s => D.socket s = some socket) D.world.fresh

theorem session_lt (h : Books True g [] [] [] W) (hs : W.isSession s = true) : s < W.fresh := by
  obtain ⟨c, hc, _⟩ := isSession_iff.mp hs
  exact h.lt_fresh (ne_of_eq_of_ne hc (Option.some_ne_none c))

theorem Sockets.sessionsWith (h : Sockets D) (socket : Sock) : D.refs socket = D.sessionsWith socket := by
  rw [h.count socket, Desk.sessionsWith]
  refine count_congr fun s _ => ⟨fun h1 => ⟨h.live s socket h1, h1⟩, fun h1 => h1.2⟩

theorem Sockets.held (hS : Sockets D) (h : Books True g [] [] [] D.world) (hs : D.socket s ≠ none) :
    0 < D.world.held s := by
  obtain ⟨socket, hsock⟩ := Option.ne_none_iff_exists'.mp hs
  obtain ⟨c, hc, hk⟩ := isSession_iff.mp (hS.live s socket hsock)
  exact (session_refs h hc hk).2

theorem Sockets.world (hS : Sockets D) (h : Books True g [] [] [] D.world) (hen : Enabled D.world a)
    (hev : a.Even) (hpos : ∀ s, D.socket s ≠ none → 0 < (step D.world a).1.held s) :
    Sockets { D with world := (step D.world a).1 } := by
  obtain ⟨g', _, h'⟩ := books_step h a hen fun _ => hev
  have hlive : ∀ s socket, D.socket s = some socket → (step D.world a).1.isSession s = true := by
    intro s socket hs
    exact session_stays h hen hev (hS.live s socket hs) (hpos s (hs ▸ Option.some_ne_none socket))
  refine ⟨hlive, fun socket => ?_⟩
  rw [hS.count socket]
  exact count_bound (fun s hs => session_lt h (hS.live s socket hs))
    fun s hs => session_lt h' (hlive s socket hs)

theorem count_socket (s : Ref) (v : Option Sock) (hs : s < D.world.fresh) (socket : Sock) :
    Nat.count (fun t => Function.update D.socket s v t = some socket) D.world.fresh +
      (if D.socket s = some socket then 1 else 0) =
    Nat.count (fun t => D.socket t = some socket) D.world.fresh + if v = some socket then 1 else 0 := by
  have h1 := count_change (p := fun t => Function.update D.socket s v t = some socket)
    (q := fun t => D.socket t = some socket) (n := D.world.fresh)
    (fun t ht => by rw [Function.update_of_ne ht]) hs
  rw [Function.update_self] at h1
  exact h1

theorem Sockets.startup (hS : Sockets D) (h : Books True g [] [] [] D.world) (socket : Sock) (rc : Int)
    (hen : D.world.Holds s .session) (hnone : D.socket s = none) : Sockets (D.startup s socket rc) := by
  obtain ⟨hheld, c, hc, hk⟩ := hen
  have hself : D.world.isSession s = true := isSession_iff.mpr ⟨c, hc, hk⟩
  have hset : Sockets { D with
      socket := Function.update D.socket s (some socket)
      refs := Function.update D.refs socket (D.refs socket + 1) } := by
    refine ⟨fun t other ht => ?_, fun other => ?_⟩
    · by_cases hts : t = s
      · rw [hts]
        exact hself
      · have h1 : Function.update D.socket s (some socket) t = some other := ht
        rw [Function.update_of_ne hts] at h1
        exact hS.live t other h1
    · have h1 := count_socket (D := D) s (some socket) (session_lt h hself) other
      rw [hnone, if_neg (fun h2 => (by cases h2)), Nat.add_zero, ← hS.count other] at h1
      show Function.update D.refs socket (D.refs socket + 1) other =
        Nat.count (fun t => Function.update D.socket s (some socket) t = some other) D.world.fresh
      rw [h1]
      by_cases ho : other = socket
      · rw [ho, Function.update_self, if_pos rfl]
      · rw [Function.update_of_ne ho, if_neg fun h2 => ho (Option.some.inj h2).symm, Nat.add_zero]
  exact hset.world (a := .startup s rc) h ⟨hheld, c, hc, hk⟩ trivial fun t ht =>
    held_step (fun _ h1 => by cases h1) (hset.held h ht)

theorem Sockets.sessionDealloc (hS : Sockets D) (h : Books True g [] [] [] D.world)
    (hs : D.world.isSession s = true) :
    Sockets (D.sessionDealloc s) ∧ (D.sessionDealloc s).socket s = none ∧
      (D.sessionDealloc s).world = D.world := by
  obtain ⟨c, hc, hk⟩ := isSession_iff.mp hs
  obtain ⟨p, hp⟩ := Option.ne_none_iff_exists'.mp (h.root s c hc hk List.not_mem_nil)
  unfold Desk.sessionDealloc
  rw [ptr_of_heap hc, hp]
  cases hsock : D.socket s with
  | none => exact ⟨hS, hsock, rfl⟩
  | some socket =>
    refine ⟨⟨fun t other ht => ?_, fun other => ?_⟩, Function.update_self .., rfl⟩
    · have h1 : Function.update D.socket s none t = some other := ht
      by_cases hts : t = s
      · rw [hts, Function.update_self] at h1
        cases h1
      · rw [Function.update_of_ne hts] at h1
        exact hS.live t other h1
    · have h1 := count_socket (D := D) s none (session_lt h hs) other
      rw [hsock, if_neg (show ¬ (none : Option Sock) = some other from fun h2 => (by cases h2)),
        Nat.add_zero, ← hS.count other] at h1
      show Function.update D.refs socket (D.refs socket - 1) other =
        Nat.count (fun t => Function.update D.socket s none t = some other) D.world.fresh
      by_cases ho : other = socket
      · rw [ho, if_pos rfl] at h1
        rw [ho, Function.update_self]
        omega
      · rw [if_neg fun h2 => ho (Option.some.inj h2).symm, Nat.add_zero] at h1
        rw [Function.update_of_ne ho]
        exact h1.symm

theorem Sockets.drop (hS : Sockets D) (h : Books True g [] [] [] D.world) (pick : Pick)
    (hen : Enabled D.world (.drop x pick)) : Sockets (D.call (.drop x pick)) := by
  have hother : ∀ {t}, 0 < D.world.held t → t ≠ x → 0 < (step D.world (.drop x pick)).1.held t := by
    intro t ht hne
    rw [held_drop, Function.update_of_ne hne]
    exact ht
  unfold Desk.call Desk.sockets
  by_cases hlast : D.world.lastOfSession x = true
  · have hs : D.world.isSession x = true := by
      unfold World.lastOfSession at hlast
      unfold World.isSession
      split at hlast
      · exact (Bool.and_eq_true_iff.mp hlast).1
      · cases hlast
    obtain ⟨hS', hnone, hw⟩ := hS.sessionDealloc h hs
    have h' : Books True g [] [] [] (D.sessionDealloc x).world := hw.symm ▸ h
    have hkeep := hS'.world (a := .drop x pick) h' (hw.symm ▸ hen) trivial fun t ht => by
      rw [hw]
      refine hother ?_ fun h1 => ht (h1 ▸ hnone)
      have h2 := hS'.held h' ht
      rw [hw] at h2
      exact h2
    rw [hw] at hkeep
    simp only [if_pos hlast]
    exact hkeep
  · simp only [if_neg hlast]
    apply hS.world h hen trivial
    intro t ht
    by_cases htx : t = x
    · obtain ⟨socket, hsock⟩ := Option.ne_none_iff_exists'.mp ht
      obtain ⟨c, hc, hk⟩ := isSession_iff.mp (hS.live t socket hsock)
      have h1 := session_refs h hc hk
      have h2 : c.refcnt ≠ 1 := fun h3 => hlast (by
        rw [World.lastOfSession, ← htx, hc]
        simp [hk, h3])
      rw [held_drop, htx, Function.update_self, ← htx]
      omega
    · exact hother (hS.held h ht) htx

theorem sockets_step (hS : Sockets D) (h : Books True g [] [] [] D.world) (hs : BalancedStep D deed D') :
    Sockets D' := by
  obtain ⟨hbal, hen, hnot, rfl⟩ := hs
  cases deed with
  | startup s socket rc => exact hS.startup h socket rc hen hbal
  | call a =>
    have hkeep : (∀ x pick, a ≠ .drop x pick) → D.sockets a = D → Sockets (D.call a) := by
      intro hdrop heq
      rw [Desk.call, heq]
      exact hS.world h hen hbal fun t ht => held_step (fun pick => hdrop t pick) (hS.held h ht)
    cases a with
    | drop x pick => exact hS.drop h pick hen
    | startup s rc => exact absurd rfl (hnot s rc)
    | session A =>
      apply hkeep (fun _ _ h1 => by cases h1)
      -- the field is empty as it is
      have hnone : D.socket (D.world.fresh + 1) = none := by
        by_contra h1
        obtain ⟨socket, hsock⟩ := Option.ne_none_iff_exists'.mp h1
        exact absurd (session_lt h (hS.live _ socket hsock)) (Nat.not_lt.mpr (Nat.le_succ _))
      show { D with socket := Function.update D.socket (D.world.fresh + 1) none } = D
      rw [← hnone, Function.update_eq_self]
    | _ => exact hkeep (fun _ _ h1 => by cases h1) rfl

/-! ## runs -/

theorem desk_world (D : Desk) (deed : Deed) : (deed.run D).world = (step D.world deed.act).1 := by
  cases deed with
  | startup s socket rc => rfl
  | call a => rfl

theorem desk_run (hr : Trans.Run BalancedStep D ds D') :
    Trans.Run Step D.world (ds.map Deed.act) D'.world ∧ ∀ a ∈ ds.map Deed.act, a.Even := by
  induction hr with
  | nil => exact ⟨Trans.Run.nil, fun a ha => absurd ha List.not_mem_nil⟩
  | snoc _ hs ih =>
    obtain ⟨hbal, hen, _, rfl⟩ := hs
    rw [List.map_append]
    refine ⟨ih.1.snoc ⟨hen, desk_world _ _⟩, fun a ha => ?_⟩
    rcases List.mem_append.mp ha with h1 | h1
    · exact ih.2 a h1
    · rw [List.mem_singleton.mp h1]
      rename_i deed _ _ _
      cases deed with
      | startup s socket rc => trivial
      | call a => exact hbal

theorem desk_books (h : Books True g [] [] [] D.world) (hr : Trans.Run BalancedStep D ds D') :
    ∃ g', g.Extends g' ∧ Books True g' [] [] [] D'.world :=
  books_run h (desk_run hr).1 fun _ => (desk_run hr).2

theorem sockets_run (hr : Trans.Run BalancedStep Desk.empty ds D) : Sockets D := by
  induction hr with
  | nil => exact ⟨fun _ _ h => (by cases h), fun _ => rfl⟩
  | snoc hr hs ih =>
    obtain ⟨g, _, h⟩ := desk_books books_empty hr
    exact sockets_step ih h hs

/-! ### what can be collected -/

theorem Books.closed {g' : Ghost} (h : Books True g' [] [] [] W') (hW : Books True g [] [] [] W) (hen : Enabled W a)
    (hstep : W' = (step W a).1) (hc : Closed W a W' o) (k : Kind) : W'.reg o k = [] := by
  rcases hc with h1 | ⟨e, he, hk, hp⟩ | ⟨pick, rc, e, rfl, he, hop⟩
  · apply reg_eq_nil_iff.mpr
    intro y hy
    obtain ⟨s, hs, _⟩ := h.owner o k y hy
    rw [h1] at hs
    cases hs
  · exact h.shut o e he hk hp k
  · rw [hstep]
    obtain ⟨_, s, hs, hk⟩ := hen
    exact (sessionClose_books pick ((hW.kinds o s hs).symm.trans hk) hW).2 e he hop k

theorem books_stays (h : Books True g [] [] [] D.world) (hlt : x < D.world.fresh)
    (hr : Trans.Run BalancedStep D ds D') :
    x < D'.world.fresh ∧ ∀ o k, x ∈ D'.world.members o k → x ∈ D.world.members o k := by
  obtain ⟨g', hg, h'⟩ := desk_books (h.exclude hlt) hr
  have hout : ∀ o k, x ∉ D.world.members o k → x < D'.world.fresh ∧ x ∉ D'.world.members o k := by
    intro o k hn
    apply h'.away x o k
    rw [hg.out]
    exact ⟨rfl, hn⟩
  constructor
  · refine (hout x .session fun hm => ?_).1
    obtain ⟨s, _, hs⟩ := h.owner x .session x hm
    cases hs
  · intro o k hm
    by_contra hn
    exact (hout o k hn).2 hm

/-- a wrapper whose parent is closed can be collected as soon as Python code has dropped it -/
theorem collectable (h : Books True g [] [] [] D.world) (hx : D.world.heap x = some c)
    (hs : BalancedStep D (.call a) D') (hc : Closed D.world a D'.world c.parent)
    (hr : Trans.Run BalancedStep D' es D'') (hheld : D''.world.held x = 0)
    (hd : D''.world.heap x = some d) : d.refcnt = 0 := by
  have hlt : x < D.world.fresh := h.lt_fresh (ne_of_eq_of_ne hx (Option.some_ne_none c))
  obtain ⟨g1, _, h1⟩ := desk_books h (Trans.Run.single hs)
  obtain ⟨g2, _, h2⟩ := desk_books h1 hr
  obtain ⟨hlt1, hstay1⟩ := books_stays h hlt (Trans.Run.single hs)
  obtain ⟨_, hstay2⟩ := books_stays h1 hlt1 hr
  obtain ⟨_, hen, _, hD'⟩ := hs
  have hworld : D'.world = (step D.world a).1 := by
    rw [hD']
    rfl
  have hempty := h1.closed h hen hworld hc
  have hout : ∀ o k, x ∉ D'.world.members o k := by
    intro o k hm
    have ho := ((h.member_iff hx).mp (hstay1 o k hm)).1.1
    rw [ho] at hm
    exact reg_eq_nil_iff.mp (hempty k) x hm
  rw [wrapper_refs h2 hd, setsWith_eq h2 hd, hheld, if_neg fun hm => hout _ _ (hstay2 _ _ hm)]

theorem Accounted.socket_free (h : Accounted D) {socket : Sock}
    (hgone : ∀ s, D.socket s = some socket → D.world.heap s = none) : D.refs socket = 0 := by
  rw [h.sockets socket]
  apply Nat.count_iff_forall_not.mpr
  intro s _ h1
  obtain ⟨c, hc, _⟩ := isSession_iff.mp h1.1
  rw [hgone s h1.2] at hc
  cases hc

/-- **Reference accounting.**  In a run in which no session is started twice and `scp_recv` gives no channel,
the accounts are right in every state; a wrapper whose parent has been closed has the references of Python
code only, and a socket whose sessions are gone has none. -/
theorem accounted_run (hr : Trans.Run BalancedStep Desk.empty ds D) :
    Accounted D ∧
    (∀ socket, (∀ s, D.socket s = some socket → D.world.heap s = none) → D.refs socket = 0) ∧
    ∀ x c a D' es D'' d, D.world.heap x = some c → BalancedStep D (.call a) D' →
      Closed D.world a D'.world c.parent → Trans.Run BalancedStep D' es D'' →
      D''.world.held x = 0 → D''.world.heap x = some d → d.refcnt = 0 := by
  obtain ⟨g, _, h⟩ := desk_books books_empty hr
  have hacc : Accounted D :=
    ⟨fun x c hx => wrapper_refs h hx, (sockets_run hr).sessionsWith⟩
  refine ⟨hacc, fun socket hgone => hacc.socket_free hgone, ?_⟩
  intro x c a D' es D'' d hx hs hc hr' hheld hd
  exact collectable h hx hs hc hr' hheld hd

/-! ### a session that is collected, and a channel received by scp -/

def deskStarted : Desk := (Desk.empty.call (.session (pageAddr 0))).startup 1 7 0

def deskReceived : Desk := deskStarted.call (.scpRecv 1 (answer 1))

theorem deskStarted_run : ∃ ds, Trans.Run BalancedStep Desk.empty ds deskStarted := by
  have h1 : BalancedStep Desk.empty (.call (.session (pageAddr 0))) _ :=
    ⟨trivial, trivial, fun _ _ h => (by cases h), rfl⟩
  have h2 : BalancedStep (Desk.empty.call (.session (pageAddr 0))) (.startup 1 7 0) deskStarted :=
    ⟨rfl, ⟨by decide, _, rfl, rfl⟩, fun _ _ h => (by cases h), rfl⟩
  exact ⟨_, (Trans.Run.nil.snoc h1).snoc h2⟩

def deskFile : Desk := (deskStarted.call (.sftpInit 1 (answer 1))).call (.openFile 3 (answer 2))

def deskShut : Desk := deskFile.call (.sftpShutdown 1 3 fun _ _ _ => 0)

/-- the file and then the session are collected -/
def deskOver : Desk := (deskShut.call (.drop 5 fun _ _ _ => 0)).call (.drop 1 fun _ _ _ => 0)

theorem accounted_run_over : Accounted deskOver ∧ deskOver.refs 7 = 0 ∧
    ∃ d, deskOver.world.heap 5 = some d ∧ d.refcnt = 0 := by
  obtain ⟨ds, hr⟩ := deskStarted_run
  have h1 : BalancedStep deskStarted (.call (.sftpInit 1 (answer 1))) _ :=
    ⟨trivial, ⟨by decide, _, rfl, rfl⟩, fun _ _ h => (by cases h), rfl⟩
  have h2 : BalancedStep _ (.call (.openFile 3 (answer 2))) deskFile :=
    ⟨trivial, ⟨by decide, _, rfl, rfl⟩, fun _ _ h => (by cases h), rfl⟩
  have h3 : BalancedStep deskFile (.call (.sftpShutdown 1 3 fun _ _ _ => 0)) deskShut :=
    ⟨trivial, ⟨⟨by decide, _, rfl, rfl⟩, by decide, _, rfl, rfl⟩, fun _ _ h => (by cases h), rfl⟩
  have h4 : BalancedStep deskShut (.call (.drop 5 fun _ _ _ => 0)) _ :=
    ⟨trivial, ⟨.file, by decide, _, rfl, rfl⟩, fun _ _ h => (by cases h), rfl⟩
  have h5 : BalancedStep _ (.call (.drop 1 fun _ _ _ => 0)) deskOver :=
    ⟨trivial, ⟨.session, by decide, _, rfl, rfl⟩, fun _ _ h => (by cases h), rfl⟩
  have hfile := (hr.snoc h1).snoc h2
  have hover := (Trans.Run.nil.snoc h4).snoc h5
  obtain ⟨hacc, hsock, _⟩ := accounted_run ((hfile.snoc h3).trans hover)
  refine ⟨hacc, hsock 7 fun s hs => ?_, _, rfl, ?_⟩
  · have hs1 : s = 1 := by
      by_contra hne
      have hnone : deskOver.socket s = none :=
        (Function.update_of_ne hne _ _).trans
          ((Function.update_of_ne hne _ _).trans (Function.update_of_ne hne _ _))
      rw [hnone] at hs
      cases hs
    rw [hs1]
    rfl
  · exact (accounted_run hfile).2.2 5 _ _ _ _ _ _ rfl h3 (Or.inr (Or.inl ⟨_, rfl, rfl, rfl⟩)) hover rfl rfl

/-- the channel that `scp_recv` returns has a reference nobody answers for -/
theorem scpRecv_unbalanced : ¬ ∀ ds D, Trans.Run Desk.Step Desk.empty ds D → Accounted D := by
  intro hall
  obtain ⟨ds, hr⟩ := deskStarted_run
  have h3 : Desk.Step deskStarted (.call (.scpRecv 1 (answer 1))) deskReceived :=
    ⟨⟨by decide, _, rfl, rfl⟩, fun _ _ h => (by cases h), rfl⟩
  have h4 := hall _ deskReceived ((hr.mono fun _ _ _ h => h.2).snoc h3)
  exact absurd (h4.wrappers 3 _ rfl) (by decide)

end PyLibssh2

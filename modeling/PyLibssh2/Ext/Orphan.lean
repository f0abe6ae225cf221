import PyLibssh2.Ext.Own
import PyLibssh2.Ext.Young

/-!
# Handles without a wrapper

An open call gets a handle from libssh2 first and allocates the wrapper second.  `World.handles` is what
libssh2 has returned and not been given back.

* `Returns`           what a closing function does to the handles;
* `numbered_run`      no handle has a number that is still to be given out;
* `open_orphans_iff`  an open call that gives no wrapper leaves the handles alone, unless libssh2 returned
  one and the allocation failed.
-/

set_option linter.unusedSectionVars false
set_option linter.unusedVariables false

namespace PyLibssh2

open World Lifetime

variable {V W W' : World} {x y o s f : Ref} {c d e : Obj} {p q arg : Ptr} {k : Kind} {a : Answer}
  {act : Act} {fn : OpenFn} {leak : Nat} {as : List Act}

/-- the handles libssh2 returned that it has not been given back -/
def World.handles (W : World) : Set Ptr :=
  {p | (∃ os, .acquire p os ∈ W.history) ∧ .release p ∉ W.history}

/-! ## numbers -/

/-- pointers in calls and in wrappers have numbers that have been given out -/
structure Numbered (W : World) : Prop where
  acquired : ∀ p os, .acquire p os ∈ W.history → p.serial < W.fresh
  released : ∀ p, .release p ∈ W.history → p.serial < W.fresh
  opened : ∀ x c p, W.Open x c p → p.serial < W.fresh

/-- from `V` to `W` nothing was acquired or opened, and only open pointers were released -/
structure Returns (V W : World) : Prop where
  fresh : W.fresh = V.fresh
  acquired : ∀ p os, .acquire p os ∈ W.history → .acquire p os ∈ V.history
  released : ∀ p, .release p ∈ W.history → .release p ∈ V.history ∨ ∃ x c, V.Open x c p
  opened : ∀ x c p, W.Open x c p → ∃ y d, V.Open y d p

theorem Returns.refl (W : World) : Returns W W :=
  ⟨rfl, fun _ _ h => h, fun _ h => Or.inl h, fun x c _ h => ⟨x, c, h⟩⟩

theorem Returns.trans (h : Returns V W) (h' : Returns W W') : Returns V W' := by
  refine ⟨h'.fresh.trans h.fresh, fun p os hp => h.acquired p os (h'.acquired p os hp),
    fun p hp => ?_, fun x c p hx => ?_⟩
  · rcases h'.released p hp with h1 | ⟨x, c, h1⟩
    · exact h.released p h1
    · exact Or.inr (h.opened x c p h1)
  · obtain ⟨y, d, h1⟩ := h'.opened x c p hx
    exact h.opened y d p h1

theorem Returns.of_only {T : Ref → Prop} {R : Ref → Kind → Prop} (h : Only T R V W)
    (hc : W.calls = V.calls) : Returns V W := by
  have hh : W.history = V.history := by
    unfold World.history
    rw [hc]
  refine ⟨h.fresh, fun p os hp => hh ▸ hp, fun p hp => Or.inl (hh ▸ hp), fun x c p hx => ?_⟩
  obtain ⟨d, hd, _⟩ := h.opens hx
  exact ⟨x, d, hd⟩

theorem closing_returns : Closing Returns where
  refl := Returns.refl
  trans := Returns.trans
  log e h ha hr := by
    refine ⟨h.fresh, fun p os hp => ?_, fun p hp => ?_, h.opened⟩
    · rw [history_log] at hp
      rcases List.mem_append.mp hp with h1 | h1
      · exact absurd h1 (ha p os)
      · exact h.acquired p os h1
    · rw [history_log] at hp
      rcases List.mem_append.mp hp with h1 | h1
      · exact Or.inr (hr p h1)
      · exact h.released p h1
  wear W x f hf :=
    Returns.of_only (T := fun _ => True) (R := fun _ _ => True) (only_modify f hf trivial) rfl
  thin W o k r hr :=
    ⟨rfl, fun _ _ h => h, fun _ h => Or.inl h, fun x c _ h => ⟨x, c, h⟩⟩
  del W x := Returns.of_only (T := fun _ => True) (R := fun _ _ => True) (only_del trivial) rfl

theorem Numbered.returns (h : Numbered V) (hr : Returns V W) : Numbered W := by
  refine ⟨fun p os hp => ?_, fun p hp => ?_, fun x c p hx => ?_⟩
  · rw [hr.fresh]
    exact h.acquired p os (hr.acquired p os hp)
  · rw [hr.fresh]
    rcases hr.released p hp with h1 | ⟨x, c, h1⟩
    · exact h.released p h1
    · exact h.opened x c p h1
  · rw [hr.fresh]
    obtain ⟨y, d, h1⟩ := hr.opened x c p hx
    exact h.opened y d p h1

/-! ## opening -/

theorem Numbered.call (h : Numbered W) (e : Call) (raw : List (Ref × Ptr))
    (ha : ∀ p os, .acquire p os ∈ e.events → p.serial = W.fresh) (hr : ∀ p, .release p ∉ e.events) :
    Numbered { W.log e with fresh := W.fresh + 1, raw := raw } := by
  refine ⟨fun p os hp => ?_, fun p hp => ?_, fun x c p hx => Nat.lt_succ_of_lt (h.opened x c p hx)⟩
  · rcases List.mem_append.mp hp with h1 | h1
    · exact Nat.lt_succ_of_le (Nat.le_of_eq (ha p os h1))
    · exact Nat.lt_succ_of_lt (h.acquired p os h1)
  · rcases List.mem_append.mp hp with h1 | h1
    · exact absurd h1 (hr p)
    · exact Nat.lt_succ_of_lt (h.released p h1)

theorem Numbered.new (h : Numbered W) (hc : ∀ q, c.ptr = some q → q.serial < W.fresh) :
    Numbered (new c W).1 := by
  refine ⟨fun p os hp => Nat.lt_succ_of_lt (h.acquired p os hp),
    fun p hp => Nat.lt_succ_of_lt (h.released p hp), fun x d p hx => Nat.lt_succ_of_lt ?_⟩
  obtain ⟨h1, h2⟩ := hx
  have h1 : Function.update W.heap W.fresh (some { c with refcnt := 1 }) x = some d := h1
  by_cases hxf : x = W.fresh
  · rw [hxf, Function.update_self] at h1
    cases h1
    exact hc p h2
  · rw [Function.update_of_ne hxf] at h1
    exact h.opened x d p ⟨h1, h2⟩

theorem Numbered.modify (h : Numbered W) (f : Obj → Obj) (hf : ∀ e, Worn e (f e)) :
    Numbered (W.modify x f) := h.returns (closing_returns.wear W x f hf)

theorem Numbered.setAdd (h : Numbered W) : Numbered (setAdd W o k x) := by
  unfold PyLibssh2.setAdd
  split
  · exact h
  · have h1 : Numbered (W.setReg o k (W.reg o k ++ [(x, W.hashOf x)])) :=
      ⟨h.acquired, h.released, h.opened⟩
    exact h1.modify _ fun _ => ⟨rfl, rfl, rfl, rfl, rfl, Or.inl rfl⟩

theorem Numbered.held (h : Numbered W) (g : Ref → Nat) : Numbered { W with held := g } :=
  ⟨h.acquired, h.released, h.opened⟩

theorem passing_numbered : Passing Returns Numbered where
  closing := closing_returns
  keep hr h := h.returns hr
  got e raw h ha hr := h.call e raw ha hr
  new _ h hc := h.new hc
  add _ _ _ h _ := h.setAdd
  hand _ h := h.held _

theorem numbered_step (h : Numbered W) (act : Act) : Numbered (step W act).1 :=
  passing_numbered.step h act fun _ _ _ => h.held _

theorem numbered_empty : Numbered World.empty := by
  refine ⟨fun _ _ h => absurd h List.not_mem_nil, fun _ h => absurd h List.not_mem_nil, ?_⟩
  intro x c p h
  cases h.1

theorem numbered_run (hr : Trans.Run Step World.empty as W) : Numbered W := by
  apply hr.inv Numbered numbered_empty
  intro t a u h hs
  rw [hs.2]
  exact numbered_step h a

/-! ## open calls that give no wrapper -/

/-- what libssh2 and `PyObject_New` answer to an open call -/
def Act.answer : Act → Option Answer
  | .openSession _ a | .scpSend _ a | .scpRecv _ a | .sftpInit _ a | .forwardListen _ a
  | .accept _ a | .openFile _ a | .openDir _ a => some a
  | _ => none

/-- the call asks libssh2 for a handle: the sftp or the listener it is made on is open -/
def Act.asks (W : World) : Act → Prop
  | .accept x _ | .openFile x _ | .openDir x _ => (W.heap x).bind Obj.ptr ≠ none
  | _ => True

/-- the handles are as they were, unless a wrapper is returned -/
def Kept (W : World) (r : World × Ret) : Prop := (∀ y, r.2 ≠ .obj y) → r.1.handles = W.handles

def obtained (fn : OpenFn) (arg : Ptr) (addr : Addr) (os : List Ptr) (W : World) : World :=
  { W.log (.acquire fn (some arg) (some ⟨W.fresh, addr⟩) os) with fresh := W.fresh + 1 }

theorem history_obtained {addr : Addr} {os : List Ptr} : (obtained fn arg addr os W).history =
    .acquire ⟨W.fresh, addr⟩ os :: .use arg :: W.history := history_log W _

theorem handles_use (fn : UseFn) (a : Option Ptr) : (W.log (.use fn a)).handles = W.handles := by
  ext p
  simp [World.handles, history_log, Call.events]

theorem handles_refused (fn : OpenFn) (a : Option Ptr) :
    (W.log (.acquire fn a none [])).handles = W.handles := by
  ext p
  simp [World.handles, history_log, Call.events]

theorem handles_failOpen : (failOpen p W).1.handles = W.handles := handles_use _ _

theorem handles_obtained (h : Numbered W) {addr : Addr} {os : List Ptr} :
    (obtained fn arg addr os W).handles ≠ W.handles := by
  intro heq
  have hnew : ⟨W.fresh, addr⟩ ∈ (obtained fn arg addr os W).handles := by
    refine ⟨⟨os, ?_⟩, fun hm => ?_⟩
    · rw [history_obtained]
      exact List.mem_cons_self
    · rw [history_obtained] at hm
      have hm' : .release ⟨W.fresh, addr⟩ ∈ W.history := by simpa using hm
      exact absurd (h.released _ hm') (Nat.lt_irrefl _)
  rw [heq] at hnew
  obtain ⟨⟨os', hm⟩, _⟩ := hnew
  exact absurd (h.acquired _ os' hm) (Nat.lt_irrefl _)

theorem kept_openWith (h : Numbered W) :
    Kept W (openWith fn arg c leak a W) ↔ ¬ (a.ret ≠ none ∧ a.alloc = false) := by
  cases ha : a.ret with
  | none =>
    refine ⟨fun _ h1 => h1.1 rfl, fun _ _ => ?_⟩
    rw [openWith_none ha, handles_failOpen, handles_refused]
  | some addr =>
    cases hm : a.alloc with
    | false =>
      refine ⟨fun hk => ?_, fun h1 => absurd ⟨Option.some_ne_none addr, rfl⟩ h1⟩
      unfold Kept at hk
      rw [openWith_leak ha hm] at hk
      exact absurd (hk fun y hy => (by cases hy)) (handles_obtained h)
    | true =>
      refine ⟨fun _ h1 => (by cases h1.2), fun _ hno => ?_⟩
      refine absurd ?_ (hno (W.fresh + 1))
      simp only [openWith, ha, hm]
      rfl

theorem kept_onSession {F : Ptr → World × Ret} (hs : W.heap s = some e) :
    Kept W (onSession s W F) ↔ Kept W (F e.session) := by
  rw [onSession_eq hs]

theorem asks_iff {P : Prop} : ¬ P ↔ ¬ (True ∧ P) := not_congr ⟨fun h => ⟨trivial, h⟩, And.right⟩

theorem kept_openChild (h : Numbered W) (hs : W.heap s = some e) :
    Kept W (onSession s W fun p => openWith fn p (child s p k) leak a W) ↔
      ¬ (True ∧ a.ret ≠ none ∧ a.alloc = false) :=
  ((kept_onSession hs).trans (kept_openWith h)).trans asks_iff

theorem kept_openHandle (h : Numbered W) (hf : W.heap f = some e) :
    Kept W (openHandle fn k f a W) ↔ ¬ (e.ptr ≠ none ∧ a.ret ≠ none ∧ a.alloc = false) := by
  cases hp : e.ptr with
  | none =>
    refine ⟨fun _ h1 => h1.1 rfl, fun _ _ => ?_⟩
    rw [openHandle_closed hf hp]
  | some p =>
    have hopen : Kept W (openWith fn p { child f e.session k with sftp := some p } 0 a W) ↔ _ :=
      kept_openWith h
    rw [openHandle_open ⟨hf, hp⟩]
    by_cases hcode : a.ret = none ∧ a.rc = errorSftpProtocol
    · refine ⟨fun _ h1 => h1.2.1 hcode.1, fun _ _ => ?_⟩
      rw [if_pos hcode, handles_use, openWith_none hcode.1, handles_failOpen, handles_refused]
    · rw [if_neg hcode]
      refine hopen.trans (not_congr ⟨fun h1 => ⟨Option.some_ne_none p, h1⟩, fun h1 => h1.2⟩)

theorem kept_scpRecv (h : Numbered W) (hs : W.heap s = some e) :
    Kept W (Session.scpRecv s a W) ↔ ¬ (True ∧ a.ret ≠ none ∧ a.alloc = false) := by
  refine ((kept_onSession hs).trans ?_).trans asks_iff
  cases hr : a.ret with
  | none =>
    refine ⟨fun _ h1 => h1.1 rfl, fun _ _ => ?_⟩
    exact handles_refused _ _
  | some addr =>
    have hopen : Kept W (openWith .scpRecv e.session (child s e.session .channel) 1 a W) ↔ _ :=
      kept_openWith h
    rw [hr] at hopen
    exact hopen

theorem kept_accept {l : Ref} (h : Numbered W) (hl : W.heap l = some e) :
    Kept W (Listener.accept l a W) ↔ ¬ (e.ptr ≠ none ∧ a.ret ≠ none ∧ a.alloc = false) := by
  unfold Listener.accept
  simp only [hl]
  cases hp : e.ptr with
  | none =>
    refine ⟨fun _ h1 => h1.1 rfl, fun _ _ => ?_⟩
    show (failOpen _ _).1.handles = _
    rw [handles_failOpen, handles_refused]
  | some p =>
    refine (kept_openWith h).trans (not_congr ⟨fun h1 => ⟨Option.some_ne_none p, h1⟩, fun h1 => h1.2⟩)

/-- **Orphans.**  In every state a program gets to, an open call that gives no wrapper leaves the open
handles of libssh2 as they were, exactly if it was not refused memory after libssh2 had returned one. -/
theorem open_orphans_iff (hr : Trans.Run Step World.empty as W) (hen : Enabled W act)
    (ha : act.answer = some a) :
    ((∀ y, (step W act).2 ≠ .obj y) → (step W act).1.handles = W.handles) ↔
      ¬ (act.asks W ∧ a.ret ≠ none ∧ a.alloc = false) := by
  have h := numbered_run hr
  cases act with
  | openSession s A =>
    cases ha
    obtain ⟨_, e, hs, _⟩ := hen
    exact kept_openChild h hs
  | scpSend s A =>
    cases ha
    obtain ⟨_, e, hs, _⟩ := hen
    exact kept_openChild h hs
  | sftpInit s A =>
    cases ha
    obtain ⟨_, e, hs, _⟩ := hen
    exact kept_openChild h hs
  | forwardListen s A =>
    cases ha
    obtain ⟨_, e, hs, _⟩ := hen
    exact kept_openChild h hs
  | scpRecv s A =>
    cases ha
    obtain ⟨_, e, hs, _⟩ := hen
    exact kept_scpRecv h hs
  | accept l A =>
    cases ha
    obtain ⟨_, e, hl, _⟩ := hen
    show Kept W (Listener.accept l a W) ↔ ¬ ((W.heap l).bind Obj.ptr ≠ none ∧ _)
    rw [ptr_of_heap hl]
    exact kept_accept h hl
  | openFile f A =>
    cases ha
    obtain ⟨_, e, hf, _⟩ := hen
    show Kept W (openHandle _ _ f a W) ↔ ¬ ((W.heap f).bind Obj.ptr ≠ none ∧ _)
    rw [ptr_of_heap hf]
    exact kept_openHandle h hf
  | openDir f A =>
    cases ha
    obtain ⟨_, e, hf, _⟩ := hen
    show Kept W (openHandle _ _ f a W) ↔ ¬ ((W.heap f).bind Obj.ptr ≠ none ∧ _)
    rw [ptr_of_heap hf]
    exact kept_openHandle h hf
  | session A => cases ha
  | startup s rc => cases ha
  | directTcpip s A => cases ha
  | channelClose s c => cases ha
  | sftpShutdown s f pick => cases ha
  | forwardCancel s l => cases ha
  | closeFile f x => cases ha
  | closeDir f x => cases ha
  | close s pick rc => cases ha
  | drop x pick => cases ha
  | method x m => cases ha
  | sessionMethod s fn => cases ha

/-! ### a channel for which there is no memory -/

def noMemory (n : Nat) : Answer := ⟨some (pageAddr n), 0, false⟩

theorem open_orphans_iff_session :
    ((∀ y, (step startedSession (.openSession 1 (answer 1))).2 ≠ .obj y) →
      (step startedSession (.openSession 1 (answer 1))).1.handles = startedSession.handles) ↔
    ¬ (True ∧ (answer 1).ret ≠ none ∧ (answer 1).alloc = false) := by
  obtain ⟨as, hr⟩ := started_run
  exact open_orphans_iff hr ⟨by decide, _, rfl, rfl⟩ rfl

theorem open_leaks_channel : ¬ ∀ as W act a, Trans.Run Step World.empty as W → Enabled W act →
    act.answer = some a → (∀ y, (step W act).2 ≠ .obj y) → (step W act).1.handles = W.handles := by
  intro h
  obtain ⟨as, hr⟩ := started_run
  have h1 : Kept startedSession (openWith .channelOpenSession ⟨0, pageAddr 0⟩
      (child 1 ⟨0, pageAddr 0⟩ .channel) 0 (noMemory 1) startedSession) :=
    h as startedSession (.openSession 1 (noMemory 1)) _ hr ⟨by decide, _, rfl, rfl⟩ rfl
  exact (kept_openWith (numbered_run hr)).mp h1 ⟨by decide, rfl⟩

end PyLibssh2

import PyLibssh2.Ext.Ledger
import PyLibssh2.Transfer.Commands
import PyLibssh2.Transfer.Copy
import PyLibssh2.Transfer.Recv
import PyLibssh2.Transfer.Send

/-!
# The helpers of the facade are programs

A helper of the facade does nothing with the module that a program could not do by calling the module
itself: it passes only what it holds, and when it ends, in whatever way, it has given up every
reference it took.  `Deed` is a call of the module or of a helper; programs made of deeds get to no state
that single calls do not get to, so that what holds after every run of calls holds after the helpers too.

* `Inside`          a helper is at work, with the local variables of a list;
* `Inside.method`, `Inside.opened`, `Inside.leave`  one more call;
* `getRound_inside`, … one walk through each helper;
* `deeds_run`       a program made of deeds is a run of calls.
-/

set_option linter.unusedSectionVars false
set_option linter.unusedVariables false

namespace PyLibssh2.Transfer

open Loop World Remote

def Reached (W : World) : Prop := ∃ as, Trans.Run (StepIf Proper) World.empty as W

def Leads (W V : World) : Prop := ∃ as, Trans.Run (StepIf Proper) W as V

abbrev Vars := List (Ref × Kind)

def Vars.count (vars : Vars) (y : Ref) : Nat := (vars.map Prod.fst).count y

/-- a helper that was called in `W` has got to `V`, and has the local variables `vars` -/
structure Inside (W V : World) (vars : Vars) : Prop where
  start : Reached W
  leads : Leads W V
  held : ∀ y, V.held y = W.held y + vars.count y
  var : ∀ x k, (x, k) ∈ vars → ∃ e, V.heap x = some e ∧ e.kind = k
  keeps : ∀ x k, W.Holds x k → V.Holds x k

variable {W V V' : World} {vars vars' : Vars} {s f x y c : Ref} {k : Kind} {act : Act} {ret : Ret}
  {a : Answer} {m : Method} {rc : Int}

theorem Leads.refl (W : World) : Leads W W := ⟨[], Trans.Run.nil⟩

theorem Leads.snoc (h : Leads W V) (hs : StepIf Proper V act V') : Leads W V' := by
  obtain ⟨as, hr⟩ := h
  exact ⟨as ++ [act], hr.snoc hs⟩

theorem Reached.leads (hW : Reached W) (h : Leads W V) : Reached V := by
  obtain ⟨as, hr⟩ := hW
  obtain ⟨bs, hr'⟩ := h
  exact ⟨as ++ bs, hr.trans hr'⟩

theorem Reached.young (hW : Reached W) : Young W := by
  obtain ⟨as, hr⟩ := hW
  exact young_run (hr.mono fun _ _ _ hs => hs.2)

theorem Vars.count_cons (x : Ref) (k : Kind) (vars : Vars) (y : Ref) :
    Vars.count ((x, k) :: vars) y = vars.count y + if x = y then 1 else 0 := by
  rw [Vars.count, List.map_cons, List.count_cons]
  simp only [beq_iff_eq]
  rfl

theorem Vars.count_perm (h : List.Perm vars vars') (y : Ref) : vars.count y = vars'.count y :=
  (h.map Prod.fst).count_eq y

theorem Vars.count_pos (h : (x, k) ∈ vars) : 0 < vars.count x :=
  List.count_pos_iff.mpr (List.mem_map_of_mem h)

/-! ## one more call -/

theorem Inside.enter (hW : Reached W) : Inside W W [] where
  start := hW
  leads := Leads.refl W
  held _ := rfl
  var _ _ h := absurd h List.not_mem_nil
  keeps _ _ h := h

theorem Inside.holds (h : Inside W V vars) (hx : (x, k) ∈ vars) : V.Holds x k := by
  refine ⟨?_, h.var x k hx⟩
  rw [h.held]
  exact Nat.add_pos_right _ (Vars.count_pos hx)

theorem holds_after (hV : Reached V) (ha : Enabled V act) (hx : V.Holds x k)
    (hpos : 0 < (step V act).1.held x) : (step V act).1.Holds x k := by
  obtain ⟨as, hr⟩ := hV
  obtain ⟨_, g, hb⟩ := ledger_run hr
  obtain ⟨_, e, he, hk⟩ := hx
  obtain ⟨g', hg, hb'⟩ := books_step (hb.follow he) act ha fun h => h.elim
  obtain ⟨d, hd⟩ := Option.ne_none_iff_exists'.mp (hb'.alive x (Or.inr (Or.inr hpos)))
  refine ⟨hpos, d, hd, ?_⟩
  rw [hb'.kinds x d hd, hg.kind x rfl, ← hk, hb.kinds x e he]

/-- the wrappers that are referred to after the call are there -/
theorem Inside.step (h : Inside W V vars) (act : Act) (ha : Enabled V act) (hp : act.Proper)
    (hheld : ∀ y, (PyLibssh2.step V act).1.held y = W.held y + vars'.count y)
    (hvar : ∀ x k, (x, k) ∈ vars' → V.Holds x k ∨ (PyLibssh2.step V act).1.Holds x k) :
    Inside W (PyLibssh2.step V act).1 vars' where
  start := h.start
  leads := h.leads.snoc ⟨hp, ha, rfl⟩
  held := hheld
  var x k hx := by
    rcases hvar x k hx with h1 | h1
    · refine (holds_after (h.start.leads h.leads) ha h1 ?_).2
      rw [hheld]
      exact Nat.add_pos_right _ (Vars.count_pos hx)
    · exact h1.2
  keeps x k hx := by
    apply holds_after (h.start.leads h.leads) ha (h.keeps x k hx)
    rw [hheld]
    exact Nat.add_pos_left hx.1 _

theorem Inside.call (h : Inside W V vars) (act : Act) (ha : Enabled V act) (hp : act.Proper)
    (hheld : (PyLibssh2.step V act).1.held = V.held) : Inside W (PyLibssh2.step V act).1 vars := by
  refine h.step act ha hp (fun y => ?_) fun x k hx => Or.inl (h.holds hx)
  rw [hheld, h.held]

theorem Inside.method (h : Inside W V vars) (m : Method) (hx : (x, m.kind) ∈ vars) :
    Inside W (m.run x V).1 vars :=
  h.call (.method x m) (h.holds hx) trivial (closing_held.method x m V)

theorem Inside.channelClose (h : Inside W V vars) (hs : W.Holds s .session)
    (hx : (x, .channel) ∈ vars) :
    Inside W (Session.channelClose s x V).1 vars :=
  h.call (.channelClose s x) ⟨h.keeps s .session hs, h.holds hx⟩ trivial
    (closing_held.sessionChannelClose s x V)

theorem Inside.closeFile (h : Inside W V vars) (hf : W.Holds f .sftp) (hx : (x, .file) ∈ vars) :
    Inside W (Sftp.closeFile f x V).1 vars :=
  h.call (.closeFile f x) ⟨h.keeps f .sftp hf, h.holds hx⟩ trivial
    (closing_held.closeFile f x V)

theorem Inside.leave (h : Inside W V vars) (hperm : List.Perm vars ((x, k) :: vars')) :
    Inside W (leave x V) vars' := by
  have hx : V.Holds x k := h.holds (hperm.mem_iff.mpr List.mem_cons_self)
  refine h.step (.drop x fun _ _ _ => 0) ⟨k, hx⟩ trivial (fun y => ?_) fun z j hz => ?_
  · have h1 := h.held y
    rw [Vars.count_perm hperm, Vars.count_cons] at h1
    have h2 : (PyLibssh2.step V (.drop x fun _ _ _ => 0)).1.held =
        Function.update V.held x (V.held x - 1) := closing_held.decref (fun _ _ _ => 0) _ x
    rw [h2]
    by_cases hyx : x = y
    · rw [if_pos hyx] at h1
      rw [hyx, Function.update_self]
      omega
    · rw [if_neg hyx] at h1
      rw [Function.update_of_ne (Ne.symm hyx)]
      omega
  · exact Or.inl (h.holds (hperm.mem_iff.mpr (List.mem_cons_of_mem _ hz)))

/-! ## opening -/

theorem held_setAdd (W : World) (o : Ref) (k : Kind) (x : Ref) : (setAdd W o k x).held = W.held := by
  unfold setAdd
  split <;> rfl

theorem held_openWith {fn : OpenFn} {arg : Ptr} {o : Obj} {leak : Nat} :
    (∀ x, (openWith fn arg o leak a V).2 ≠ .obj x) ∧
      (openWith fn arg o leak a V).1.held = V.held ∨
    ∃ x, (openWith fn arg o leak a V).2 = .obj x ∧
      (openWith fn arg o leak a V).1.held = Function.update V.held x 1 := by
  unfold openWith
  cases a.ret with
  | none => exact Or.inl ⟨fun x h => (by cases h), rfl⟩
  | some addr =>
    cases a.alloc with
    | false => exact Or.inl ⟨fun x h => (by cases h), rfl⟩
    | true =>
      refine Or.inr ⟨_, rfl, ?_⟩
      simp only [if_true, held_modify]
      split
      · rw [held_setAdd]
        rfl
      · rfl

/-- what an open call of a helper does with the references: `call` is the call, run in `V` -/
structure Hands (V : World) (call : World × Ret) (o : Ref) (k : Kind) : Prop where
  refused : (∀ x, call.2 ≠ .obj x) → call.1.held = V.held
  opened : ∀ x, call.2 = .obj x → call.1.held = Function.update V.held x 1 ∧ Opened o k x V call.1

theorem hands_of_cases {call : World × Ret} {P : Prop}
    (hheld : (∀ x, call.2 ≠ .obj x) ∧ call.1.held = V.held ∨
      ∃ x, call.2 = .obj x ∧ call.1.held = Function.update V.held x 1)
    (hcases : (∃ W' e, call = (W', .raised e) ∧ Untouched V W' ∧ P) ∨
      ∃ W' x, call = (W', .obj x) ∧ Opened s k x V W' ∧ ¬ P) : Hands V call s k := by
  refine ⟨fun hno => ?_, fun x hx => ?_⟩
  · rcases hheld with ⟨_, h⟩ | ⟨x, hx, _⟩
    · exact h
    · exact absurd hx (hno x)
  · rcases hheld with ⟨hno, _⟩ | ⟨y, hy, h⟩
    · exact absurd hx (hno x)
    · rw [hx] at hy
      cases hy
      refine ⟨h, ?_⟩
      rcases hcases with ⟨W', e, h1, _⟩ | ⟨W', y, h1, h2, _⟩
      · rw [h1] at hx
        cases hx
      · rw [h1] at hx ⊢
        cases hx
        exact h2

theorem held_onSession {F : Ptr → World × Ret}
    (hF : ∀ p, (∀ x, (F p).2 ≠ .obj x) ∧ (F p).1.held = V.held ∨
      ∃ x, (F p).2 = .obj x ∧ (F p).1.held = Function.update V.held x 1) :
    (∀ x, (onSession s V F).2 ≠ .obj x) ∧ (onSession s V F).1.held = V.held ∨
    ∃ x, (onSession s V F).2 = .obj x ∧ (onSession s V F).1.held = Function.update V.held x 1 := by
  unfold onSession
  split
  · exact hF _
  · exact Or.inl ⟨fun x h => (by cases h), rfl⟩

theorem hands_openSession (hy : Young V) (s : Ref) (a : Answer) :
    Hands V (Session.openSession s a V) s .channel :=
  hands_of_cases (held_onSession fun p => held_openWith) (onSession_cases hy .channelOpenSession 0 a)

theorem hands_scpSend (hy : Young V) (s : Ref) (a : Answer) :
    Hands V (Session.scpSend s a V) s .channel :=
  hands_of_cases (held_onSession fun p => held_openWith) (scpSend_cases hy a)

theorem hands_scpRecv (hy : Young V) (s : Ref) (a : Answer) :
    Hands V (Session.scpRecv s a V) s .channel := by
  refine hands_of_cases (held_onSession fun p => ?_) (scpRecv_cases hy a)
  cases a.ret with
  | none => exact Or.inl ⟨fun x h => (by cases h), rfl⟩
  | some addr => exact held_openWith

theorem hands_openFile (hy : Young V) (f : Ref) (a : Answer) :
    Hands V (Sftp.openFile f a V) f .file := by
  refine hands_of_cases ?_ (openFile_cases hy f a)
  unfold Sftp.openFile openHandle
  split
  · exact Or.inl ⟨fun x h => (by cases h), rfl⟩
  · split
    · exact Or.inl ⟨fun x h => (by cases h), rfl⟩
    · simp only
      split
      · exact held_openWith
      · exact held_openWith

theorem Inside.refused (h : Inside W V vars) (ha : Enabled V act) (hp : act.Proper)
    (hands : Hands V (PyLibssh2.step V act) s k) (hno : ∀ x, (PyLibssh2.step V act).2 ≠ .obj x) :
    Inside W (PyLibssh2.step V act).1 vars :=
  h.call act ha hp (hands.refused hno)

theorem Inside.opened (h : Inside W V vars) (ha : Enabled V act) (hp : act.Proper)
    (hands : Hands V (PyLibssh2.step V act) s k) (hx : (PyLibssh2.step V act).2 = .obj x) :
    Inside W (PyLibssh2.step V act).1 ((x, k) :: vars) := by
  obtain ⟨hheld, hopen⟩ := hands.opened x hx
  have hnew : V.held x = 0 := by
    obtain ⟨as, hr⟩ := h.start.leads h.leads
    obtain ⟨_, g, hb⟩ := ledger_run hr
    by_contra hne
    exact hb.alive x (Or.inr (Or.inr (Nat.pos_of_ne_zero hne))) hopen.new
  refine h.step act ha hp (fun y => ?_) fun z j hz => ?_
  · have h1 := h.held y
    rw [hheld, Vars.count_cons]
    by_cases hxy : x = y
    · rw [← hxy, Function.update_self, if_pos rfl]
      rw [← hxy] at h1
      omega
    · rw [Function.update_of_ne (Ne.symm hxy), if_neg hxy]
      exact h1
  · rcases List.mem_cons.mp hz with h1 | h1
    · cases h1
      obtain ⟨e, p, he, hk, _⟩ := hopen.holding.isOpen
      refine Or.inr ⟨?_, e, he.1, hk⟩
      rw [hheld, Function.update_self]
      exact Nat.one_pos
    · exact Or.inl (h.holds h1)

/-! ## the helpers -/

theorem Inside.openFile (h : Inside W V vars) (hf : W.Holds f .sftp) (a : Answer)
    (hcall : Sftp.openFile f a V = (V', ret)) :
    (∀ x, ret = .obj x → Inside W V' ((x, .file) :: vars)) ∧
      ((∀ x, ret ≠ .obj x) → Inside W V' vars) := by
  have hands := hands_openFile (h.start.leads h.leads).young f a
  have ha : Enabled V (.openFile f a) := h.keeps f .sftp hf
  have hstep : PyLibssh2.step V (.openFile f a) = (V', ret) := hcall
  have hV' : (PyLibssh2.step V (.openFile f a)).1 = V' := by rw [hstep]
  rw [← hV']
  refine ⟨fun x hx => h.opened ha trivial hands ?_, fun hno => h.refused ha trivial hands ?_⟩
  · rw [hstep, hx]
  · rw [hstep]
    exact hno

theorem Inside.openChannel (h : Inside W V vars) (ha : Enabled V act) (hp : act.Proper)
    (hands : Hands V (PyLibssh2.step V act) s .channel) (hcall : PyLibssh2.step V act = (V', ret)) :
    (∀ x, ret = .obj x → Inside W V' ((x, .channel) :: vars)) ∧
      ((∀ x, ret ≠ .obj x) → Inside W V' vars) := by
  have hV' : (PyLibssh2.step V act).1 = V' := by rw [hcall]
  rw [← hV']
  refine ⟨fun x hx => h.opened ha hp hands ?_, fun hno => h.refused ha hp hands ?_⟩
  · rw [hcall, hx]
  · rw [hcall]
    exact hno

theorem sftpfile_read_eq (x : Ref) (rc : Int) (W : World) :
    Sftpfile.read x rc W = Sftpfile.read x 0 W := by
  unfold Sftpfile.read guarded
  rfl

theorem Inside.fileRead (h : Inside W V vars) (hx : (x, .file) ∈ vars) (rc : Int)
    (hcall : Sftpfile.read x rc V = (V', ret)) : Inside W V' vars := by
  have h1 := h.method .fileRead hx
  rw [sftpfile_read_eq] at hcall
  rwa [Method.run, hcall] at h1

theorem Inside.called (h : Inside W V vars) (m : Method) (hx : (x, m.kind) ∈ vars)
    (hcall : m.run x V = (V', ret)) : Inside W V' vars := by
  have h1 := h.method m hx
  rwa [hcall] at h1

theorem Inside.closed (h : Inside W V vars) (hf : W.Holds f .sftp) (hx : (x, .file) ∈ vars)
    (hcall : Sftp.closeFile f x V = (V', ret)) : Inside W V' vars := by
  have h1 := h.closeFile hf hx
  rwa [hcall] at h1

theorem Inside.last (h : Inside W V [(x, k)]) : Inside W (PyLibssh2.leave x V) [] :=
  h.leave (List.Perm.refl _)

def GetInside (W : World) : GetState → Prop
  | .entry V => Inside W V []
  | .loop v => Inside W v.world [(v.src, .file)]

theorem getRead_inside {env : GetEnv} {v : GetVars} (h : Inside W v.world [(v.src, .file)]) :
    (getRead env v).All (GetInside W) fun r => Inside W r.world [] := by
  unfold getRead
  cases hcall : Sftpfile.read v.src (readRc (env.read v.reads) BUFFER_SIZE v.left) v.world with
  | mk V' ret =>
    have h' := h.fileRead List.mem_cons_self _ hcall
    cases ret with
    | raised e => exact h'.last
    | _ => exact h'

theorem getRound_inside {env : GetEnv} {content : List UInt8} (hf : W.Holds f .sftp) (st : GetState)
    (h : GetInside W st) :
    (getRound f env content st).All (GetInside W) fun r => Inside W r.world [] := by
  cases st with
  | entry V =>
    rw [getRound]
    cases hcall : Sftp.openFile f env.openSrc V with
    | mk V' ret =>
      obtain ⟨hobj, hno⟩ := Inside.openFile h hf _ hcall
      cases ret with
      | obj x =>
        have h' := hobj x rfl
        simp only
        split
        · exact getRead_inside h'
        · exact h'.last
      | _ => exact hno fun x hx => (by cases hx)
  | loop v =>
    have hv : Inside W v.world [(v.src, .file)] := h
    rw [getRound]
    split
    · split
      · exact getRead_inside hv
      · exact hv.last
    · split
      · cases hcall : Sftp.closeFile f v.src v.world with
        | mk V' ret => exact (hv.closed hf List.mem_cons_self hcall).last
      · exact hv.last

theorem get_inside {env : GetEnv} {content : List UInt8} {r : GetEnd} (hW : Reached W)
    (hf : W.Holds f .sftp) (hr : Halts (getRound f env content) (.entry W) r) : Inside W r.world [] := by
  refine Halts.all (GetInside W) (fun r => Inside W r.world []) (getRound_inside hf) ?_ hr
  exact Inside.enter hW

def PutInside (W : World) : PutState → Prop
  | .entry V => Inside W V []
  | .loop v => Inside W v.world [(v.dst, .file)]

theorem putRead_inside {env : PutEnv} {v : PutVars} (h : Inside W v.world [(v.dst, .file)]) :
    (putRead env v).All (PutInside W) fun r => Inside W r.world [] := by
  unfold putRead
  split
  · exact h
  · exact h.last

theorem putRound_inside {env : PutEnv} {dst : Path} {fs : Files} {content : List UInt8}
    (hf : W.Holds f .sftp) (st : PutState) (h : PutInside W st) :
    (putRound f env dst fs content st).All (PutInside W) fun r => Inside W r.world [] := by
  cases st with
  | entry V =>
    rw [putRound]
    split
    · cases hcall : Sftp.openFile f env.openDst V with
      | mk V' ret =>
        obtain ⟨hobj, hno⟩ := Inside.openFile h hf _ hcall
        cases ret with
        | obj x => exact putRead_inside (hobj x rfl)
        | _ => exact hno fun x hx => (by cases hx)
    · exact h
  | loop v =>
    have hv : Inside W v.world [(v.dst, .file)] := h
    rw [putRound]
    split
    · simp only
      cases hcall : Sftpfile.write v.dst (writeRc (env.write v.writes) v.readBuffer) v.world with
      | mk V' ret =>
        have h' := hv.called (.fileWrite _) List.mem_cons_self hcall
        cases ret with
        | raised e => exact h'.last
        | _ => exact putRead_inside h'
    · cases hcall : Sftp.closeFile f v.dst v.world with
      | mk V' ret =>
        have h' := hv.closed hf List.mem_cons_self hcall
        cases ret with
        | raised e => exact h'.last
        | _ => exact h'.last

theorem put_inside {env : PutEnv} {dst : Path} {fs : Files} {content : List UInt8} {r : PutEnd}
    (hW : Reached W) (hf : W.Holds f .sftp) (hr : Halts (putRound f env dst fs content) (.entry W) r) :
    Inside W r.world [] := by
  refine Halts.all (PutInside W) (fun r => Inside W r.world []) (putRound_inside hf) ?_ hr
  exact Inside.enter hW

/-! ### two files -/

theorem Inside.both {v : CopyFileVars} (h : Inside W V [(v.dst, .file), (v.src, .file)]) :
    Inside W (v.leave V) [] := by
  have h1 : Inside W (PyLibssh2.leave v.src V) [(v.dst, .file)] := h.leave (List.Perm.swap _ _ _)
  exact h1.last

def CopyFileInside (W : World) : CopyFileState → Prop
  | .entry V => Inside W V []
  | .loop v => Inside W v.world [(v.dst, .file), (v.src, .file)]

theorem copyFileEnd_inside {env : CopyFileEnv} {v : CopyFileVars} {buf : List UInt8}
    (hf : W.Holds f .sftp) (h : Inside W v.world [(v.dst, .file), (v.src, .file)]) :
    Inside W (copyFileEnd f env v buf).world [] := by
  unfold copyFileEnd
  split
  · exact h.both
  split
  · next heq => exact (h.called (.fileWrite _) List.mem_cons_self heq).both
  next heq =>
  have h1 := h.called (.fileWrite _) List.mem_cons_self heq
  split
  · next heq => exact (h1.closed hf (List.mem_cons_of_mem _ List.mem_cons_self) heq).both
  next heq =>
  have h2 := h1.closed hf (List.mem_cons_of_mem _ List.mem_cons_self) heq
  cases hdst : Sftp.closeFile f v.dst _ with
  | mk V' ret => exact (h2.closed hf List.mem_cons_self hdst).both

theorem copyFileRound_inside {env : CopyFileEnv} {src dst : Path} {fs : Files} (hf : W.Holds f .sftp)
    (st : CopyFileState) (h : CopyFileInside W st) :
    (copyFileRound f env src dst fs st).All (CopyFileInside W) fun r => Inside W r.world [] := by
  cases st with
  | entry V =>
    rw [copyFileRound]
    cases hcall : Sftp.openFile f env.openSrc V with
    | mk V' ret =>
      obtain ⟨hobj, hno⟩ := Inside.openFile h hf _ hcall
      cases ret with
      | obj x =>
        have h' := hobj x rfl
        simp only
        cases hcall' : Sftp.openFile f env.openDst V' with
        | mk V'' ret' =>
          obtain ⟨hobj', hno'⟩ := h'.openFile hf _ hcall'
          cases ret' with
          | obj y => exact hobj' y rfl
          | _ => exact Inside.last (hno' fun y hy => (by cases hy))
      | _ => exact hno fun x hx => (by cases hx)
  | loop v =>
    have hv : Inside W v.world [(v.dst, .file), (v.src, .file)] := h
    rw [copyFileRound]
    cases hcall : Sftpfile.read v.src (readRc (env.read v.st.reads) bufferMaxlen v.st.rest) v.world with
    | mk V' ret =>
      have h' := hv.fileRead (List.mem_cons_of_mem _ List.mem_cons_self) _ hcall
      cases ret with
      | raised e => exact copyFileEnd_inside hf h'
      | _ =>
        cases readRound env.answer v.st with
        | next st => exact h'
        | stop buf => exact copyFileEnd_inside hf h'

theorem copyFile_inside {env : CopyFileEnv} {src dst : Path} {fs : Files} {r : CopyFileEnd}
    (hW : Reached W) (hf : W.Holds f .sftp) (hr : Halts (copyFileRound f env src dst fs) (.entry W) r) :
    Inside W r.world [] := by
  refine Halts.all (CopyFileInside W) (fun r => Inside W r.world []) (copyFileRound_inside hf) ?_ hr
  exact Inside.enter hW

/-! ### channels -/

theorem Inside.closedChannel (h : Inside W V [(c, .channel)]) (hs : W.Holds s .session) :
    Inside W (PyLibssh2.leave c (Session.channelClose s c V).1) [] :=
  Inside.last (h.channelClose hs List.mem_cons_self)

def SendFileInside (W : World) : SendFileState → Prop
  | .entry V => Inside W V []
  | .loop v => Inside W v.world [(v.channel, .channel)]

theorem sendFileEnd_inside {env : SendFileEnv} {v : SendFileVars} (hs : W.Holds s .session)
    (h : Inside W v.world [(v.channel, .channel)]) : Inside W (sendFileEnd s env v).world [] := by
  unfold sendFileEnd
  split
  · next heq => exact Inside.last (h.called (.flush _) List.mem_cons_self heq)
  next heq =>
  have h1 := h.called (.flush _) List.mem_cons_self heq
  split
  · next heq => exact Inside.last (h1.called (.sendEof _) List.mem_cons_self heq)
  next heq =>
  have h2 := h1.called (.sendEof _) List.mem_cons_self heq
  split
  · next heq => exact Inside.last (h2.called (.waitEof _) List.mem_cons_self heq)
  next heq =>
  have h3 := h2.called (.waitEof _) List.mem_cons_self heq
  split
  · next heq => exact Inside.last (h3.called (.waitClosed _) List.mem_cons_self heq)
  next heq => exact Inside.closedChannel (h3.called (.waitClosed _) List.mem_cons_self heq) hs

theorem sendFileNext_inside {env : SendFileEnv} {v : SendFileVars}
    (h : Inside W v.world [(v.channel, .channel)]) :
    (sendFileNext env v).All (SendFileInside W) fun r => Inside W r.world [] := by
  unfold sendFileNext
  simp only
  split
  · exact h
  · split
    · split
      · exact h
      · exact h.last
    · exact h

theorem sendFileRound_inside {env : SendFileEnv} {content : List UInt8} (hs : W.Holds s .session)
    (st : SendFileState) (h : SendFileInside W st) :
    (sendFileRound s env content st).All (SendFileInside W) fun r => Inside W r.world [] := by
  cases st with
  | entry V =>
    have hV : Inside W V [] := h
    have hands := hands_scpSend (hV.start.leads hV.leads).young s env.openChannel
    have ha : Enabled V (.scpSend s env.openChannel) := hV.keeps s .session hs
    rw [sendFileRound]
    split
    · exact hV
    split
    · split
      · cases hcall : Session.scpSend s env.openChannel V with
        | mk V' ret =>
          obtain ⟨hobj, hno⟩ := hV.openChannel ha trivial hands hcall
          cases ret with
          | obj c =>
            have h' := hobj c rfl
            simp only
            split
            · exact h'
            · exact h'.last
          | _ => exact hno fun x hx => (by cases hx)
      · exact hV
    · exact hV
  | loop v =>
    have hv : Inside W v.world [(v.channel, .channel)] := h
    rw [sendFileRound]
    split
    · split
      · next heq => exact Inside.last (hv.called (.write _) List.mem_cons_self heq)
      · next heq => exact sendFileNext_inside (hv.called (.write _) List.mem_cons_self heq)
    · exact sendFileEnd_inside hs hv

theorem sendFile_inside {env : SendFileEnv} {content : List UInt8} {r : SendFileEnd} (hW : Reached W)
    (hs : W.Holds s .session) (hr : Halts (sendFileRound s env content) (.entry W) r) :
    Inside W r.world [] := by
  refine Halts.all (SendFileInside W) (fun r => Inside W r.world []) (sendFileRound_inside hs) ?_ hr
  exact Inside.enter hW

def RecvFileInside (W : World) : RecvFileState → Prop
  | .entry V => Inside W V []
  | .loop c st => Inside W st.world [(c, .channel)]

theorem recvFileExcept_inside {env : RecvFileEnv} {e : Raised} (hs : W.Holds s .session)
    (h : Inside W V [(c, .channel)]) : Inside W (recvFileExcept s c env e V).world [] := by
  unfold recvFileExcept
  split
  · exact h.closedChannel hs
  · exact h.last

theorem recvFileRound_inside {env : RecvFileEnv} {stream : List UInt8} (hs : W.Holds s .session)
    (st : RecvFileState) (h : RecvFileInside W st) :
    (recvFileRound s env stream st).All (RecvFileInside W) fun r => Inside W r.world [] := by
  cases st with
  | entry V =>
    have hV : Inside W V [] := h
    have hands := hands_scpRecv (hV.start.leads hV.leads).young s env.openChannel
    have ha : Enabled V (.scpRecv s env.openChannel) := hV.keeps s .session hs
    rw [recvFileRound]
    cases hcall : Session.scpRecv s env.openChannel V with
    | mk V' ret =>
      obtain ⟨hobj, hno⟩ := hV.openChannel ha trivial hands hcall
      cases ret with
      | obj c =>
        have h' := hobj c rfl
        simp only
        split
        · exact h'
        · exact h'.last
      | _ => exact hno fun x hx => (by cases hx)
  | loop c st =>
    have hst : Inside W st.world [(c, .channel)] := h
    rw [recvFileRound]
    split
    · simp only
      split
      · next heq => exact recvFileExcept_inside hs (hst.called (.read _ _) List.mem_cons_self heq)
      next heq =>
      have h' := hst.called (.read _ _) List.mem_cons_self heq
      split
      · exact recvFileExcept_inside hs h'
      · exact h'
    · exact hst.closedChannel hs

theorem recvFile_inside {env : RecvFileEnv} {stream : List UInt8} {r : RecvFileEnd} (hW : Reached W)
    (hs : W.Holds s .session) (hr : Halts (recvFileRound s env stream) (.entry W) r) :
    Inside W r.world [] := by
  refine Halts.all (RecvFileInside W) (fun r => Inside W r.world []) (recvFileRound_inside hs) ?_ hr
  exact Inside.enter hW

/-! ### commands -/

def channelVar : Option Ref → Vars
  | none => []
  | some c => [(c, .channel)]

theorem Inside.unbind {channel : Option Ref} (h : Inside W V (vars ++ channelVar channel)) :
    Inside W (unbind channel V) vars := by
  cases channel with
  | none => rwa [channelVar, List.append_nil] at h
  | some c => exact h.leave (List.perm_append_singleton _ _)

theorem mvRun_inside {env : CommandEnv} {dst : Facade.Str} (hs : W.Holds s .session) (n : Nat)
    (i : Nat) (channel : Option Ref) (src : List Facade.Str) (V : World) (hn : src.length ≤ n)
    (h : Inside W V (channelVar channel)) : Inside W (mvRun s env dst i channel src V).world [] := by
  induction n generalizing i channel src V with
  | zero =>
    have hnil : src = [] := List.eq_nil_of_length_eq_zero (Nat.le_zero.mp hn)
    rw [hnil, mvRun_nil]
    exact Inside.unbind h
  | succ n ih =>
    rw [mvRun]
    split
    · have hands := hands_openSession (h.start.leads h.leads).young s (env.openChannel i)
      have ha : Enabled V (.openSession s (env.openChannel i)) := h.keeps s .session hs
      simp only
      cases hcall : Session.openSession s (env.openChannel i) V with
      | mk V' ret =>
        obtain ⟨hobj, hno⟩ := h.openChannel ha trivial hands hcall
        cases ret with
        | obj c =>
          have h1 : Inside W (unbind channel V') [(c, .channel)] := Inside.unbind (hobj c rfl)
          simp only
          split
          · next heq => exact Inside.last (h1.called (.execute _) List.mem_cons_self heq)
          next heq =>
          have h2 := h1.called (.execute _) List.mem_cons_self heq
          refine ih (i + 1) (some c) _ _ ?_ (h2.channelClose hs List.mem_cons_self)
          rw [List.length_drop]
          omega
        | _ => exact Inside.unbind (hno fun x hx => (by cases hx))
    · exact Inside.unbind h

theorem mv_inside {env : CommandEnv} {src : Facade.Src} {dst : Facade.Str} (hW : Reached W)
    (hs : W.Holds s .session) : Inside W (mv s env src dst W).world [] := by
  cases src with
  | names src => exact mvRun_inside hs src.length 0 none src W le_rfl (Inside.enter hW)
  | path p => exact Inside.enter hW

theorem rmrf_inside {env : CommandEnv} {dirPath : Facade.Str} (hW : Reached W)
    (hs : W.Holds s .session) : Inside W (rmrf s env dirPath W).world [] := by
  have hands := hands_openSession hW.young s (env.openChannel 0)
  have ha : Enabled W (.openSession s (env.openChannel 0)) := hs
  unfold rmrf
  cases hcall : Session.openSession s (env.openChannel 0) W with
  | mk V ret =>
    obtain ⟨hobj, hno⟩ := (Inside.enter hW).openChannel ha trivial hands hcall
    cases ret with
    | obj c =>
      have h1 := hobj c rfl
      simp only
      split
      · next heq => exact Inside.last (h1.called (.execute _) List.mem_cons_self heq)
      · next heq => exact Inside.closedChannel (h1.called (.execute _) List.mem_cons_self heq) hs
    | _ => exact hno fun x hx => (by cases hx)

/-! ## programs -/

/-- what a program does next: a call of the module, or of a helper with what the helper meets -/
inductive Deed
  | call (act : Act)
  | get (f : Ref) (env : GetEnv) (content : List UInt8)
  | put (f : Ref) (env : PutEnv) (dst : Path) (fs : Files) (content : List UInt8)
  | copyFile (f : Ref) (env : CopyFileEnv) (src dst : Path) (fs : Files)
  | scpSendFile (s : Ref) (env : SendFileEnv) (content : List UInt8)
  | scpRecvFile (s : Ref) (env : RecvFileEnv) (stream : List UInt8)
  | mv (s : Ref) (env : CommandEnv) (src : Facade.Src) (dst : Facade.Str)
  | rmrf (s : Ref) (env : CommandEnv) (dirPath : Facade.Str)

/-- the deed leads from `W` to `V`: the program owns what it passes, and a helper ends -/
def Done (W : World) : Deed → World → Prop
  | .call act, V => StepIf Proper W act V
  | .get f env content, V =>
    W.Holds f .sftp ∧ ∃ r, Halts (getRound f env content) (.entry W) r ∧ V = r.world
  | .put f env dst fs content, V =>
    W.Holds f .sftp ∧ ∃ r, Halts (putRound f env dst fs content) (.entry W) r ∧ V = r.world
  | .copyFile f env src dst fs, V =>
    W.Holds f .sftp ∧ ∃ r, Halts (copyFileRound f env src dst fs) (.entry W) r ∧ V = r.world
  | .scpSendFile s env content, V =>
    W.Holds s .session ∧ ∃ r, Halts (sendFileRound s env content) (.entry W) r ∧ V = r.world
  | .scpRecvFile s env stream, V =>
    W.Holds s .session ∧ ∃ r, Halts (recvFileRound s env stream) (.entry W) r ∧ V = r.world
  | .mv s env src dst, V => W.Holds s .session ∧ V = (Transfer.mv s env src dst W).world
  | .rmrf s env dirPath, V => W.Holds s .session ∧ V = (Transfer.rmrf s env dirPath W).world

/-- a helper, in whatever way it ends, has made calls and given up all its references -/
theorem done_inside {d : Deed} (hW : Reached W) (h : Done W d V) (hd : ∀ act, d ≠ .call act) :
    Inside W V [] := by
  cases d with
  | call act => exact absurd rfl (hd act)
  | get f env content =>
    obtain ⟨hf, r, hr, rfl⟩ := h
    exact get_inside hW hf hr
  | put f env dst fs content =>
    obtain ⟨hf, r, hr, rfl⟩ := h
    exact put_inside hW hf hr
  | copyFile f env src dst fs =>
    obtain ⟨hf, r, hr, rfl⟩ := h
    exact copyFile_inside hW hf hr
  | scpSendFile s env content =>
    obtain ⟨hs, r, hr, rfl⟩ := h
    exact sendFile_inside hW hs hr
  | scpRecvFile s env stream =>
    obtain ⟨hs, r, hr, rfl⟩ := h
    exact recvFile_inside hW hs hr
  | mv s env src dst =>
    obtain ⟨hs, rfl⟩ := h
    exact mv_inside hW hs
  | rmrf s env dirPath =>
    obtain ⟨hs, rfl⟩ := h
    exact rmrf_inside hW hs

theorem done_leads {d : Deed} (hW : Reached W) (h : Done W d V) : Leads W V := by
  cases d with
  | call act => exact (Leads.refl W).snoc h
  | _ => exact (done_inside hW h fun act heq => (by cases heq)).leads

/-- **A program with helpers is a program.**  Whatever deeds are done one after the other, a run of single
calls, each given only what the program owns then, leads to the same state; and a helper that is called,
however it ends, leaves the program every wrapper that it had and no reference more. -/
theorem deeds_run {ds : List Deed} (hr : Trans.Run Done World.empty ds W) :
    (∃ as, Trans.Run (StepIf Proper) World.empty as W) ∧
    ∀ d V, (∀ act, d ≠ .call act) → Done W d V →
      V.held = W.held ∧ ∀ x k, W.Holds x k → V.Holds x k := by
  have hW : Reached W := by
    induction hr with
    | nil => exact ⟨[], Trans.Run.nil⟩
    | snoc _ hd ih => exact ih.leads (done_leads ih hd)
  refine ⟨hW, fun d V hd h => ?_⟩
  have hin := done_inside hW h hd
  refine ⟨?_, hin.keeps⟩
  funext y
  exact hin.held y

theorem calls_deeds {as : List Act} (hr : Trans.Run (StepIf Proper) W as V) :
    Trans.Run Done W (as.map .call) V := by
  induction hr with
  | nil => exact Trans.Run.nil
  | snoc _ hs ih =>
    rw [List.map_append]
    exact ih.snoc hs

theorem deeds_run_two : ∃ as, Trans.Run (StepIf Proper) World.empty as
    (mv 1 obedient (.names [[97], [98]]) [100] startedSession).world := by
  obtain ⟨as, hr⟩ := started_proper
  have hs : startedSession.Holds 1 .session := ⟨by decide, _, rfl, rfl⟩
  have hd : Done startedSession (.mv 1 obedient (.names [[97], [98]]) [100])
      (mv 1 obedient (.names [[97], [98]]) [100] startedSession).world := ⟨hs, rfl⟩
  exact (deeds_run ((calls_deeds hr).snoc hd)).1

end PyLibssh2.Transfer

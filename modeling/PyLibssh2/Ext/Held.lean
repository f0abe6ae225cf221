import PyLibssh2.Ext.Calls
import PyLibssh2.Ext.Use
import PyLibssh2.Ext.Young

/-!
# A wrapper that Python code holds

Code that uses the module opens a channel or a file, works with it and closes it.  `Holding` says where
the wrapper is in the meantime: it is open, a local variable refers to it, and it stands in the set of its
owner between members that were there before and members that came later.

* `openFile_cases`, `scpSend_cases`, `scpRecv_cases`  an open raises and changes no set, or gives a
  wrapper that is held;
* `Holding.negative`                                  a method that treats negative codes as errors;
* `Holding.channelClose`, `Holding.closeFile`         closing takes out this member and no other;
* `Holding.leave`, `TakenOut.leave`                   the local variable goes: a wrapper that has not been
  closed stays in the set.
-/

set_option linter.unusedSectionVars false
set_option linter.unusedVariables false

namespace PyLibssh2

open World

variable {W W' : World} {o x y s f : Ref} {k : Kind} {c e : Obj} {p arg : Ptr} {pre post : PySet}
  {a : Answer} {fn : OpenFn} {leak : Nat}

/-! ## local variables -/

/-- the local variable that refers to the wrapper goes; a channel or a file has no set to pop from -/
def leave (x : Ref) (W : World) : World := (dropRef (fun _ _ _ => 0) x W).1

theorem leave_reg (hx : W.heap x = some e) (hk : e.kind = .channel ∨ e.kind = .file) :
    (leave x W).reg = W.reg ∧ ∀ y, y ≠ x → (leave x W).heap y = W.heap y := by
  let V : World := { W with held := Function.update W.held x (W.held x - 1) }
  have hV : V.heap x = some e := hx
  have honly : Only (· = x) (fun _ _ => False) V (leave x W) := by
    show Only _ _ V (decref _ x V)
    rw [decref_of_heap _ hV]
    rcases hk with hk | hk
    · rw [hk]
      exact (deallocs_channel (b := False) (n := False)).decref_only hV hk
    · rw [hk]
      exact (deallocs_file (b := False) (n := False)).decref_only hV hk
  refine ⟨?_, fun y hy => honly.heap y hy⟩
  funext j i
  exact honly.reg j i id

/-! ## opening -/

/-- every registry but the one of kind `k` of `o` is the same -/
def Aside (o : Ref) (k : Kind) (W W' : World) : Prop :=
  ∀ j i, ¬ (j = o ∧ i = k) → W'.reg j i = W.reg j i

theorem Aside.trans {W'' : World} (h : Aside o k W W') (h' : Aside o k W' W'') : Aside o k W W'' :=
  fun j i hji => (h' j i hji).trans (h j i hji)

theorem Aside.reg_eq (h : Aside o k W W') (hr : W'.reg o k = W.reg o k) : W'.reg = W.reg := by
  funext j i
  by_cases hji : j = o ∧ i = k
  · rw [hji.1, hji.2, hr]
  · exact h j i hji

/-- the wrapper `x` of kind `k` is open, a local variable refers to it, and in the set of `o` it stands
between `pre` and `post` -/
structure Holding (o : Ref) (k : Kind) (x : Ref) (pre post : PySet) (W : World) : Prop where
  isOpen : ∃ e p, W.Open x e p ∧ e.kind = k ∧ 1 < e.refcnt ∧ W.reg o k = pre ++ (x, e.hash) :: post
  notPre : x ∉ HashSet.keys pre

structure Opened (o : Ref) (k : Kind) (x : Ref) (W W' : World) : Prop where
  holding : Holding o k x (W.reg o k) [] W'
  new : W.heap x = none
  heap : ∀ y, y ≠ x → W'.heap y = W.heap y
  aside : Aside o k W W'

/-- libssh2 gives no handle, or `PyObject_New` fails -/
def NoWrapper (a : Answer) : Prop := a.ret = none ∨ a.alloc = false

def ChannelRefused (s : Ref) (a : Answer) (W : World) : Prop := W.heap s = none ∨ NoWrapper a

def FileRefused (f : Ref) (a : Answer) (W : World) : Prop :=
  (W.heap f).bind Obj.ptr = none ∨ NoWrapper a

structure Untouched (W W' : World) : Prop where
  reg : W'.reg = W.reg
  heap : W'.heap = W.heap

theorem openWith_cases (hy : Young W) (fn : OpenFn) (arg : Ptr) (leak : Nat) (a : Answer)
    (hman : c.managed = true) (hk : c.kind ≠ .sftp) :
    (∃ W' e, openWith fn arg c leak a W = (W', .raised e) ∧ Untouched W W' ∧ NoWrapper a) ∨
    ∃ W' x, openWith fn arg c leak a W = (W', .obj x) ∧ Opened c.parent c.kind x W W' ∧
      ¬ NoWrapper a := by
  cases ha : a.ret with
  | none => exact Or.inl ⟨_, _, openWith_none ha, ⟨rfl, rfl⟩, Or.inl ha⟩
  | some addr =>
    cases hm : a.alloc with
    | false => exact Or.inl ⟨_, _, openWith_leak ha hm, ⟨rfl, rfl⟩, Or.inr hm⟩
    | true =>
      have hnew : W.fresh + 1 ∉ W.members c.parent c.kind := fun h =>
        absurd (hy.members _ _ _ h) (Nat.not_lt.mpr (Nat.le_succ _))
      have hwrap : ¬ NoWrapper a := by
        intro h
        rcases h with h | h
        · rw [ha] at h
          cases h
        · rw [hm] at h
          cases h
      obtain ⟨h1, _, h2⟩ := openWith_grows fn arg leak hnew ha hm fun h => absurd h hk
      refine Or.inr ⟨_, _, Prod.ext rfl h1,
        ⟨⟨⟨wrapper c leak addr W, ⟨W.fresh, addr⟩, ⟨?_, rfl⟩, rfl, ?_, ?_⟩, hnew⟩, ?_, ?_, ?_⟩, hwrap⟩
      · rw [h2.heap, Function.update_self]
      · show 1 < 1 + (if c.managed = true then 1 else 0) + leak
        rw [if_pos hman]
        omega
      · rw [h2.reg, if_pos ⟨hman, rfl, rfl⟩]
        rfl
      · exact hy.heap _ (Nat.le_succ _)
      · intro y hne
        rw [h2.heap, Function.update_of_ne hne]
        rfl
      · intro j i hji
        rw [h2.reg, if_neg fun h => hji h.2]
        rfl

theorem onSession_cases (hy : Young W) (fn : OpenFn) (leak : Nat) (a : Answer) :
    (∃ W' e, (onSession s W fun p => openWith fn p (child s p .channel) leak a W) = (W', .raised e) ∧
      Untouched W W' ∧ ChannelRefused s a W) ∨
    ∃ W' x, (onSession s W fun p => openWith fn p (child s p .channel) leak a W) = (W', .obj x) ∧
      Opened s .channel x W W' ∧ ¬ ChannelRefused s a W := by
  unfold onSession ChannelRefused
  cases hs : W.heap s with
  | none => exact Or.inl ⟨W, .system, rfl, ⟨rfl, rfl⟩, Or.inl rfl⟩
  | some e =>
    rcases openWith_cases (c := child s e.session .channel) hy fn e.session leak a rfl
      (fun h => by cases h) with ⟨W', x, h1, h2, h3⟩ | ⟨W', x, h1, h2, h3⟩
    · exact Or.inl ⟨W', x, h1, h2, Or.inr h3⟩
    · refine Or.inr ⟨W', x, h1, h2, fun h => ?_⟩
      rcases h with h | h
      · cases h
      · exact h3 h

theorem scpSend_cases (hy : Young W) (a : Answer) :
    (∃ W' e, Session.scpSend s a W = (W', .raised e) ∧ Untouched W W' ∧ ChannelRefused s a W) ∨
    ∃ W' x, Session.scpSend s a W = (W', .obj x) ∧ Opened s .channel x W W' ∧
      ¬ ChannelRefused s a W :=
  onSession_cases hy .scpSend 0 a

theorem scpRecv_cases (hy : Young W) (a : Answer) :
    (∃ W' e, Session.scpRecv s a W = (W', .raised e) ∧ Untouched W W' ∧ ChannelRefused s a W) ∨
    ∃ W' x, Session.scpRecv s a W = (W', .obj x) ∧ Opened s .channel x W W' ∧
      ¬ ChannelRefused s a W := by
  cases ha : a.ret with
  | some addr =>
    have heq : Session.scpRecv s a W =
        onSession s W fun p => openWith .scpRecv p (child s p .channel) 1 a W := by
      unfold Session.scpRecv
      simp only [ha]
    rw [heq]
    exact onSession_cases hy .scpRecv 1 a
  | none =>
    unfold Session.scpRecv onSession ChannelRefused
    simp only [ha]
    cases hs : W.heap s with
    | none => exact Or.inl ⟨W, .system, rfl, ⟨rfl, rfl⟩, Or.inl rfl⟩
    | some e => exact Or.inl ⟨_, .libssh2, rfl, ⟨rfl, rfl⟩, Or.inr (Or.inl ha)⟩

theorem openFile_cases (hy : Young W) (f : Ref) (a : Answer) :
    (∃ W' e, Sftp.openFile f a W = (W', .raised e) ∧ Untouched W W' ∧ FileRefused f a W) ∨
    ∃ W' x, Sftp.openFile f a W = (W', .obj x) ∧ Opened f .file x W W' ∧ ¬ FileRefused f a W := by
  unfold Sftp.openFile openHandle FileRefused
  cases hf : W.heap f with
  | none => exact Or.inl ⟨W, .system, rfl, ⟨rfl, rfl⟩, Or.inl rfl⟩
  | some e =>
    cases hp : e.ptr with
    | none => exact Or.inl ⟨W, .libssh2, by simp only [hp], ⟨rfl, rfl⟩, Or.inl hp⟩
    | some p =>
      simp only [hp]
      rcases openWith_cases (c := { child f e.session .file with sftp := some p }) hy .sftpOpen p 0 a rfl
        (fun h => by cases h) with ⟨W', e', h1, h2, h3⟩ | ⟨W', x, h1, h2, h3⟩
      · rw [h1]
        by_cases hcode : a.ret = none ∧ a.rc = errorSftpProtocol
        · exact Or.inl ⟨W'.log (.use .sftpLastError (some p)), e', by simp only [if_pos hcode],
            ⟨h2.reg, h2.heap⟩, Or.inr h3⟩
        · exact Or.inl ⟨W', e', by simp only [if_neg hcode], h2, Or.inr h3⟩
      · have hcode : ¬ (a.ret = none ∧ a.rc = errorSftpProtocol) := fun h => h3 (Or.inl h.1)
        rw [h1]
        refine Or.inr ⟨W', x, by simp only [if_neg hcode], h2, fun h => ?_⟩
        rcases h with h | h
        · rw [Option.bind_some, hp] at h
          cases h
        · exact h3 h

theorem sftp_of_not_refused (h : ¬ FileRefused f a W) : ∃ p, (W.heap f).bind Obj.ptr = some p :=
  Option.ne_none_iff_exists'.mp fun h1 => h (Or.inl h1)

theorem Opened.sftp (h : Opened f .file x W W') (hf : ∃ p, (W.heap f).bind Obj.ptr = some p) :
    ∃ p, (W'.heap f).bind Obj.ptr = some p := by
  have hfx : f ≠ x := by
    intro heq
    obtain ⟨p, hp⟩ := hf
    rw [heq, h.new] at hp
    cases hp
  rw [h.heap f hfx]
  exact hf

theorem fileRefused_congr (h : W'.heap f = W.heap f) : FileRefused f a W' ↔ FileRefused f a W := by
  rw [FileRefused, FileRefused, h]

/-! ## while it is open -/

theorem Holding.calls (h : Holding o k x pre post W) (hw : OnlyCalls W W') :
    Holding o k x pre post W' := by
  obtain ⟨cs, rfl⟩ := hw
  exact ⟨h.isOpen, h.notPre⟩

theorem Aside.calls {W'' : World} (h : Aside o k W W') (hw : OnlyCalls W' W'') : Aside o k W W'' := by
  obtain ⟨cs, rfl⟩ := hw
  exact h

theorem Holding.member (h : Holding o k x pre post W) : x ∈ W.members o k := by
  obtain ⟨e, p, _, _, _, hreg⟩ := h.isOpen
  rw [World.members, hreg, HashSet.mem_keys]
  exact ⟨e.hash, List.mem_append_right _ List.mem_cons_self⟩

theorem Holding.guarded (h : Holding o k x pre post W) (b : Body) (rc : Int) :
    ∃ W', OnlyCalls W W' ∧
      guarded b x rc W = (W', if b.fails rc = true then .raised .libssh2 else .none) := by
  obtain ⟨e, p, hx, _⟩ := h.isOpen
  exact ⟨_, onlyCalls_guarded b x rc, Prod.ext rfl (guarded_result hx)⟩

theorem Holding.negative (h : Holding o k x pre post W) (fn : UseFn) (lastError : Bool) (rc : Int) :
    ∃ W', OnlyCalls W W' ∧
      ((0 ≤ rc ∧ PyLibssh2.guarded ⟨fn, PyLibssh2.negative, lastError⟩ x rc W = (W', .none)) ∨
      (¬ 0 ≤ rc ∧
        PyLibssh2.guarded ⟨fn, PyLibssh2.negative, lastError⟩ x rc W = (W', .raised .libssh2))) := by
  obtain ⟨W', hw, hres⟩ := h.guarded ⟨fn, PyLibssh2.negative, lastError⟩ rc
  have hneg : PyLibssh2.negative rc = true ↔ ¬ 0 ≤ rc := by
    rw [PyLibssh2.negative, decide_eq_true_iff, Int.not_le]
  refine ⟨W', hw, ?_⟩
  by_cases h0 : 0 ≤ rc
  · exact Or.inl ⟨h0, hres.trans (by rw [if_neg fun h1 => hneg.mp h1 h0])⟩
  · exact Or.inr ⟨h0, hres.trans (by rw [if_pos (hneg.mpr h0)])⟩

theorem Holding.sftpRead (h : Holding f .file x pre post W) (rc : Int) :
    ∃ W', OnlyCalls W W' ∧ Sftpfile.read x rc W = (W', .none) :=
  h.guarded ⟨.sftpRead, never, false⟩ rc

theorem Holding.leave (h : Holding o k x pre post W) (hk : k = .channel ∨ k = .file) :
    x ∈ (leave x W).members o k := by
  have hm := h.member
  obtain ⟨e, p, hx, hek, _⟩ := h.isOpen
  rw [World.members, (leave_reg hx.1 (hek.symm ▸ hk)).1]
  exact hm

/-! ## closing -/

/-- the discard finds the wrapper, and it is not the last reference that goes -/
theorem Holding.discard (h : Holding o k x pre post W) (hk : k ≠ .sftp)
    (dealloc : Ref → World → World) : setDiscard (decrefBy dealloc) o k x W =
      decd x (W.setReg o k (pre ++ post)) := by
  obtain ⟨e, p, hx, hek, hr, hreg⟩ := h.isOpen
  have hh : W.hashOf x = e.hash := by rw [World.hashOf, hx.1]
  have hno : ∀ r ∈ pre, HashSet.hit W.equal x e.hash r = false := by
    intro r hr
    by_contra hhit
    have hself := hit_self_only hx.1 (hek.symm ▸ hk) (by simpa using hhit)
    exact h.notPre (hself ▸ List.mem_map_of_mem hr)
  obtain ⟨h1, h2⟩ := HashSet.discard_middle (t := post) hno
  simp only [setDiscard, hh, hreg, h1, h2]
  exact decrefBy_more (W := W.setReg o k (pre ++ post)) hx.1 (by omega)

/-- the wrapper is closed and out of the set, and nothing else has changed -/
structure TakenOut (o : Ref) (k : Kind) (x : Ref) (r : PySet) (W W' : World) : Prop where
  self : ∃ e, W'.heap x = some e ∧ e.kind = k ∧ e.ptr = none
  heap : ∀ y, y ≠ x → W'.heap y = W.heap y
  reg : W'.reg o k = r
  aside : Aside o k W W'

theorem Holding.takenOut (h : Holding o k x pre post W) (hk : k ≠ .sftp)
    (dealloc close : Ref → World → World)
    (hc : ∀ V e, V.heap x = some e → Closes close x V) :
    TakenOut o k x (pre ++ post) W (close x (setDiscard (decrefBy dealloc) o k x W)) := by
  rw [h.discard hk]
  obtain ⟨e, p, hx, hek, _⟩ := h.isOpen
  have hx' : (W.setReg o k (pre ++ post)).heap x = some e := hx.1
  have hd := heap_decd_self hx'
  have hcl := hc _ _ hd
  have hreg : ∀ j i, (close x (decd x (W.setReg o k (pre ++ post)))).reg j i =
      (W.setReg o k (pre ++ post)).reg j i := fun j i => hcl.only.reg j i id
  refine ⟨⟨{ e with refcnt := e.refcnt - 1, ptr := none }, by rw [hcl.heap, hd]; rfl, hek, rfl⟩,
    fun y hy => ?_, ?_, fun j i hji => ?_⟩
  · rw [hcl.only.heap y hy, decd, heap_modify_of_ne _ _ _ _ hy, heap_setReg]
  · rw [hreg, reg_setReg, if_pos ⟨rfl, rfl⟩]
  · rw [hreg, reg_setReg, if_neg hji]

theorem Holding.channelClose (h : Holding s .channel x pre post W) :
    TakenOut s .channel x (pre ++ post) W (Session.channelClose s x W).1 :=
  h.takenOut (by decide) channelDealloc PyLibssh2.channelClose fun _ _ hV => closes_channelClose hV

theorem Holding.closeFile (h : Holding f .file x pre post W)
    (hf : ∃ p, (W.heap f).bind Obj.ptr = some p) :
    ∃ W', Sftp.closeFile f x W = (W', .none) ∧ TakenOut f .file x (pre ++ post) W W' := by
  obtain ⟨p, hp⟩ := hf
  refine ⟨_, by rw [Sftp.closeFile, hp], ?_⟩
  exact h.takenOut (by decide) sftpfileDealloc sftpfileClose fun _ _ hV => closes_giveBack _ hV

/-- closing the wrapper that was opened last and leaving restores all registries -/
theorem TakenOut.leave {V : World} (h : TakenOut o k x (V.reg o k) W W') (hv : Aside o k V W)
    (hk : k = .channel ∨ k = .file) : (leave x W').reg = V.reg := by
  obtain ⟨e, he, hek, _⟩ := h.self
  rw [(leave_reg he (hek.symm ▸ hk)).1]
  exact (hv.trans h.aside).reg_eq h.reg

end PyLibssh2

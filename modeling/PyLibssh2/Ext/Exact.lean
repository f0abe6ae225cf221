import PyLibssh2.Ext.Ledger

/-!
# What closing a session leaves

`Session_close` pops its sets one member after the other, in the order in which `PySet_Pop` finds them.

* `Under s`               the wrappers in the sets of `s` and in the sets of its sftps;
* `Obj.after`             what becomes of one of them;
* `sessionClose_exact`    closing a session does this to the wrappers under it, empties the sets, and leaves
                          every other wrapper as it was;
* `close_any_order`       so the order in which members are popped makes no difference.
-/

set_option linter.unusedSectionVars false
set_option linter.unusedVariables false

namespace PyLibssh2

open World

variable {W W' V : World} {x y o s : Ref} {c d : Obj} {p : Ptr} {k : Kind} {E : Prop} {g : Ghost}
  {body : Ref → World → World} {f : Obj → Option Obj} {as : List Act}

/-! ## one member -/

/-- a wrapper that is closed and loses a reference, with it its deallocator may run -/
def Obj.shutDown (c : Obj) : Option Obj :=
  if c.refcnt = 1 then none else some { c with ptr := none, refcnt := c.refcnt - 1 }

/-- a file or a directory: its deallocator does nothing when the handle is gone -/
def Obj.emptied (c : Obj) : Option Obj := some { c with ptr := none, refcnt := c.refcnt - 1 }

/-- a listener is not cancelled unless its deallocator runs -/
def Obj.popped (c : Obj) : Option Obj :=
  if c.refcnt = 1 then none else some { c with refcnt := c.refcnt - 1 }

/-- `body` changes `x` as `f` says, and nothing else -/
structure Exact (body : Ref → World → World) (f : Obj → Option Obj) : Prop where
  heap : ∀ W x, (body x W).heap = Function.update W.heap x ((W.heap x).bind f)
  reg : ∀ W x, (body x W).reg = W.reg

theorem heap_none (h : W.heap x = none) (f : Obj → Option Obj) :
    W.heap = Function.update W.heap x ((W.heap x).bind f) := by
  rw [h, Option.bind_none, ← h, Function.update_eq_self]

theorem heap_channelClose (W : World) (x : Ref) :
    (channelClose x W).heap = Function.update W.heap x ((W.heap x).map fun c => { c with ptr := none }) := by
  unfold channelClose
  split
  · rfl
  · rename_i hp
    have h1 := clear_of_shut hp
    exact congrArg World.heap h1.symm

theorem reg_channelClose (W : World) (x : Ref) : (channelClose x W).reg = W.reg := by
  unfold channelClose
  split <;> rfl

theorem heap_decrefBy {dealloc : Ref → World → World}
    (hd : ((decd x W).heap x).bind Obj.ptr = none → dealloc x (decd x W) = (decd x W).del x)
    (hx : W.heap x = some c) (hp : c.ptr = none) : (decrefBy dealloc x W).heap = Function.update W.heap x c.shutDown ∧
      (decrefBy dealloc x W).reg = W.reg := by
  have hc : ({ c with ptr := none, refcnt := c.refcnt - 1 } : Obj) = { c with refcnt := c.refcnt - 1 } := by
    rw [← hp]
  by_cases h1 : c.refcnt = 1
  · have h2 : ((decd x W).heap x).bind Obj.ptr = none := by
      rw [heap_decd_self hx]
      exact hp
    rw [decrefBy_last hx h1, hd h2]
    refine ⟨?_, rfl⟩
    rw [Obj.shutDown, if_pos h1]
    show Function.update (Function.update W.heap x _) x none = _
    rw [Function.update_idem]
  · rw [decrefBy_more hx h1]
    refine ⟨?_, rfl⟩
    rw [Obj.shutDown, if_neg h1, hc]
    show Function.update W.heap x ((W.heap x).map _) = _
    rw [hx]
    rfl

theorem deallocWith_shut {close : Ref → World → World} (hx : (W.heap x).bind Obj.ptr = none) :
    deallocWith close x W = W.del x := by
  rw [deallocWith, hx]

theorem heap_clear (W : World) (x : Ref) :
    (W.clear x).heap = Function.update W.heap x ((W.heap x).map fun c => { c with ptr := none }) := rfl

theorem exact_channel : Exact (fun x W => decrefChannel x (channelClose x W)) Obj.shutDown := by
  have h1 : ∀ W x, (decrefChannel x (channelClose x W)).heap =
      Function.update W.heap x ((W.heap x).bind Obj.shutDown) ∧
      (decrefChannel x (channelClose x W)).reg = W.reg := by
    intro W x
    cases hc : W.heap x with
    | none =>
      have h2 : channelClose x W = W := by rw [channelClose, hc]; rfl
      have h3 : decrefChannel x W = W := by rw [decrefChannel, decrefBy, hc]
      rw [h2, h3]
      exact ⟨hc ▸ heap_none hc Obj.shutDown, rfl⟩
    | some c =>
      have hx : (channelClose x W).heap x = some { c with ptr := none } := by
        rw [heap_channelClose, Function.update_self, hc]
        rfl
      have hd : ((decd x (channelClose x W)).heap x).bind Obj.ptr = none →
          channelDealloc x (decd x (channelClose x W)) = (decd x (channelClose x W)).del x := deallocWith_shut
      obtain ⟨h2, h3⟩ := heap_decrefBy hd hx rfl
      rw [decrefChannel, h2, h3, reg_channelClose, heap_channelClose, Function.update_idem]
      exact ⟨rfl, rfl⟩
  exact ⟨fun W x => (h1 W x).1, fun W x => (h1 W x).2⟩

theorem handleDealloc_shut (hx : (W.heap x).bind Obj.ptr = none) : handleDealloc x W = W := by
  rw [handleDealloc, hx]

theorem decd_none (hx : W.heap x = none) : decd x W = W := by
  have h1 : Function.update W.heap x ((W.heap x).map fun c => { c with refcnt := c.refcnt - 1 }) = W.heap := by
    rw [hx, Option.map_none, ← hx, Function.update_eq_self]
  show { W with heap := Function.update W.heap x _ } = W
  rw [h1]

theorem heap_sftpdirClose (W : World) (x : Ref) : (sftpdirClose x W).heap =
    Function.update W.heap x ((W.heap x).map fun c => { c with ptr := none }) := rfl

theorem decref_closed (W : World) (x : Ref) :
    decrefBy handleDealloc x (sftpdirClose x W) = decd x (sftpdirClose x W) := by
  cases hc : (sftpdirClose x W).heap x with
  | none => rw [decd_none hc, decrefBy, hc]
  | some c =>
    by_cases h2 : c.refcnt = 1
    · have h3 : ((sftpdirClose x W).heap x).bind Obj.ptr = none := shut_clear _ x
      rw [hc] at h3
      rw [decrefBy_last hc h2, handleDealloc_shut]
      rw [heap_decd_self hc]
      exact h3
    · exact decrefBy_more hc h2

theorem exact_handle : Exact (fun x W => decrefBy handleDealloc x (sftpdirClose x W)) Obj.emptied := by
  refine ⟨fun W x => ?_, fun W x => ?_⟩
  · rw [decref_closed]
    show Function.update (sftpdirClose x W).heap x (((sftpdirClose x W).heap x).map _) = _
    rw [heap_sftpdirClose, Function.update_idem, Function.update_self]
    cases W.heap x <;> rfl
  · rw [decref_closed]
    rfl

theorem heap_deallocListener (W : World) (x : Ref) : (listenerDealloc x W).heap = Function.update W.heap x none ∧
    (listenerDealloc x W).reg = W.reg := by
  unfold listenerDealloc deallocWith
  split
  · refine ⟨?_, rfl⟩
    show Function.update (Function.update W.heap x _) x none = _
    rw [Function.update_idem]
  · exact ⟨rfl, rfl⟩

theorem exact_listener : Exact (fun x W => decrefListener x W) Obj.popped := by
  have h1 : ∀ W x, (decrefListener x W).heap = Function.update W.heap x ((W.heap x).bind Obj.popped) ∧
      (decrefListener x W).reg = W.reg := by
    intro W x
    cases hc : W.heap x with
    | none =>
      have h2 : decrefListener x W = W := by rw [decrefListener, decrefBy, hc]
      rw [h2]
      exact ⟨hc ▸ heap_none hc Obj.popped, rfl⟩
    | some c =>
      by_cases h2 : c.refcnt = 1
      · obtain ⟨h3, h4⟩ := heap_deallocListener (decd x W) x
        rw [decrefListener, decrefBy_last hc h2, h3, h4, Option.bind_some, Obj.popped, if_pos h2]
        refine ⟨?_, rfl⟩
        show Function.update (Function.update W.heap x _) x none = _
        rw [Function.update_idem]
      · rw [decrefListener, decrefBy_more hc h2, Option.bind_some, Obj.popped, if_neg h2]
        refine ⟨?_, rfl⟩
        show Function.update W.heap x ((W.heap x).map _) = _
        rw [hc]
        rfl
  exact ⟨fun W x => (h1 W x).1, fun W x => (h1 W x).2⟩

/-! ## a loop over a set of wrappers that have no sets -/

theorem members_popped_self : (popped o k x W).members o k = HashSet.keys (HashSet.drop x (W.reg o k)) := by
  rw [popped, members_setReg, if_pos ⟨rfl, rfl⟩]

theorem Exact.drain (hb : Exact body f) {pick : Nat → Nat} (n : Nat) (W : World)
    (hnd : (W.members o k).Nodup) (hn : (W.reg o k).length = n) :
    (∀ y, (drain body o k pick n W).heap y =
      if y ∈ W.members o k then (W.heap y).bind f else W.heap y) ∧
    (drain body o k pick n W).reg = (W.setReg o k []).reg := by
  induction n generalizing W with
  | zero =>
    have hnil : W.reg o k = [] := List.length_eq_zero_iff.mp hn
    refine ⟨fun y => ?_, ?_⟩
    · rw [if_neg fun h => ?_]
      · rfl
      · rw [World.members, hnil] at h
        exact absurd h List.not_mem_nil
    · rw [setReg_nil hnil]
      rfl
  | succ n ih =>
    have hne : W.reg o k ≠ [] := fun h => by
      rw [h] at hn
      cases hn
    obtain ⟨x, hx⟩ := HashSet.popKey_isSome (n := pick n) hne
    have hmem : x ∈ W.members o k := HashSet.popKey_mem hx
    have hreg : (body x (popped o k x W)).reg = (popped o k x W).reg := hb.reg _ x
    have hmem' : (body x (popped o k x W)).members o k = HashSet.keys (HashSet.drop x (W.reg o k)) := by
      unfold World.members
      rw [hreg]
      exact members_popped_self
    have hlen : ((body x (popped o k x W)).reg o k).length = n := by
      have := HashSet.length_drop hnd hmem
      rw [hreg, reg_popped_self]
      omega
    rw [drain_pop hx]
    obtain ⟨h1, h2⟩ := ih _ (hmem' ▸ HashSet.nodup_keys_drop hnd) hlen
    refine ⟨fun y => ?_, ?_⟩
    · rw [h1 y, hmem']
      simp only [HashSet.mem_keys_drop]
      rw [hb.heap]
      by_cases hyx : y = x
      · subst hyx
        rw [if_neg fun h => h.2 rfl, Function.update_self, if_pos hmem]
        rfl
      · rw [Function.update_of_ne hyx]
        by_cases hy : y ∈ W.members o k
        · rw [if_pos ⟨hy, hyx⟩, if_pos hy]
          rfl
        · rw [if_neg fun h => hy h.1, if_neg hy]
          rfl
    · rw [h2]
      funext o' k'
      rw [reg_setReg, reg_setReg, hreg, popped, reg_setReg]
      split <;> rfl

theorem Exact.drainAll (hb : Exact body f) (pick : Pick) (W : World) (hnd : (W.members o k).Nodup) :
    (∀ y, (drainAll body o k pick W).heap y =
      if y ∈ W.members o k then (W.heap y).bind f else W.heap y) ∧
    (drainAll body o k pick W).reg = (W.setReg o k []).reg := hb.drain _ W hnd rfl

/-! ## sftps -/

/-- a wrapper is in one set at most, and the sets of an sftp that is shut down are empty -/
structure Forest (W : World) : Prop where
  nodup : ∀ o k, (W.members o k).Nodup
  single : ∀ o k o' k' x, x ∈ W.members o k → x ∈ W.members o' k' → o = o' ∧ k = k'
  sftps : ∀ o x k, x ∈ W.members o .sftp → (W.heap x).bind Obj.ptr = none → W.reg x k = []

/-- a file or a directory of the sftp `x` -/
def World.Within (W : World) (x y : Ref) : Prop := y ∈ W.members x .dir ∨ y ∈ W.members x .file

instance : Decidable (W.Within x y) := instDecidableOr

theorem Forest.not_within (h : Forest W) (hx : x ∈ W.members o .sftp) {z : Ref} : ¬ W.Within z x := by
  intro h1
  rcases h1 with h1 | h1
  · cases (h.single _ _ _ _ x hx h1).2
  · cases (h.single _ _ _ _ x hx h1).2

theorem members_of_reg {r : World} (h : W.reg = r.reg) : W.members = r.members := by
  unfold World.members
  rw [h]

theorem sftpShutdown_exact (pick : Pick) (h : Forest W) (hno : ¬ W.Within x x)
    (hshut : (W.heap x).bind Obj.ptr = none → ∀ k, W.reg x k = []) :
    (∀ y, (sftpShutdown pick x W).heap y = if y = x then (W.heap x).map fun c => { c with ptr := none }
      else if W.Within x y then (W.heap y).bind Obj.emptied else W.heap y) ∧
    (sftpShutdown pick x W).reg = ((W.setReg x .dir []).setReg x .file []).reg := by
  cases hp : (W.heap x).bind Obj.ptr with
  | none =>
    have h1 : sftpShutdown pick x W = W := by rw [sftpShutdown, hp]
    have hnil := hshut hp
    rw [h1]
    refine ⟨fun y => ?_, ?_⟩
    · by_cases hyx : y = x
      · rw [if_pos hyx, hyx]
        have h2 := congrFun (congrArg World.heap (clear_of_shut hp)) x
        rw [heap_clear, Function.update_self] at h2
        exact h2.symm
      · have hno' : ¬ W.Within x y := by
          unfold World.Within World.members
          rw [hnil, hnil]
          intro h2
          rcases h2 with h2 | h2 <;> exact absurd h2 List.not_mem_nil
        rw [if_neg hyx, if_neg hno']
    · rw [setReg_nil (hnil .dir), setReg_nil (hnil .file)]
  | some p =>
    obtain ⟨h1, h2⟩ := Exact.drainAll exact_handle pick W (h.nodup x .dir)
    have hm := members_of_reg h2
    have hfile : (drainAll (fun x W => decrefDir x (sftpdirClose x W)) x .dir pick W).members x .file =
        W.members x .file := by
      show (drainAll (fun x W => decrefBy handleDealloc x (sftpdirClose x W)) x .dir pick W).members _ _ = _
      rw [hm, members_setReg, if_neg fun h3 => (by cases h3.2)]
    obtain ⟨h3, h4⟩ := Exact.drainAll exact_handle pick
      (drainAll (fun x W => decrefDir x (sftpdirClose x W)) x .dir pick W) (o := x) (k := .file)
      (hfile ▸ h.nodup x .file)
    have hcalc : sftpShutdown pick x W = ((drainAll (fun x W => decrefBy handleDealloc x (sftpdirClose x W)) x .file
        pick (drainAll (fun x W => decrefDir x (sftpdirClose x W)) x .dir pick W)).log
          (.free .sftpShutdown (some p))).clear x := by
      rw [sftpShutdown, hp]
      rfl
    rw [hcalc]
    refine ⟨fun y => ?_, ?_⟩
    · rw [heap_clear, heap_log]
      have hy := h3 y
      simp only [hfile] at hy
      by_cases hyx : y = x
      · subst hyx
        rw [Function.update_self, if_pos rfl, hy, if_neg fun h5 => hno (Or.inr h5)]
        exact congrArg _ ((h1 y).trans (if_neg fun h5 => hno (Or.inl h5)))
      · rw [Function.update_of_ne hyx, if_neg hyx, hy]
        by_cases hf : y ∈ W.members x .file
        · have hd : y ∉ W.members x .dir := fun h5 => by cases (h.single _ _ _ _ y hf h5).2
          have hw : W.Within x y := Or.inr hf
          rw [if_pos hf, if_pos hw]
          exact congrArg (·.bind Obj.emptied) ((h1 y).trans (if_neg hd))
        · rw [if_neg hf]
          apply (h1 y).trans
          by_cases hd : y ∈ W.members x .dir
          · have hw : W.Within x y := Or.inl hd
            rw [if_pos hd, if_pos hw]
          · have hw : ¬ W.Within x y := fun h5 => h5.elim hd hf
            rw [if_neg hd, if_neg hw]
    · show (drainAll _ x .file pick _).reg = _
      rw [h4]
      funext o' k'
      rw [reg_setReg, reg_setReg]
      split
      · rfl
      · exact congrFun (congrFun h2 o') k'

theorem decrefSftp_shut (pick : Pick) (hx : W.heap x = some c) (hp : c.ptr = none) (hd : W.reg x .dir = [])
    (hf : W.reg x .file = []) : (decrefSftp pick x W).heap = Function.update W.heap x c.shutDown ∧
      (decrefSftp pick x W).reg = W.reg := by
  refine heap_decrefBy (fun h1 => ?_) hx hp
  have h2 : sftpShutdown pick x (decd x W) = decd x W := by rw [sftpShutdown, h1]
  have hd' : (decd x W).reg x .dir = [] := hd
  have hf' : (decd x W).reg x .file = [] := hf
  rw [sftpDealloc_eq, h2, decrefSet_nil hd', decrefSet_nil hf']

/-- what becomes of a wrapper when the sftps in `D` are shut down and lose a reference -/
def World.shutHeap (W : World) (D : List Ref) (y : Ref) : Option Obj :=
  if y ∈ D then (W.heap y).bind Obj.shutDown
  else if ∃ x ∈ D, W.Within x y then (W.heap y).bind Obj.emptied else W.heap y

def World.shutReg (W : World) (D : List Ref) (o : Ref) (k : Kind) : PySet :=
  if o ∈ D ∧ (k = .dir ∨ k = .file) then [] else W.reg o k

theorem sftp_round_exact (pick : Pick) (h : Forest W) (hno : ¬ W.Within x x)
    (hshut : (W.heap x).bind Obj.ptr = none → ∀ k, W.reg x k = []) :
    (decrefSftp pick x (sftpShutdown pick x W)).heap = W.shutHeap [x] ∧
    (decrefSftp pick x (sftpShutdown pick x W)).reg = W.shutReg [x] := by
  obtain ⟨h1, h2⟩ := sftpShutdown_exact pick h hno hshut
  have hreg : ∀ k, k = .dir ∨ k = .file → (sftpShutdown pick x W).reg x k = [] := by
    intro k hk
    rw [h2, reg_setReg, reg_setReg]
    rcases hk with rfl | rfl
    · rw [if_neg fun h3 => (by cases h3.2), if_pos ⟨rfl, rfl⟩]
    · rw [if_pos ⟨rfl, rfl⟩]
  have hregs : (sftpShutdown pick x W).reg = W.shutReg [x] := by
    rw [h2]
    funext o' k'
    rw [reg_setReg, reg_setReg]
    unfold World.shutReg
    by_cases ho : o' = x
    · subst ho
      cases k' <;> simp
    · simp [ho]
  cases hc : W.heap x with
  | none =>
    have h3 : (sftpShutdown pick x W).heap x = none := by rw [h1 x, if_pos rfl, hc]; rfl
    have h4 : decrefSftp pick x (sftpShutdown pick x W) = sftpShutdown pick x W := by
      rw [decrefSftp, decrefBy, h3]
    rw [h4]
    refine ⟨?_, hregs⟩
    funext y
    rw [h1 y, World.shutHeap]
    by_cases hyx : y = x
    · rw [if_pos hyx, if_pos (by rw [hyx]; exact List.mem_cons_self), hyx, hc]
      rfl
    · simp [hyx]
  | some c =>
    have h3 : (sftpShutdown pick x W).heap x = some { c with ptr := none } := by
      rw [h1 x, if_pos rfl, hc]
      rfl
    obtain ⟨h4, h5⟩ := decrefSftp_shut pick h3 rfl (hreg .dir (Or.inl rfl)) (hreg .file (Or.inr rfl))
    rw [h4, h5]
    refine ⟨?_, hregs⟩
    funext y
    by_cases hyx : y = x
    · rw [hyx, Function.update_self, World.shutHeap, if_pos List.mem_cons_self, hc]
      rfl
    · rw [Function.update_of_ne hyx, h1 y, World.shutHeap]
      simp [hyx]

/-! ### the loop over the sftps of a session -/

structure Turn (s x : Ref) (W V : World) : Prop where
  heap : ∀ y, V.heap y = W.shutHeap [x] y
  reg : ∀ o k, V.reg o k = if o = s ∧ k = .sftp then HashSet.drop x (W.reg s .sftp) else W.shutReg [x] o k

theorem forest_popped (h : Forest W) : Forest (popped o k x W) := by
  have hsub : ∀ o' k' y, y ∈ (popped o k x W).members o' k' → y ∈ W.members o' k' :=
    fun o' k' y hy => (mem_popped.mp hy).1
  refine ⟨fun o' k' => ?_, fun o₁ k₁ o₂ k₂ y h1 h2 => h.single _ _ _ _ y (hsub _ _ _ h1) (hsub _ _ _ h2),
    fun o' y k' hy hp => ?_⟩
  · by_cases ho : o' = o ∧ k' = k
    · rw [ho.1, ho.2, members_popped_self]
      exact HashSet.nodup_keys_drop (h.nodup o k)
    · rw [popped, members_setReg, if_neg ho]
      exact h.nodup o' k'
  · have hnil := h.sftps o' y k' (hsub _ _ _ hy) hp
    rw [popped, reg_setReg]
    split
    · rename_i h1
      rw [h1.1, h1.2] at hnil
      rw [hnil]
      rfl
    · exact hnil

theorem within_popped : (popped s .sftp x W).Within y o ↔ W.Within y o := by
  unfold World.Within
  rw [popped, members_setReg, members_setReg, if_neg fun h => (by cases h.2), if_neg fun h => (by cases h.2)]

theorem round_exact (pick : Pick) (h : Forest W) (hx : x ∈ W.members s .sftp) :
    Turn s x W (decrefSftp pick x (sftpShutdown pick x (popped s .sftp x W))) := by
  have hno : ¬ (popped s .sftp x W).Within x x := fun h1 => h.not_within hx (within_popped.mp h1)
  obtain ⟨h1, h2⟩ := sftp_round_exact pick (forest_popped (o := s) (k := .sftp) (x := x) h) hno fun hp k => by
    have hnil := h.sftps s x k hx hp
    rw [popped, reg_setReg]
    split
    · rename_i h3
      rw [h3.1, h3.2] at hnil
      rw [hnil]
      rfl
    · exact hnil
  refine ⟨fun y => ?_, fun o k => ?_⟩
  · rw [h1]
    unfold World.shutHeap
    simp only [within_popped]
    rfl
  · rw [h2]
    unfold World.shutReg
    by_cases ho : o = s ∧ k = .sftp
    · rw [if_neg fun h3 => ?_, if_pos ho, ho.1, ho.2, reg_popped_self]
      rw [ho.2] at h3
      rcases h3.2 with h4 | h4 <;> cases h4
    · rw [if_neg ho, popped, reg_setReg, if_neg ho]

theorem Turn.members (hr : Turn s x W V) (o : Ref) (k : Kind) :
    y ∈ V.members o k → y ∈ W.members o k := by
  intro hy
  unfold World.members at hy
  rw [hr.reg] at hy
  split at hy
  · rename_i h1
    rw [h1.1, h1.2]
    exact (HashSet.mem_keys_drop.mp hy).1
  · unfold World.shutReg at hy
    split at hy
    · exact absurd hy List.not_mem_nil
    · exact hy

theorem Turn.heap_other (hr : Turn s x W V) (hyx : y ≠ x) (hno : ¬ W.Within x y) : V.heap y = W.heap y := by
  rw [hr.heap, World.shutHeap, if_neg (by simpa using hyx), if_neg (by simpa using hno)]

theorem Turn.members_sftp (hr : Turn s x W V) :
    V.members s .sftp = HashSet.keys (HashSet.drop x (W.reg s .sftp)) := by
  unfold World.members
  rw [hr.reg, if_pos ⟨rfl, rfl⟩]

theorem Turn.within (hr : Turn s x W V) (hyx : y ≠ x) {z : Ref} : V.Within y z ↔ W.Within y z := by
  have h1 : ∀ k, k = .dir ∨ k = .file → V.members y k = W.members y k := by
    intro k hk
    have hne : ¬ (y = s ∧ k = .sftp) := by
      rintro ⟨_, rfl⟩
      rcases hk with h2 | h2 <;> cases h2
    unfold World.members
    rw [hr.reg, if_neg hne, World.shutReg, if_neg fun h2 => hyx (List.mem_singleton.mp h2.1)]
  unfold World.Within
  rw [h1 .dir (Or.inl rfl), h1 .file (Or.inr rfl)]

theorem Turn.forest (hr : Turn s x W V) (h : Forest W) (hx : x ∈ W.members s .sftp) : Forest V := by
  refine ⟨fun o k => ?_, fun o₁ k₁ o₂ k₂ y h1 h2 =>
    h.single _ _ _ _ y (hr.members _ _ h1) (hr.members _ _ h2), fun o y k hy hp => ?_⟩
  · unfold World.members
    rw [hr.reg]
    split
    · exact HashSet.nodup_keys_drop (h.nodup s .sftp)
    · unfold World.shutReg
      split
      · exact List.nodup_nil
      · exact h.nodup o k
  · have hyW := hr.members _ _ hy
    have hyx : y ≠ x := by
      rintro rfl
      have ho := (h.single _ _ _ _ y hyW hx).1
      rw [ho, hr.members_sftp] at hy
      exact (HashSet.mem_keys_drop.mp hy).2 rfl
    rw [hr.heap_other hyx (h.not_within hyW)] at hp
    have hnil := h.sftps o y k hyW hp
    rw [hr.reg]
    split
    · rename_i h1
      rw [h1.1, h1.2] at hnil
      rw [hnil]
      rfl
    · unfold World.shutReg
      split
      · rfl
      · exact hnil

/-- the rounds for the other members, then the round for `x` seen from the start -/
theorem Turn.shutHeap (hr : Turn s x W V) (h : Forest W) (hx : x ∈ W.members s .sftp) (y : Ref) :
    V.shutHeap (V.members s .sftp) y = W.shutHeap (W.members s .sftp) y := by
  have hmem : ∀ z, z ∈ V.members s .sftp ↔ z ∈ W.members s .sftp ∧ z ≠ x := fun z => by
    rw [hr.members_sftp]
    exact HashSet.mem_keys_drop
  have hex : (∃ z ∈ V.members s .sftp, V.Within z y) ↔ ∃ z ∈ W.members s .sftp, z ≠ x ∧ W.Within z y := by
    constructor
    · rintro ⟨z, hz, hw⟩
      obtain ⟨h1, h2⟩ := (hmem z).mp hz
      exact ⟨z, h1, h2, (hr.within h2).mp hw⟩
    · rintro ⟨z, hz, h2, hw⟩
      exact ⟨z, (hmem z).mpr ⟨hz, h2⟩, (hr.within h2).mpr hw⟩
  by_cases hyD : y ∈ W.members s .sftp
  · rw [World.shutHeap, World.shutHeap, if_pos hyD]
    by_cases hyx : y = x
    · have h1 : ¬ y ∈ V.members s .sftp := fun h2 => ((hmem y).mp h2).2 hyx
      rw [if_neg h1, if_neg fun h2 => ?_, hr.heap, World.shutHeap, if_pos (by simp [hyx])]
      obtain ⟨z, _, _, hw⟩ := hex.mp h2
      exact h.not_within hyD hw
    · rw [if_pos ((hmem y).mpr ⟨hyD, hyx⟩), hr.heap_other hyx (h.not_within hyD)]
  · have h1 : ¬ y ∈ V.members s .sftp := fun h2 => hyD ((hmem y).mp h2).1
    have hyx : y ≠ x := fun h2 => hyD (h2 ▸ hx)
    rw [World.shutHeap, World.shutHeap, if_neg hyD, if_neg h1]
    by_cases hz : ∃ z ∈ W.members s .sftp, z ≠ x ∧ W.Within z y
    · obtain ⟨z, hzD, hzx, hw⟩ := hz
      have hnx : ¬ W.Within x y := by
        intro h2
        rcases hw with hw | hw <;> rcases h2 with h2 | h2 <;> exact hzx (h.single _ _ _ _ y hw h2).1
      rw [if_pos (hex.mpr ⟨z, hzD, hzx, hw⟩), if_pos ⟨z, hzD, hw⟩, hr.heap_other hyx hnx]
    · rw [if_neg fun h2 => hz (hex.mp h2)]
      by_cases hw : W.Within x y
      · rw [if_pos ⟨x, hx, hw⟩, hr.heap, World.shutHeap, if_neg (by simpa using hyx), if_pos (by simpa using hw)]
      · rw [hr.heap_other hyx hw, if_neg]
        rintro ⟨z, hzD, hw'⟩
        by_cases hzx : z = x
        · exact hw (hzx ▸ hw')
        · exact hz ⟨z, hzD, hzx, hw'⟩

theorem sftps_exact (pick : Pick) {pick' : Nat → Nat} (n : Nat) (W : World) (h : Forest W)
    (hn : (W.reg s .sftp).length = n) :
    (∀ y, (drain (fun x W => decrefSftp pick x (sftpShutdown pick x W)) s .sftp pick' n W).heap y =
      W.shutHeap (W.members s .sftp) y) ∧
    ∀ o k, (drain (fun x W => decrefSftp pick x (sftpShutdown pick x W)) s .sftp pick' n W).reg o k =
      if o = s ∧ k = .sftp then [] else W.shutReg (W.members s .sftp) o k := by
  induction n generalizing W with
  | zero =>
    have hnil : W.reg s .sftp = [] := List.length_eq_zero_iff.mp hn
    have hmem : W.members s .sftp = [] := by
      unfold World.members
      rw [hnil]
      rfl
    refine ⟨fun y => ?_, fun o k => ?_⟩
    · rw [hmem, World.shutHeap, if_neg List.not_mem_nil, if_neg (by simp)]
      rfl
    · have h0 : W.shutReg [] o k = W.reg o k := if_neg fun h1 => absurd h1.1 List.not_mem_nil
      rw [hmem, h0]
      split
      · rename_i h1
        rw [h1.1, h1.2]
        exact hnil
      · rfl
  | succ n ih =>
    have hne : W.reg s .sftp ≠ [] := fun h1 => by
      rw [h1] at hn
      cases hn
    obtain ⟨x, hx⟩ := HashSet.popKey_isSome (n := pick' n) hne
    have hmem : x ∈ W.members s .sftp := HashSet.popKey_mem hx
    have hr := round_exact pick h hmem
    have hlen : ((decrefSftp pick x (sftpShutdown pick x (popped s .sftp x W))).reg s .sftp).length = n := by
      have := HashSet.length_drop (h.nodup s .sftp) hmem
      rw [hr.reg, if_pos ⟨rfl, rfl⟩]
      omega
    rw [drain_pop hx]
    obtain ⟨h1, h2⟩ := ih _ (hr.forest h hmem) hlen
    refine ⟨fun y => (h1 y).trans (hr.shutHeap h hmem y), fun o k => ?_⟩
    rw [h2 o k]
    by_cases ho : o = s ∧ k = .sftp
    · rw [if_pos ho, if_pos ho]
    · rw [if_neg ho, if_neg ho]
      unfold World.shutReg
      rw [hr.reg, if_neg ho, hr.members_sftp]
      simp only [HashSet.mem_keys_drop, World.shutReg, List.mem_singleton]
      show (if (o ∈ W.members s .sftp ∧ o ≠ x) ∧ _ then _ else _) = _
      by_cases hox : o = x
      · subst hox
        by_cases hk : k = .dir ∨ k = .file
        · simp [hk, hmem]
        · simp [hk]
      · simp [hox]

/-! ## sessions -/

/-- the wrappers in the sets of the session `s` and in the sets of its sftps -/
def World.Under (W : World) (s x : Ref) : Prop :=
  x ∈ W.members s .sftp ∨ (∃ f ∈ W.members s .sftp, W.Within f x) ∨ x ∈ W.members s .channel ∨
    x ∈ W.members s .listener

instance : Decidable (W.Under s x) := instDecidableOr

/-- what closing a session makes of a wrapper under it -/
def Obj.after (c : Obj) : Option Obj :=
  match c.kind with
  | .channel => c.shutDown
  | .sftp => c.shutDown
  | .file => c.emptied
  | .dir => c.emptied
  | .listener => c.popped
  | .session => some c

theorem bind_congr {g : Obj → Option Obj} (h : ∀ c, W.heap y = some c → f c = g c) :
    (W.heap y).bind f = (W.heap y).bind g := by
  cases hc : W.heap y with
  | none => rfl
  | some c => exact h c hc

theorem after_of_kind {g : Obj → Option Obj} (hk : W.Is y k) (hg : ∀ c : Obj, c.kind = k → c.after = g c) :
    (W.heap y).bind g = (W.heap y).bind Obj.after := bind_congr fun c hc => (hg c (hk c hc)).symm

theorem closeAll_exact (pick : Pick) (h : Forest W) (hk : ∀ o k x, x ∈ W.members o k → W.Is x k) :
    (∀ y, (closeAll pick s W).heap y = if W.Under s y then (W.heap y).bind Obj.after else W.heap y) ∧
    ∀ o k, (closeAll pick s W).reg o k =
      if o = s ∧ (k = .sftp ∨ k = .channel ∨ k = .listener) then [] else W.shutReg (W.members s .sftp) o k := by
  obtain ⟨h1, h2⟩ : (∀ y, (drainAll (fun x W => decrefSftp pick x (sftpShutdown pick x W)) s .sftp pick W).heap y =
      W.shutHeap (W.members s .sftp) y) ∧
    ∀ o k, (drainAll (fun x W => decrefSftp pick x (sftpShutdown pick x W)) s .sftp pick W).reg o k =
      if o = s ∧ k = .sftp then [] else W.shutReg (W.members s .sftp) o k := sftps_exact pick _ W h rfl
  generalize hV : drainAll (fun x W => decrefSftp pick x (sftpShutdown pick x W)) s .sftp pick W = V at h1 h2
  have hset : ∀ k, k ≠ .sftp → k ≠ .dir → k ≠ .file → V.members s k = W.members s k := by
    intro k hs hd hf
    unfold World.members
    rw [h2, if_neg fun h3 => hs h3.2, World.shutReg, if_neg]
    rintro ⟨_, h3 | h3⟩
    · exact hd h3
    · exact hf h3
  have hch := hset .channel (by decide) (by decide) (by decide)
  have hli := hset .listener (by decide) (by decide) (by decide)
  obtain ⟨h3, h4⟩ := exact_channel.drainAll pick V (o := s) (k := .channel) (hch ▸ h.nodup s .channel)
  generalize hU : drainAll (fun x W => decrefChannel x (channelClose x W)) s .channel pick V = U at h3 h4
  have hli' : U.members s .listener = W.members s .listener := by
    rw [members_of_reg h4, members_setReg, if_neg fun h5 => (by cases h5.2), hli]
  obtain ⟨h5, h6⟩ := exact_listener.drainAll pick U (o := s) (k := .listener) (hli' ▸ h.nodup s .listener)
  have hall : closeAll pick s W = drainAll (fun x W => decrefListener x W) s .listener pick U := by
    rw [← hU, ← hV]
    rfl
  rw [hall]
  refine ⟨fun y => ?_, fun o k => ?_⟩
  · rw [h5 y, h3 y, h1 y]
    simp only [hli', hch]
    by_cases hl : y ∈ W.members s .listener
    · have hnc : y ∉ W.members s .channel := fun h7 => by cases (h.single _ _ _ _ y hl h7).2
      have hns : y ∉ W.members s .sftp := fun h7 => by cases (h.single _ _ _ _ y hl h7).2
      have hnw : ¬ ∃ x ∈ W.members s .sftp, W.Within x y := by
        rintro ⟨x, _, h7 | h7⟩ <;> cases (h.single _ _ _ _ y hl h7).2
      have hu : W.Under s y := Or.inr (Or.inr (Or.inr hl))
      rw [if_pos hl, if_neg hnc, World.shutHeap, if_neg hns, if_neg hnw, if_pos hu]
      exact after_of_kind (hk _ _ _ hl) fun c hc => by rw [Obj.after, hc]
    · rw [if_neg hl]
      by_cases hc : y ∈ W.members s .channel
      · have hns : y ∉ W.members s .sftp := fun h7 => by cases (h.single _ _ _ _ y hc h7).2
        have hnw : ¬ ∃ x ∈ W.members s .sftp, W.Within x y := by
          rintro ⟨x, _, h7 | h7⟩ <;> cases (h.single _ _ _ _ y hc h7).2
        have hu : W.Under s y := Or.inr (Or.inr (Or.inl hc))
        rw [if_pos hc, World.shutHeap, if_neg hns, if_neg hnw, if_pos hu]
        exact after_of_kind (hk _ _ _ hc) fun c hc => by rw [Obj.after, hc]
      · rw [if_neg hc, World.shutHeap]
        by_cases hs : y ∈ W.members s .sftp
        · have hu : W.Under s y := Or.inl hs
          rw [if_pos hs, if_pos hu]
          exact after_of_kind (hk _ _ _ hs) fun c hc => by rw [Obj.after, hc]
        · rw [if_neg hs]
          by_cases hw : ∃ x ∈ W.members s .sftp, W.Within x y
          · have hu : W.Under s y := Or.inr (Or.inl hw)
            rw [if_pos hw, if_pos hu]
            obtain ⟨x, _, h7 | h7⟩ := hw
            · exact after_of_kind (hk _ _ _ h7) fun c hc => by rw [Obj.after, hc]
            · exact after_of_kind (hk _ _ _ h7) fun c hc => by rw [Obj.after, hc]
          · have hno : ¬ W.Under s y := by
              rintro (h7 | h7 | h7 | h7)
              · exact hs h7
              · exact hw h7
              · exact hc h7
              · exact hl h7
            rw [if_neg hw, if_neg hno]
  · rw [congrFun (congrFun h6 o) k, reg_setReg, congrFun (congrFun h4 o) k, reg_setReg, h2]
    by_cases ho : o = s
    · cases k <;> simp [ho]
    · simp [ho]

theorem Books.forest {own ex dying : List Ref} (h : Books E g own ex dying W) : Forest W := by
  refine ⟨h.nodup, fun o k o' k' x h1 h2 => ?_, fun o x k hx hp => ?_⟩
  · obtain ⟨c, hc, rfl, rfl⟩ := h.entry o k x h1
    obtain ⟨d, hd, rfl, rfl⟩ := h.entry o' k' x h2
    rw [hc] at hd
    cases hd
    exact ⟨rfl, rfl⟩
  · obtain ⟨c, hc, hk, _⟩ := h.entry o .sftp x hx
    rw [ptr_of_heap hc] at hp
    exact h.shut x c hc hk hp k

theorem Books.sorted {own ex dying : List Ref} (h : Books E g own ex dying W) (hx : x ∈ W.members o k) :
    W.Is x k := by
  obtain ⟨c, hc, hk, _⟩ := h.entry o k x hx
  intro d hd
  rw [hc] at hd
  cases hd
  exact hk

theorem held_sessionClose (pick : Pick) (s : Ref) (W : World) : (sessionClose pick s W).held = W.held :=
  closing_held.sessionClose pick W s

/-- **What closing a session does.**  Every wrapper in its sets, and every file and directory of its sftps,
loses the reference of the set; it loses its handle as well, unless it is a listener to which there are other
references; it is deleted if this was its last reference, unless it is a file or a directory.  The sets are
empty then, and nothing else has changed. -/
theorem sessionClose_exact (hr : Trans.Run Step World.empty as W) (hs : W.heap s = some c)
    (hk : c.kind = .session) (ho : c.opened = true) (pick : Pick) :
    (∀ x, (sessionClose pick s W).heap x = if x = s then some { c with opened := false }
      else if W.Under s x then (W.heap x).bind Obj.after else W.heap x) ∧
    (∀ o k, (sessionClose pick s W).reg o k = if o = s ∨ o ∈ W.members s .sftp then [] else W.reg o k) ∧
    (sessionClose pick s W).held = W.held := by
  obtain ⟨g, _, hb⟩ := books_run (E := False) books_empty hr fun h => h.elim
  obtain ⟨h1, h2⟩ := closeAll_exact (s := s) pick hb.forest fun o k x hx => hb.sorted hx
  -- a session is in no set
  have hout : ∀ o k, s ∉ W.members o k := by
    intro o k hm
    obtain ⟨e, _, hpar⟩ := hb.owner o k s hm
    rw [← hb.sorted hm c hs, hk] at hpar
    cases hpar
  have hnot : ¬ W.Under s s := by
    rintro (h3 | ⟨f, _, h3 | h3⟩ | h3 | h3) <;> exact hout _ _ h3
  have hclose : sessionClose pick s W = ((closeAll pick s W).log (.disconnect c.ptr)).modify s
      fun c => { c with opened := false } := by rw [sessionClose_eq pick hs, if_pos ho]
  rw [hclose]
  refine ⟨fun x => ?_, fun o k => ?_, ?_⟩
  · rw [heap_modify, heap_log, h1 x, h1 s, if_neg hnot, hs]
    rfl
  · rw [reg_modify, reg_log, h2 o k]
    have hother : ∀ o j, W.Is o j → k.parent ≠ some j → W.reg o k = [] := by
      intro o j hj hne
      apply reg_eq_nil_iff.mpr
      intro x hx
      obtain ⟨e, he, hpar⟩ := hb.owner o k x hx
      rw [hj e he] at hpar
      exact hne hpar
    by_cases hos : o = s
    · rw [if_pos (Or.inl hos)]
      by_cases hks : k = .sftp ∨ k = .channel ∨ k = .listener
      · rw [if_pos ⟨hos, hks⟩]
      · rw [hos, if_neg fun h3 => hks h3.2, World.shutReg, if_neg fun h3 => hout s .sftp h3.1]
        refine hother s .session (fun e he => ?_) fun h3 => ?_
        · rw [hs] at he
          cases he
          exact hk
        · cases k <;> simp [Kind.parent] at h3 hks
    · rw [if_neg fun h3 => hos h3.1, World.shutReg]
      by_cases hoD : o ∈ W.members s .sftp
      · rw [if_pos (Or.inr hoD)]
        by_cases hkd : k = .dir ∨ k = .file
        · rw [if_pos ⟨hoD, hkd⟩]
        · rw [if_neg fun h3 => hkd h3.2]
          apply hother o .sftp (hb.sorted hoD)
          intro h3
          cases k <;> simp [Kind.parent] at h3 hkd
      · rw [if_neg fun h3 => hoD h3.1, if_neg fun h3 => h3.elim hos hoD]
  · have h3 := held_sessionClose pick s W
    rw [hclose] at h3
    exact h3

/-- the session of a file that was opened through its sftp -/
theorem sessionClose_exact_withFile :
    (sessionClose (fun _ _ _ => 0) 1 withFile).heap 5 = (withFile.heap 5).bind Obj.after := by
  obtain ⟨as, hr⟩ := withFile_proper
  have h := (sessionClose_exact (hr.mono fun _ _ _ h => h.2) (s := 1) rfl rfl rfl fun _ _ _ => 0).1 5
  rw [if_neg (by decide), if_pos (by decide)] at h
  exact h

/-! ### the order of the members -/

theorem Call.acquires {e : Call} (h : e.gets = some (p, k)) : ∃ os, .acquire p os ∈ e.events := by
  cases e with
  | init q =>
    cases h
    exact ⟨[], List.mem_cons_self⟩
  | acquire fn a got os =>
    cases got with
    | none => cases h
    | some q =>
      cases h
      exact ⟨os, List.mem_append_left _ List.mem_cons_self⟩
  | startup a rc => cases h
  | disconnect a => cases h
  | use fn a => cases h
  | free fn a => cases h

theorem Call.frees_of_release {e : Call} (h : .release p ∈ e.events) : Call.frees p e = true := by
  cases e with
  | free fn a =>
    cases a with
    | none => exact absurd h List.not_mem_nil
    | some q =>
      have hq : p = q := by simpa [Call.events] using h
      exact decide_eq_true hq.symm
  | init q => simp [Call.events] at h
  | startup a rc => simp [Call.events] at h
  | disconnect a => simp [Call.events] at h
  | acquire fn a got os => simp [Call.events] at h
  | use fn a => simp [Call.events] at h

/-- what is open at libssh2 is held by a wrapper or lost -/
theorem Ledger.handles_eq (h : Ledger W) : W.handles = W.lost ∪ {q | ∃ x c, W.Open x c q} := by
  ext q
  constructor
  · intro hq
    by_cases hx : ∃ x c, W.Open x c q
    · exact Or.inr hx
    · exact Or.inl ⟨hq, fun x c hc => hx ⟨x, c, hc⟩⟩
  · rintro (hq | ⟨x, c, hx⟩)
    · exact hq.1
    · obtain ⟨⟨e, he, hg⟩, hf⟩ := h.held x c q hx
      obtain ⟨os, hos⟩ := Call.acquires hg
      refine ⟨⟨os, List.mem_flatMap.mpr ⟨e, he, hos⟩⟩, fun hrel => hf ?_⟩
      obtain ⟨d, hd, hd'⟩ := List.mem_flatMap.mp hrel
      exact ⟨d, hd, Call.frees_of_release hd'⟩

/-- **The order of the members makes no difference.**  However `PySet_Pop` picks the members of the sets,
`Session.close` leaves the same wrappers with the same counts, the same sets and the same handles open at
libssh2, and returns the same. -/
theorem close_any_order (hr : Trans.Run (StepIf Proper) World.empty as W) (hs : W.Holds s .session)
    (pick pick' : Pick) (rc : Int) :
    (step W (.close s pick rc)).1.heap = (step W (.close s pick' rc)).1.heap ∧
    (step W (.close s pick rc)).1.reg = (step W (.close s pick' rc)).1.reg ∧
    (step W (.close s pick rc)).1.held = (step W (.close s pick' rc)).1.held ∧
    (step W (.close s pick rc)).1.handles = (step W (.close s pick' rc)).1.handles ∧
    (step W (.close s pick rc)).2 = (step W (.close s pick' rc)).2 := by
  obtain ⟨hheld, c, hc, hk⟩ := hs
  obtain ⟨hl, g, hb⟩ := ledger_run hr
  have hr' : Trans.Run Step World.empty as W := hr.mono fun _ _ _ h => h.2
  have hstep : ∀ q, StepIf Proper W (.close s q rc) (step W (.close s q rc)).1 := fun q =>
    ⟨trivial, ⟨hheld, c, hc, hk⟩, rfl⟩
  have hlost : ∀ q, (step W (.close s q rc)).1.lost = W.lost := fun q =>
    ((ledger_outcome hl hb (hstep q).2.1 trivial).lost_iff (numbered_run hr') (young_run hr')).mpr id
  have hsame : (sessionClose pick s W).heap = (sessionClose pick' s W).heap ∧
      (sessionClose pick s W).reg = (sessionClose pick' s W).reg := by
    obtain ⟨h1, h2⟩ := closeAll_exact (s := s) pick hb.forest fun o k x hx => hb.sorted hx
    obtain ⟨g1, g2⟩ := closeAll_exact (s := s) pick' hb.forest fun o k x hx => hb.sorted hx
    have hheap : (closeAll pick s W).heap = (closeAll pick' s W).heap :=
      funext fun x => (h1 x).trans (g1 x).symm
    rw [sessionClose_eq pick hc, sessionClose_eq pick' hc]
    split
    · refine ⟨?_, funext fun o => funext fun k => (h2 o k).trans (g2 o k).symm⟩
      funext x
      rw [heap_modify, heap_modify, heap_log, heap_log, hheap]
    · exact ⟨rfl, rfl⟩
  have hheld' : (sessionClose pick s W).held = (sessionClose pick' s W).held :=
    (held_sessionClose pick s W).trans (held_sessionClose pick' s W).symm
  obtain ⟨hheap, hreg⟩ := hsame
  refine ⟨hheap, hreg, hheld', ?_, rfl⟩
  rw [(ledger_run (hr.snoc (hstep pick))).1.handles_eq, (ledger_run (hr.snoc (hstep pick'))).1.handles_eq,
    hlost, hlost]
  have hopen : ∀ q, (∃ x c, (step W (.close s pick rc)).1.Open x c q) ↔
      ∃ x c, (step W (.close s pick' rc)).1.Open x c q := by
    intro q
    unfold World.Open
    rw [show (step W (.close s pick rc)).1.heap = (step W (.close s pick' rc)).1.heap from hheap]
  rw [Set.ext hopen]

/-- the two files are popped in the one order and in the other -/
theorem close_any_order_withFiles : withFiles.members 3 .file = [5, 7] ∧
    (step withFiles (.close 1 (fun _ _ _ => 0) 0)).1.heap =
      (step withFiles (.close 1 (fun _ _ n => n + 1) 0)).1.heap ∧
    (step withFiles (.close 1 (fun _ _ _ => 0) 0)).1.handles =
      (step withFiles (.close 1 (fun _ _ n => n + 1) 0)).1.handles := by
  obtain ⟨as, hr⟩ := withFiles_proper
  have h := close_any_order (s := 1) hr ⟨by decide, _, rfl, rfl⟩ (fun _ _ _ => 0) (fun _ _ n => n + 1) 0
  exact ⟨rfl, h.1, h.2.2.2.1⟩

end PyLibssh2

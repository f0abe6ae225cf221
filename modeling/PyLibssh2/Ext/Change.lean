import Mathlib.Logic.Relation
import PyLibssh2.Ext.Leaf
import PyLibssh2.Ext.Step

/-!
# Small changes with the types of the handles

`Closing` of `PyLibssh2.Ext.Shrink` says what a closing function is made of without saying which handle is
passed to which function of libssh2.  Here the same functions are taken apart once more, for wrappers of
the right type:

* `Call.takes`     the type of the handle a libssh2 function works on, `OpenFn.gives` what it returns;
* `Change S`       one elementary change; handles of sessions are those in `S`, every other handle that is
                   passed on is held by a wrapper of the type the function takes, and a wrapper goes only when
                   it holds no handle;
* `Changes S`      finitely many of them, as every function that closes or works on a handle makes.
-/

set_option linter.unusedSectionVars false
set_option linter.unusedVariables false

namespace PyLibssh2

open World

/-! ## the types of handles -/

/-- the `LIBSSH2_SESSION *`, `LIBSSH2_CHANNEL *`, … parameter, files and directories told apart -/
def UseFn.takes : UseFn → Kind
  | .channelClose | .channelRequestPty | .channelRequestPtySize | .channelShell | .channelExec
  | .channelSetenv | .channelSetBlocking | .channelEof | .channelRead | .channelReadEx | .channelWrite
  | .channelFlush | .channelGetExitStatus | .channelSendEof | .channelWaitEof | .channelWaitClosed
  | .channelWindowRead | .channelWindowWrite | .channelX11Req | .pollChannelRead
  | .channelReceiveWindowAdjust => .channel
  | .sftpUnlink | .sftpRename | .sftpMkdir | .sftpRmdir | .sftpRealpath | .sftpReadlink | .sftpSymlink
  | .sftpStat | .sftpSetstat | .sftpLastError => .sftp
  | .sftpRead | .sftpWrite | .sftpTell | .sftpSeek => .file
  | .sftpReaddir => .dir
  | .sessionStartup | .sessionLastError | .bannerSet | .userauth | .hostkeyHash | .sessionMethods
  | .sessionMethodPref | .sessionSetBlocking | .sessionCallbackSet | .trace => .session

/-- `libssh2_sftp_close_handle` closes files and directories -/
def FreeFn.takes : FreeFn → Kind → Prop
  | .channelFree, k => k = .channel
  | .sftpCloseHandle, k => k = .file ∨ k = .dir
  | .sftpShutdown, k => k = .sftp
  | .channelForwardCancel, k => k = .listener
  | .sessionFree, k => k = .session

def OpenFn.takes : OpenFn → Kind
  | .channelOpenSession | .scpRecv | .scpSend | .channelDirectTcpip | .sftpInit
  | .channelForwardListen => .session
  | .channelForwardAccept => .listener
  | .sftpOpen | .sftpOpendir => .sftp

def OpenFn.gives : OpenFn → Kind
  | .channelOpenSession | .scpRecv | .scpSend | .channelDirectTcpip | .channelForwardAccept => .channel
  | .sftpInit => .sftp
  | .channelForwardListen => .listener
  | .sftpOpen => .file
  | .sftpOpendir => .dir

def Call.takes : Call → Kind → Prop
  | .init _, _ => False
  | .startup _ _, k => k = .session
  | .disconnect _, k => k = .session
  | .acquire fn _ _ _, k => k = fn.takes
  | .use fn _, k => k = fn.takes
  | .free fn _, k => fn.takes k

/-- the functions that some wrapper calls without a test of its pointer -/
def Call.Nullable : Call → Prop
  | .acquire .channelForwardAccept _ _ _ => True
  | .free .sftpCloseHandle _ => True
  | .free .channelForwardCancel _ => True
  | _ => False

/-- a call that neither returns a handle nor gives one back -/
def Call.Quiet : Call → Prop
  | .init _ => False
  | .acquire _ _ got _ => got = none
  | .free _ a => a = none
  | _ => True

/-! ## elementary changes -/

variable {S : Ptr → Prop} {T : Ref → Prop} {W W' W'' V : World} {x y o s f : Ref} {c d e : Obj} {p q : Ptr} {k : Kind}
  {dec body close : Ref → World → World}

/-- `p` is the handle of a session, or some wrapper of the type `k` holds it -/
def World.Has (W : World) (S : Ptr → Prop) (T : Ref → Prop) (p : Ptr) (k : Kind) : Prop :=
  k = .session ∧ S p ∨ ∃ x c, T x ∧ W.Open x c p ∧ c.kind = k

/-- the handle a call passes on is of the type the function takes -/
def World.Passes (W : World) (S : Ptr → Prop) (T : Ref → Prop) (e : Call) : Prop :=
  (e.arg = none → e.Nullable) ∧ ∀ p, e.arg = some p → ∃ k, e.takes k ∧ W.Has S T p k

/-- `x` is one of `T`, and it is of one of the types `K` unless it has been deleted -/
def World.Among (W : World) (T : Ref → Prop) (K : Kind → Prop) (x : Ref) : Prop :=
  T x ∧ ∀ c, W.heap x = some c → K c.kind

/-- one change, in which no other wrappers than those in `T` of the types `K` are touched -/
inductive Change (S : Ptr → Prop) (T : Ref → Prop) (K : Kind → Prop) : World → World → Prop
  | call {W : World} (e : Call) : e.Quiet → W.Passes S T e → Change S T K W (W.log e)
  /-- a handle is given back, and its wrapper forgets it -/
  | free {W : World} {x : Ref} {c : Obj} {p : Ptr} (fn : FreeFn) : W.Open x c p → fn.takes c.kind →
      T x → K c.kind → Change S T K W (released fn x p W)
  /-- a count or the field `opened` changes -/
  | wear {W : World} (x : Ref) (f : Obj → Obj) : (∀ e, Worn e (f e) ∧ (f e).ptr = e.ptr) →
      W.Among T K x → Change S T K W (W.modify x f)
  | thin {W : World} (o : Ref) (k : Kind) (r : PySet) : (∀ y ∈ HashSet.keys r, y ∈ W.members o k) →
      T o → Change S T K W (W.setReg o k r)
  | del {W : World} (x : Ref) : (W.heap x).bind Obj.ptr = none → W.Among T K x → Change S T K W (W.del x)

def Changes (S : Ptr → Prop) (T : Ref → Prop) (K : Kind → Prop) : World → World → Prop :=
  Relation.ReflTransGen (Change S T K)

variable {K L : Kind → Prop}

theorem Changes.refl : Changes S T K W W := Relation.ReflTransGen.refl

theorem Changes.trans (h : Changes S T K W W') (h' : Changes S T K W' W'') : Changes S T K W W'' :=
  Relation.ReflTransGen.trans h h'

theorem Change.changes (h : Change S T K W W') : Changes S T K W W' := Relation.ReflTransGen.single h

theorem Change.mono (hK : ∀ k, K k → L k) (h : Change S T K W W') : Change S T L W W' := by
  cases h with
  | call e hq ha => exact .call e hq ha
  | free fn hx ht hT hk => exact .free fn hx ht hT (hK _ hk)
  | wear x f hf hx => exact .wear x f hf ⟨hx.1, fun c hc => hK _ (hx.2 c hc)⟩
  | thin o k r hr ho => exact .thin o k r hr ho
  | del x hp hx => exact .del x hp ⟨hx.1, fun c hc => hK _ (hx.2 c hc)⟩

theorem Changes.mono (hK : ∀ k, K k → L k) (h : Changes S T K W W') : Changes S T L W W' := by
  induction h with
  | refl => exact Changes.refl
  | tail _ h1 ih => exact ih.trans (h1.mono hK).changes

theorem only_setReg {R : Ref → Kind → Prop} {r : PySet} (ho : R o k)
    (hr : ∀ y ∈ HashSet.keys r, y ∈ W.members o k) : Only T R W (W.setReg o k r) where
  heap _ _ := rfl
  worn y d hd := ⟨d, hd, Worn.refl d⟩
  reg o' k' ho' := by
    have hne : ¬ (o' = o ∧ k' = k) := fun h1 => ho' (by rw [h1.1, h1.2]; exact ho)
    rw [reg_setReg, if_neg hne]
  members o' k' y hy := by
    rw [members_setReg] at hy
    split at hy
    · rename_i h1
      rw [h1.1, h1.2]
      exact hr y hy
    · exact hy
  held := rfl
  raw := rfl
  fresh := rfl

theorem Change.only (h : Change S T K W W') : Only (W.Among T K) (fun o _ => T o) W W' := by
  cases h with
  | call e _ _ => exact only_log e
  | free fn hx _ hT hk =>
    refine only_released fn _ ⟨hT, fun c hc => ?_⟩
    rw [hx.1] at hc
    cases hc
    exact hk
  | wear x f hf hx => exact only_modify f (fun e => (hf e).1) hx
  | thin o k r hr ho => exact only_setReg ho hr
  | del x _ hx => exact only_del hx

theorem Changes.only (h : Changes S T K W W') : Only (W.Among T K) (fun o _ => T o) W W' := by
  induction h with
  | refl => exact Only.refl
  | tail _ h1 ih =>
    refine ih.trans (h1.only.mono (fun y hy => ⟨hy.1, fun c hc => ?_⟩) fun _ _ h2 => h2)
    by_contra hk
    have h2 := ih.heap y fun h3 => hk (h3.2 c hc)
    exact hk (hy.2 c (h2.trans hc))

/-! ## what holds all along -/

def World.Is (W : World) (x : Ref) (k : Kind) : Prop := ∀ c, W.heap x = some c → c.kind = k

/-- sets have members of their type, the handles of sessions are in `S`, and with its owner a member is
in `T` -/
structure Tame (S : Ptr → Prop) (T : Ref → Prop) (W : World) : Prop where
  sorted : ∀ o k x, x ∈ W.members o k → W.Is x k
  closed : ∀ o k x, T o → x ∈ W.members o k → T x
  sessions : ∀ x c, W.heap x = some c → S c.session
  roots : ∀ x c p, W.Open x c p → c.kind = .session → S p

/-- what closing a wrapper of the type `k` may touch -/
def Kind.Reach (k j : Kind) : Prop := j = k ∨ k = .sftp ∧ (j = .file ∨ j = .dir) ∨ k = .session

theorem Kind.Reach.self (k : Kind) : k.Reach k := Or.inl rfl

theorem Changes.frame (h : Changes S T K W W') (hx : W.heap x = some c) (hk : ¬ K c.kind) :
    W'.heap x = some c := (h.only.heap x fun h1 => hk (h1.2 c hx)).trans hx

theorem Changes.is (h : Changes S T K W W') (hx : W.Is x k) : W'.Is x k := by
  intro c hc
  obtain ⟨d, hd, hw⟩ := h.only.worn x c hc
  rw [hw.kind]
  exact hx d hd

theorem Changes.shut (h : Changes S T K W W') (hx : (W.heap x).bind Obj.ptr = none) :
    (W'.heap x).bind Obj.ptr = none := by
  apply Option.bind_eq_none_iff.mpr
  intro c hc
  obtain ⟨d, hd, hw⟩ := h.only.worn x c hc
  rcases hw.ptr with h1 | h1
  · rw [h1]
    exact Option.bind_eq_none_iff.mp hx d hd
  · exact h1

theorem Changes.tame (h : Changes S T K W W') (ht : Tame S T W) : Tame S T W' := by
  refine ⟨fun o k x hx => h.is (ht.sorted o k x (h.only.members o k x hx)),
    fun o k x ho hx => ht.closed o k x ho (h.only.members o k x hx), fun x c hc => ?_,
    fun x c p hc hk => ?_⟩
  · obtain ⟨d, hd, hw⟩ := h.only.worn x c hc
    rw [hw.session]
    exact ht.sessions x d hd
  · obtain ⟨d, hd, hw⟩ := h.only.opens hc
    rw [hw.kind] at hk
    exact ht.roots x d p hd hk

theorem Changes.call {e : Call} (hq : e.Quiet) (ha : W.Passes S T e) : Changes S T K W (W.log e) :=
  (Change.call e hq ha).changes

theorem Changes.decd (hx : W.Among T K x) : Changes S T K W (PyLibssh2.decd x W) :=
  (Change.wear x (fun c => { c with refcnt := c.refcnt - 1 })
    (fun _ => ⟨⟨rfl, rfl, rfl, rfl, rfl, Or.inl rfl⟩, rfl⟩) hx).changes

theorem Changes.popped (ho : T o) : Changes S T K W (PyLibssh2.popped o k x W) :=
  (Change.thin o k _ (fun y hy => (HashSet.mem_keys_drop.mp hy).1) ho).changes

theorem World.Is.among (hx : W.Is x k) (hT : T x) (hk : K k) : W.Among T K x := by
  refine ⟨hT, fun c hc => ?_⟩
  rw [hx c hc]
  exact hk

theorem clear_of_shut (hx : (W.heap x).bind Obj.ptr = none) : W.clear x = W := by
  cases hc : W.heap x with
  | none =>
    show { W with heap := Function.update W.heap x ((W.heap x).map _) } = W
    rw [hc]
    show { W with heap := Function.update W.heap x none } = W
    rw [← hc, Function.update_eq_self]
  | some c =>
    apply clear_of_closed hc
    rw [ptr_of_heap hc] at hx
    exact hx

theorem passes_handle {e : Call} (hT : T x) (hx : W.Open x c p) (ha : e.arg = some p) (ht : e.takes c.kind) :
    W.Passes S T e := by
  refine ⟨fun h1 => ?_, fun q hq => ⟨c.kind, ht, Or.inr ⟨x, c, hT, ?_, rfl⟩⟩⟩
  · rw [ha] at h1
    cases h1
  · rw [ha] at hq
    cases hq
    exact hx

theorem passes_session {e : Call} (hp : S p) (ha : e.arg = some p) (ht : e.takes .session) :
    W.Passes S T e := by
  refine ⟨fun h1 => ?_, fun q hq => ⟨.session, ht, Or.inl ⟨rfl, ?_⟩⟩⟩
  · rw [ha] at h1
    cases h1
  · rw [ha] at hq
    cases hq
    exact hp

theorem passes_null {e : Call} (ha : e.arg = none) (hn : e.Nullable) : W.Passes S T e :=
  ⟨fun _ => hn, fun q hq => by
    rw [ha] at hq
    cases hq⟩

theorem opens_of_ptr (h : (W.heap x).bind Obj.ptr = some p) : ∃ c, W.Open x c p :=
  Option.bind_eq_some_iff.mp h

theorem shut_clear (W : World) (x : Ref) : ((W.clear x).heap x).bind Obj.ptr = none := by
  rw [World.clear, heap_modify_self]
  cases W.heap x <;> rfl

/-! ## functions on a wrapper of one type -/

/-- called with a wrapper of the type `k`, `close` makes changes within its reach -/
def Closer (S : Ptr → Prop) (T : Ref → Prop) (k : Kind) (close : Ref → World → World) : Prop :=
  ∀ W x, Tame S T W → W.Is x k → T x → Changes S T k.Reach W (close x W)

theorem closer_channelClose : Closer S T .channel channelClose := by
  intro W x _ hx hT
  unfold channelClose
  split
  · rename_i p hp
    obtain ⟨c, hc⟩ := opens_of_ptr hp
    have hk := hx c hc.1
    have h1 : Changes S T (Kind.Reach .channel) W (W.log (.use .channelClose (some p))) :=
      Changes.call trivial (passes_handle hT hc rfl hk)
    exact h1.trans (Change.free .channelFree (W := W.log _) hc hk hT (Or.inl hk)).changes
  · exact Changes.refl

theorem closer_giveBack (fn : FreeFn) (ht : fn.takes k) (hn : (Call.free fn none).Nullable) :
    Closer S T k (giveBack fn) := by
  intro W x _ hx hT
  cases hp : (W.heap x).bind Obj.ptr with
  | none =>
    have h1 : giveBack fn x W = W.log (.free fn none) := by
      rw [giveBack, hp]
      exact clear_of_shut (W := W.log _) hp
    rw [h1]
    exact Changes.call rfl (passes_null rfl hn)
  | some p =>
    obtain ⟨c, hc⟩ := opens_of_ptr hp
    rw [giveBack_open fn hc]
    have hk := hx c hc.1
    refine (Change.free fn hc ?_ hT (Or.inl hk)).changes
    rw [hk]
    exact ht

theorem shut_channelClose (W : World) (x : Ref) : ((channelClose x W).heap x).bind Obj.ptr = none := by
  unfold channelClose
  split
  · exact shut_clear _ x
  · assumption

theorem closer_deallocWith (hc : Closer S T k close)
    (hs : ∀ W x, ((close x W).heap x).bind Obj.ptr = none) : Closer S T k (deallocWith close) := by
  intro W x ht hx hT
  unfold deallocWith
  split
  · have h1 := hc W x ht hx hT
    exact h1.trans (Change.del x (hs W x) ((h1.is hx).among hT (Kind.Reach.self k))).changes
  · rename_i hp
    exact (Change.del x hp (hx.among hT (Kind.Reach.self k))).changes

theorem closer_handleDealloc (hk : k = .file ∨ k = .dir) : Closer S T k handleDealloc := by
  intro W x ht hx hT
  unfold handleDealloc
  split
  · have h1 : Changes S T k.Reach W (giveBack .sftpCloseHandle x W) := closer_giveBack .sftpCloseHandle hk trivial W x ht hx hT
    exact h1.trans (Change.del x (shut_clear _ x) ((h1.is hx).among hT (Kind.Reach.self k))).changes
  · exact Changes.refl

theorem Closer.decrefBy (hd : Closer S T k dec) : Closer S T k (decrefBy dec) := by
  intro W x ht hx hT
  unfold PyLibssh2.decrefBy
  split
  · exact Changes.refl
  · have h1 : Changes S T k.Reach W (PyLibssh2.decd x W) := Changes.decd (hx.among hT (Kind.Reach.self k))
    simp only
    split
    · exact h1.trans (hd _ x (h1.tame ht) (h1.is hx) hT)
    · exact h1

theorem Closer.andThen (hb : Closer S T k body) (hd : Closer S T k dec) :
    Closer S T k fun x W => dec x (body x W) := by
  intro W x ht hx hT
  have h1 := hb W x ht hx hT
  exact h1.trans (hd _ x (h1.tame ht) (h1.is hx) hT)

theorem Closer.setDiscard (hd : Closer S T k dec) (ht : Tame S T W) (ho : T o) :
    Changes S T k.Reach W (setDiscard dec o k x W) := by
  unfold PyLibssh2.setDiscard
  split
  · exact Changes.refl
  · rename_i y hy
    have hmem : y ∈ W.members o k := by
      obtain ⟨e, he, rfl⟩ := Option.map_eq_some_iff.mp hy
      exact List.mem_map_of_mem (List.mem_of_find?_eq_some he)
    have h1 : Changes S T k.Reach W (W.setReg o k (HashSet.discard W.equal x (W.hashOf x) (W.reg o k))) := by
      refine (Change.thin o k _ (fun z hz => ?_) ho).changes
      obtain ⟨g, hg⟩ := HashSet.mem_keys.mp hz
      exact HashSet.mem_keys.mpr ⟨g, List.mem_of_mem_eraseP hg⟩
    exact h1.trans (hd _ y (h1.tame ht) (h1.is (ht.sorted o k y hmem)) (ht.closed o k y ho hmem))

theorem Closer.drain (hb : Closer S T k body) {pick : Nat → Nat} (n : Nat) (ht : Tame S T W) (ho : T o) :
    Changes S T k.Reach W (drain body o k pick n W) := by
  induction n generalizing W with
  | zero => exact Changes.refl
  | succ n ih =>
    rw [PyLibssh2.drain]
    split
    · exact Changes.refl
    · rename_i y hy
      have hmem : y ∈ W.members o k := HashSet.popKey_mem hy
      have h1 : Changes S T k.Reach W (PyLibssh2.popped o k y W) := Changes.popped ho
      have h2 := h1.trans (hb _ y (h1.tame ht) (h1.is (ht.sorted o k y hmem)) (ht.closed o k y ho hmem))
      exact h2.trans (ih (h2.tame ht))

theorem Closer.drainAll (hb : Closer S T k body) (pick : Pick) (ht : Tame S T W) (ho : T o) :
    Changes S T k.Reach W (drainAll body o k pick W) := hb.drain _ ht ho

theorem Closer.fold (hd : Closer S T k dec) (l : List Ref) (ht : Tame S T W)
    (hl : ∀ x ∈ l, W.Is x k ∧ T x) :
    Changes S T k.Reach W (l.foldl (fun W x => dec x W) W) := by
  induction l generalizing W with
  | nil => exact Changes.refl
  | cons a l ih =>
    obtain ⟨ha, hT⟩ := hl a List.mem_cons_self
    have h1 := hd W a ht ha hT
    refine h1.trans (ih (h1.tame ht) fun x hx => ?_)
    obtain ⟨hx1, hx2⟩ := hl x (List.mem_cons_of_mem _ hx)
    exact ⟨h1.is hx1, hx2⟩

theorem Closer.decrefSet (hd : Closer S T k dec) (ht : Tame S T W) (ho : T o) :
    Changes S T k.Reach W (decrefSet dec o k W) := by
  have h1 : Changes S T k.Reach W (W.setReg o k []) :=
    (Change.thin o k [] (fun y hy => absurd hy List.not_mem_nil) ho).changes
  exact h1.trans (hd.fold _ (h1.tame ht) fun x hx => ⟨h1.is (ht.sorted o k x hx), ht.closed o k x ho hx⟩)

/-! ## the closing functions -/

theorem closer_decrefChannel : Closer S T .channel decrefChannel :=
  (closer_deallocWith closer_channelClose shut_channelClose).decrefBy

theorem closer_decrefListener : Closer S T .listener decrefListener :=
  (closer_deallocWith (closer_giveBack .channelForwardCancel rfl trivial) fun _ x => shut_clear _ x).decrefBy

theorem closer_decrefFile : Closer S T .file decrefFile := (closer_handleDealloc (Or.inl rfl)).decrefBy

theorem closer_decrefDir : Closer S T .dir decrefDir := (closer_handleDealloc (Or.inr rfl)).decrefBy

theorem reach_sftp (hk : k = .file ∨ k = .dir) : ∀ j, k.Reach j → Kind.Reach .sftp j := by
  intro j hj
  rcases hk with rfl | rfl
  · rcases hj with h1 | h1 | h1
    · exact Or.inr (Or.inl ⟨rfl, Or.inl h1⟩)
    · cases h1.1
    · cases h1
  · rcases hj with h1 | h1 | h1
    · exact Or.inr (Or.inl ⟨rfl, Or.inr h1⟩)
    · cases h1.1
    · cases h1

theorem reach_session (j : Kind) : Kind.Reach .session j := Or.inr (Or.inr rfl)

theorem closer_sftpShutdown (pick : Pick) : Closer S T .sftp (sftpShutdown pick) := by
  intro W x ht hx hT
  unfold sftpShutdown
  split
  · exact Changes.refl
  · rename_i p hp
    obtain ⟨c, hc⟩ := opens_of_ptr hp
    have hk := hx c hc.1
    have h1 : Changes S T (Kind.Reach .dir) W
        (drainAll (fun x W => decrefDir x (sftpdirClose x W)) x .dir pick W) :=
      ((closer_giveBack .sftpCloseHandle (Or.inr rfl) trivial).andThen closer_decrefDir).drainAll pick ht hT
    have h2 : ∀ V, Tame S T V → Changes S T (Kind.Reach .file) V
        (drainAll (fun x W => decrefFile x (sftpdirClose x W)) x .file pick V) := fun V hV =>
      ((closer_giveBack .sftpCloseHandle (Or.inl rfl) trivial).andThen closer_decrefFile).drainAll pick hV hT
    -- the loops leave the sftp itself alone
    have hc1 := h1.frame hc.1 (by rw [hk]; unfold Kind.Reach; decide)
    have hc2 := (h2 _ (h1.tame ht)).frame hc1 (by rw [hk]; unfold Kind.Reach; decide)
    refine ((h1.mono (reach_sftp (Or.inr rfl))).trans
      ((h2 _ (h1.tame ht)).mono (reach_sftp (Or.inl rfl)))).trans ?_
    exact (Change.free .sftpShutdown ⟨hc2, hc.2⟩ hk hT (Or.inl hk)).changes

theorem shut_sftpShutdown (pick : Pick) (W : World) (x : Ref) :
    ((sftpShutdown pick x W).heap x).bind Obj.ptr = none := by
  unfold sftpShutdown
  split
  · assumption
  · exact shut_clear _ x

theorem sftpDealloc_eq (pick : Pick) (x : Ref) (W : World) : sftpDealloc pick x W =
    (decrefSet decrefFile x .file (decrefSet decrefDir x .dir (sftpShutdown pick x W))).del x := by
  unfold sftpDealloc
  cases hp : (W.heap x).bind Obj.ptr with
  | none =>
    have h1 : sftpShutdown pick x W = W := by rw [sftpShutdown, hp]
    rw [h1]
  | some p =>
    simp only
    rw [clear_of_shut (shut_sftpShutdown pick W x)]

theorem closer_sftpDealloc (pick : Pick) : Closer S T .sftp (sftpDealloc pick) := by
  intro W x ht hx hT
  rw [sftpDealloc_eq]
  have h1 := closer_sftpShutdown pick W x ht hx hT
  have h2 := (closer_decrefDir.decrefSet (h1.tame ht) hT).mono (reach_sftp (Or.inr rfl))
  have h3 := (closer_decrefFile.decrefSet ((h1.trans h2).tame ht) hT).mono (reach_sftp (Or.inl rfl))
  have h4 := (h1.trans h2).trans h3
  -- what follows the shutdown does not open the sftp again
  have hs := (h2.trans h3).shut (shut_sftpShutdown pick W x)
  exact h4.trans (Change.del x hs ((h4.is hx).among hT (Kind.Reach.self .sftp))).changes

theorem closer_decrefSftp (pick : Pick) : Closer S T .sftp (decrefSftp pick) :=
  (closer_sftpDealloc pick).decrefBy

/-! ### sessions -/

def closeAll (pick : Pick) (s : Ref) (W : World) : World :=
  let W := drainAll (fun x W => decrefSftp pick x (sftpShutdown pick x W)) s .sftp pick W
  let W := drainAll (fun x W => decrefChannel x (channelClose x W)) s .channel pick W
  drainAll (fun x W => decrefListener x W) s .listener pick W

theorem sessionClose_eq (pick : Pick) (hs : W.heap s = some c) : sessionClose pick s W =
    if c.opened then ((closeAll pick s W).log (.disconnect c.ptr)).modify s fun c => { c with opened := false }
    else W := by
  rw [sessionClose, hs]
  rfl

theorem closeAll_changes (pick : Pick) (ht : Tame S T W) (hs : T s) :
    Changes S T (· ≠ .session) W (closeAll pick s W) := by
  have h1 : Changes S T (Kind.Reach .sftp) W
      (drainAll (fun x W => decrefSftp pick x (sftpShutdown pick x W)) s .sftp pick W) :=
    ((closer_sftpShutdown pick).andThen (closer_decrefSftp pick)).drainAll pick ht hs
  have h2 : ∀ V, Tame S T V → Changes S T (Kind.Reach .channel) V
      (drainAll (fun x W => decrefChannel x (channelClose x W)) s .channel pick V) := fun V hV =>
    (closer_channelClose.andThen closer_decrefChannel).drainAll pick hV hs
  have h3 : ∀ V, Tame S T V → Changes S T (Kind.Reach .listener) V
      (drainAll (fun x W => decrefListener x W) s .listener pick V) := fun V hV =>
    closer_decrefListener.drainAll pick hV hs
  have hno : ∀ k : Kind, k ≠ .session → ∀ j, k.Reach j → j ≠ .session := by
    intro k hk j hj
    rcases hj with h4 | h4 | h4
    · rw [h4]
      exact hk
    · rcases h4.2 with h5 | h5 <;> rw [h5] <;> decide
    · exact absurd h4 hk
  have g1 := h1.mono (hno _ (by decide))
  have g2 := (h2 _ (g1.tame ht)).mono (hno _ (by decide))
  exact (g1.trans g2).trans ((h3 _ (g2.tame (g1.tame ht))).mono (hno _ (by decide)))

/-- a session that is closed must have its pointer -/
theorem changes_sessionClose (pick : Pick) (ht : Tame S T W) (hs : T s) (hc : W.Open s c p)
    (hk : c.kind = .session) :
    Changes S T (Kind.Reach .session) W (sessionClose pick s W) := by
  rw [sessionClose_eq pick hc.1]
  split
  · have h1 : Changes S T (Kind.Reach .session) W (closeAll pick s W) :=
      (closeAll_changes pick ht hs).mono fun k _ => reach_session k
    rw [hc.2]
    have h2 := h1.trans (Changes.call (e := .disconnect (some p)) trivial
      (passes_session (ht.roots s c p hc hk) rfl rfl))
    exact h2.trans (Change.wear s (fun c => { c with opened := false })
      (fun _ => ⟨⟨rfl, rfl, rfl, rfl, rfl, Or.inl rfl⟩, rfl⟩) ⟨hs, fun _ _ => reach_session _⟩).changes
  · exact Changes.refl

theorem open_sessionClose (pick : Pick) (ht : Tame S T W) (hs : T s) (hc : W.Open s c p)
    (hk : c.kind = .session) :
    ∃ d, (sessionClose pick s W).Open s d p ∧ d.kind = .session := by
  rw [sessionClose_eq pick hc.1]
  split
  · have h1 := (closeAll_changes pick ht hs).frame hc.1 (by rw [hk]; exact fun h => h rfl)
    refine ⟨{ c with opened := false }, ⟨?_, hc.2⟩, hk⟩
    rw [heap_modify_self, heap_log, h1]
    rfl
  · exact ⟨c, hc, hk⟩

theorem changes_finalise (pick : Pick) (ht : Tame S T W) (hT : T x) (hx : W.Is x .session)
    (hs : (W.heap x).bind Obj.ptr = none) :
    Changes S T (Kind.Reach .session) W ((decrefSet decrefListener x .listener (decrefSet decrefChannel x .channel
      (decrefSet (decrefSftp pick) x .sftp W))).del x) := by
  have h1 := ((closer_decrefSftp pick).decrefSet ht hT).mono fun k _ => reach_session k
  have h2 := (closer_decrefChannel.decrefSet (h1.tame ht) hT).mono fun k _ => reach_session k
  have h3 := (closer_decrefListener.decrefSet ((h1.trans h2).tame ht) hT).mono
    fun k _ => reach_session k
  have h4 := (h1.trans h2).trans h3
  exact h4.trans (Change.del x (h4.shut hs) ⟨hT, fun _ _ => reach_session _⟩).changes

theorem closer_sessionDealloc (pick : Pick) : Closer S T .session (sessionDealloc pick) := by
  intro W x ht hx hT
  unfold sessionDealloc
  split
  · rename_i hc
    apply changes_finalise pick ht hT hx
    rw [hc]
    rfl
  · rename_i c hc
    split
    · rename_i p hp
      have hk := hx c hc
      -- closing leaves the pointer of the session, which is then freed
      have h1 : ∃ V d, Changes S T (Kind.Reach .session) W V ∧ V.Open x d p ∧ d.kind = .session ∧
          V = if c.opened then sessionClose pick x W else W := by
        by_cases ho : c.opened = true
        · obtain ⟨d, hd, hdk⟩ := open_sessionClose pick ht hT ⟨hc, hp⟩ hk
          exact ⟨_, d, changes_sessionClose pick ht hT ⟨hc, hp⟩ hk, hd, hdk, (if_pos ho).symm⟩
        · exact ⟨W, c, Changes.refl, ⟨hc, hp⟩, hk, (if_neg ho).symm⟩
      obtain ⟨V, d, hV, hd, hdk, hVe⟩ := h1
      simp only
      rw [← hVe]
      have h2 : Changes S T (Kind.Reach .session) V (released .sessionFree x p V) :=
        (Change.free .sessionFree hd hdk hT (Or.inl hdk)).changes
      have h3 := hV.trans h2
      exact h3.trans (changes_finalise pick (h3.tame ht) hT (h3.is hx) (shut_clear _ x))
    · rename_i hp
      apply changes_finalise pick ht hT hx
      rw [ptr_of_heap hc]
      exact hp

theorem changes_decref (pick : Pick) (ht : Tame S T W) (hT : T x) : Changes S T (Kind.Reach .session) W (decref pick x W) := by
  unfold decref
  split
  · exact Changes.refl
  · rename_i c hc
    have hx : W.Is x c.kind := fun d hd => by
      rw [hc] at hd
      cases hd
      rfl
    split
    · rename_i hk
      exact (closer_sessionDealloc pick).decrefBy W x ht (hk ▸ hx) hT
    · rename_i hk
      exact (closer_decrefChannel W x ht (hk ▸ hx) hT).mono fun k _ => reach_session k
    · rename_i hk
      exact (closer_decrefSftp pick W x ht (hk ▸ hx) hT).mono fun k _ => reach_session k
    · rename_i hk
      exact (closer_decrefFile W x ht (hk ▸ hx) hT).mono fun k _ => reach_session k
    · rename_i hk
      exact (closer_decrefDir W x ht (hk ▸ hx) hT).mono fun k _ => reach_session k
    · rename_i hk
      exact (closer_decrefListener W x ht (hk ▸ hx) hT).mono fun k _ => reach_session k

/-! ## working on a handle -/

theorem changes_guarded (ht : Tame S T W) (hT : T x) (hx : W.Is x k) {b : Body} (hb : b.fn.takes = k) (rc : Int) :
    Changes S T K W (guarded b x rc W).1 := by
  unfold guarded
  split
  · exact Changes.refl
  · rename_i c hc
    split
    · exact Changes.refl
    · rename_i p hp
      have hk := hx c hc
      have h1 : Changes S T K W (W.log (.use b.fn (some p))) :=
        Changes.call trivial (passes_handle hT ⟨hc, hp⟩ rfl (hk.trans hb.symm))
      simp only
      split
      · show Changes S T K W (failUse b c rc (W.log (.use b.fn (some p))))
        unfold failUse
        simp only
        have h2 : Changes S T K W (if b.lastError = true then
            (W.log (.use b.fn (some p))).log (.use .sessionLastError (some c.session))
            else W.log (.use b.fn (some p))) := by
          split
          · exact h1.trans (Changes.call trivial (passes_session (ht.sessions x c hc) rfl rfl))
          · exact h1
        split
        · rename_i hsftp
          -- `sftp.c` asks for the SFTP status only, and its wrapper is open
          refine h2.trans (Changes.call trivial ?_)
          rw [hp]
          refine passes_handle (c := c) hT ?_ rfl hsftp.1
          split <;> exact ⟨hc, hp⟩
        · exact h2
      · exact h1

theorem changes_read (ht : Tame S T W) (hT : T x) (hx : W.Is x .channel) (eof rc : Int) :
    Changes S T K W (Channel.read x eof rc W).1 := by
  unfold Channel.read
  split
  · exact Changes.refl
  · rename_i c hc
    split
    · exact Changes.refl
    · rename_i p hp
      have h1 : Changes S T K W (W.log (.use .channelEof (some p))) :=
        Changes.call trivial (passes_handle hT ⟨hc, hp⟩ rfl (hx c hc))
      simp only
      split
      · exact h1
      · exact h1.trans (changes_guarded (h1.tame ht) hT (h1.is hx) rfl rc)

theorem changes_listFiles (ht : Tame S T W) (hT : T x) (hx : W.Is x .dir) (rcs : List Int) :
    Changes S T K W (Sftpdir.listFiles x rcs W).1 := by
  induction rcs generalizing W with
  | nil => exact changes_guarded ht hT hx rfl 0
  | cons rc rcs ih =>
    rw [Sftpdir.listFiles]
    have h1 : Changes S T K W (Sftpdir.read x rc W).1 := changes_guarded ht hT hx rfl rc
    split
    · exact h1
    · exact h1.trans (ih (h1.tame ht) (h1.is hx))

theorem changes_method (ht : Tame S T W) (hT : T x) (m : Method) (hx : W.Is x m.kind) :
    Changes S T K W (m.run x W).1 := by
  cases m
  case read e rc => exact changes_read ht hT hx e rc
  case dirListFiles rcs => exact changes_listFiles ht hT hx rcs
  all_goals exact changes_guarded ht hT hx rfl _

end PyLibssh2

import PyLibssh2.Ext.Books
import PyLibssh2.Ext.Held

/-!
# Every function keeps the books

`Frees dealloc k` says that a deallocator leaves the books in order when it is called on an object of the
type `k` that nobody refers to any more, `Drops dec k` that giving up a reference does.  Both are shown for
every type, the loops over the sets by one rule (`drain_books`); then `books_step` and `books_run` say that
the books are in order in every state a program gets to.
-/

set_option linter.unusedSectionVars false
set_option linter.unusedVariables false

namespace PyLibssh2

open World

variable {E : Prop} {g : Ghost} {own own' ex dying dying' : List Ref} {W W' : World} {x y o s f : Ref}
  {c d e : Obj} {p q : Ptr} {k : Kind} {dec dealloc close body : Ref → World → World} {pick : Pick}

def Frees (E : Prop) (g : Ghost) (dealloc : Ref → World → World) (k : Kind) : Prop :=
  ∀ own dying x W, g.kind x = k → Books E g own [] (x :: dying) W → Books E g own [] dying (dealloc x W)

def Drops (E : Prop) (g : Ghost) (dec : Ref → World → World) (k : Kind) : Prop :=
  ∀ own dying x W, g.kind x = k → Books E g (x :: own) [] dying W → Books E g own [] dying (dec x W)

theorem Frees.drops (hf : Frees E g dealloc k) : Drops E g (decrefBy dealloc) k := by
  intro own dying x W hk h
  obtain ⟨c, hc⟩ := Option.ne_none_iff_exists'.mp (h.alive x (Or.inl List.mem_cons_self))
  have h1 := h.decd hc
  unfold decrefBy
  simp only [hc]
  by_cases h2 : c.refcnt = 1
  · rw [if_pos h2] at h1 ⊢
    exact hf own dying x _ hk h1
  · rw [if_neg h2] at h1 ⊢
    exact h1

/-! ## wrappers that own nothing -/

theorem Books.channelClose (h : Books E g own ex dying W) (hk : (g.kind x).Leaf) :
    Books E g own ex dying (channelClose x W) := by
  unfold PyLibssh2.channelClose
  split
  · exact ((h.log _).log _).clear hk.2 hk.1
  · exact h

theorem Books.giveBack (h : Books E g own ex dying W) (fn : FreeFn) (hk : (g.kind x).Leaf) :
    Books E g own ex dying (giveBack fn x W) := (h.log _).clear hk.2 hk.1

theorem not_open_giveBack (fn : FreeFn) : ¬ (giveBack fn x W).Open x c p := by
  intro h
  rw [World.Open, PyLibssh2.giveBack, World.clear, heap_modify_self] at h
  obtain ⟨e, _, rfl⟩ := Option.map_eq_some_iff.mp h.1
  cases h.2

theorem Books.no_reg (h : Books E g own ex dying W) (hk : (g.kind x).Leaf) (k : Kind) :
    W.reg x k = [] := by
  apply h.reg_nil
  intro h1
  cases k with
  | session => cases h1
  | channel => exact hk.1 (Option.some.inj h1).symm
  | sftp => exact hk.1 (Option.some.inj h1).symm
  | listener => exact hk.1 (Option.some.inj h1).symm
  | file => exact hk.2 (Option.some.inj h1).symm
  | dir => exact hk.2 (Option.some.inj h1).symm

theorem frees_deallocWith (hk : k.Leaf) (hh : ¬ k.Handle)
    (hclose : ∀ own dying x W, g.kind x = k → Books E g own [] dying W →
      Books E g own [] dying (close x W)) : Frees E g (deallocWith close) k := by
  intro own dying x W hx h
  unfold deallocWith
  split
  · have h1 := hclose own (x :: dying) x W hx h
    exact h1.del (hx ▸ hh) (h1.no_reg (hx ▸ hk))
  · exact h.del (hx ▸ hh) (h.no_reg (hx ▸ hk))

/-- a file or a directory is closed when its last reference goes, so it stays where it is -/
theorem frees_handle (hk : k.Handle) : Frees E g handleDealloc k := by
  intro own dying x W hx h
  unfold handleDealloc
  split
  · rename_i p hp
    obtain ⟨c, hc, hcp⟩ := Option.bind_eq_some_iff.mp hp
    have hkc : c.kind.Handle := by
      rw [h.kinds x c hc, hx]
      exact hk
    exact absurd (h.home x c p ⟨hc, hcp⟩ hkc List.not_mem_nil)
      ((h.dying_free List.mem_cons_self).2.2 _ _)
  · exact h.lay (hx ▸ hk)

theorem leaf_channel : Kind.Leaf .channel := ⟨by decide, by decide⟩
theorem leaf_listener : Kind.Leaf .listener := ⟨by decide, by decide⟩

theorem Kind.Handle.leaf (hk : k.Handle) : k.Leaf := by
  rcases hk with rfl | rfl
  · exact ⟨by decide, by decide⟩
  · exact ⟨by decide, by decide⟩

theorem not_handle_session : ¬ Kind.Handle .session := by unfold Kind.Handle; decide
theorem not_handle_channel : ¬ Kind.Handle .channel := by unfold Kind.Handle; decide
theorem not_handle_sftp : ¬ Kind.Handle .sftp := by unfold Kind.Handle; decide
theorem not_handle_listener : ¬ Kind.Handle .listener := by unfold Kind.Handle; decide

theorem drops_channel : Drops E g decrefChannel .channel :=
  (frees_deallocWith leaf_channel not_handle_channel
    fun _ _ x _ hx h => h.channelClose (hx ▸ leaf_channel)).drops

theorem drops_listener : Drops E g decrefListener .listener :=
  (frees_deallocWith leaf_listener not_handle_listener
    fun _ _ x _ hx h => h.giveBack _ (hx ▸ leaf_listener)).drops

theorem drops_file : Drops E g decrefFile .file := (frees_handle (Or.inl rfl)).drops
theorem drops_dir : Drops E g decrefDir .dir := (frees_handle (Or.inr rfl)).drops

/-! ## loops -/

/-- a loop that pops a set keeps the books if a round does, and leaves the set empty -/
theorem drain_books {pick : Nat → Nat}
    (hbody : ∀ W x, g.kind x = k → Books E g (x :: own) [x] dying W → Books E g own [] dying (body x W))
    (hfew : ∀ W x, Fewer W (body x W)) (n : Nat) (W : World) (h : Books E g own [] dying W)
    (hn : (W.reg o k).length ≤ n) :
    Books E g own [] dying (drain body o k pick n W) ∧ (drain body o k pick n W).reg o k = [] := by
  induction n generalizing W with
  | zero => exact ⟨h, List.length_eq_zero_iff.mp (Nat.le_zero.mp hn)⟩
  | succ n ih =>
    by_cases hne : W.reg o k = []
    · have hstop : drain body o k pick (n + 1) W = W := by
        rw [drain, hne]
        rfl
      rw [hstop]
      exact ⟨h, hne⟩
    · obtain ⟨x, hx⟩ := HashSet.popKey_isSome (n := pick n) hne
      have hmem : x ∈ W.members o k := HashSet.popKey_mem hx
      have h1 := hbody _ x (h.member_kind hmem) (h.pop hmem)
      -- the round takes no member away from the others and adds none
      have hlen : ((body x (popped o k x W)).reg o k).length ≤ n := by
        have h2 := HashSet.length_drop (h.nodup o k) hmem
        have h3 : ((body x (popped o k x W)).members o k).length ≤
            ((popped o k x W).members o k).length :=
          List.Nodup.length_le_of_subset (h1.nodup o k) fun y hy => (hfew _ x).members o k y hy
        rw [World.members, World.members, HashSet.keys, HashSet.keys, List.length_map, List.length_map,
          reg_popped_self] at h3
        omega
      rw [drain_pop hx]
      exact ih _ h1 hlen

theorem drainAll_books (pick : Pick)
    (hbody : ∀ W x, g.kind x = k → Books E g (x :: own) [x] dying W → Books E g own [] dying (body x W))
    (hfew : ∀ W x, Fewer W (body x W)) (h : Books E g own [] dying W) :
    Books E g own [] dying (drainAll body o k pick W) ∧ (drainAll body o k pick W).reg o k = [] :=
  drain_books hbody hfew _ W h (Nat.le_refl _)

theorem decrefSet_books (hd : Drops E g dec k) (hk : ¬ k.Handle) (hfew : ∀ W x, Fewer W (dec x W))
    (h : Books E g own [] dying W) :
    Books E g own [] dying (decrefSet dec o k W) ∧ (decrefSet dec o k W).reg o k = [] := by
  have hfold : ∀ (l : List Ref) (W : World), (∀ y ∈ l, g.kind y = k) → Books E g (l ++ own) [] dying W →
      Books E g own [] dying (l.foldl (fun W x => dec x W) W) := by
    intro l
    induction l with
    | nil => exact fun W _ h => h
    | cons a l ih =>
      intro W hl h
      exact ih _ (fun y hy => hl y (List.mem_cons_of_mem a hy)) (hd _ _ a W (hl a List.mem_cons_self) h)
  constructor
  · exact hfold _ _ (fun y hy => h.member_kind hy) (h.takeAll hk)
  · have hnil : (W.setReg o k []).reg o k = [] := by rw [reg_setReg, if_pos ⟨rfl, rfl⟩]
    exact (closing_fewer.fold hfew _ _).reg_nil hnil

/-! ## sftps -/

theorem handle_round_books (hd : Drops E g dec k) (hk : k.Handle) (hx : g.kind x = k)
    (h : Books E g (x :: own) [x] dying W) : Books E g own [] dying (dec x (sftpdirClose x W)) :=
  hd own dying x _ hx
    ((h.giveBack .sftpCloseHandle (hx ▸ hk.leaf)).settle fun _ _ hc => absurd hc (not_open_giveBack _))

theorem sftp_reg (h : Books E g own ex dying W) (hk : g.kind x = .sftp) (hf : W.reg x .file = [])
    (hd : W.reg x .dir = []) (k : Kind) : W.reg x k = [] := by
  cases k with
  | file => exact hf
  | dir => exact hd
  | session => exact h.reg_nil fun h1 => by cases h1
  | channel => exact h.reg_nil fun h1 => by rw [hk] at h1; cases h1
  | sftp => exact h.reg_nil fun h1 => by rw [hk] at h1; cases h1
  | listener => exact h.reg_nil fun h1 => by rw [hk] at h1; cases h1

theorem fewer_round (hd : ∀ W x, Fewer W (dec x W)) (W : World) (x : Ref) :
    Fewer W (dec x (sftpdirClose x W)) := (closing_fewer.giveBack _ W x).trans (hd _ x)

/-- `Sftp_shutdown` on an open sftp empties both sets -/
theorem sftpShutdown_books (pick : Pick) (hk : g.kind f = .sftp) (h : Books E g own [] dying W) :
    Books E g own [] dying (sftpShutdown pick f W) ∧ ∀ k, (sftpShutdown pick f W).reg f k = [] := by
  unfold sftpShutdown
  split
  · rename_i hn
    refine ⟨h, fun k => ?_⟩
    cases hf : W.heap f with
    | none =>
      apply reg_eq_nil_iff.mpr
      intro y hy
      obtain ⟨s, hs, _⟩ := h.owner f k y hy
      rw [hf] at hs
      cases hs
    | some c =>
      rw [hf] at hn
      exact h.shut f c hf ((h.kinds f c hf).trans hk) hn k
  · obtain ⟨h1, hr1⟩ := drainAll_books (o := f) (k := .dir) pick
      (fun _ _ hx h => handle_round_books drops_dir (Or.inr rfl) hx h)
      (fewer_round closing_fewer.decrefDir) h
    obtain ⟨h2, hr2⟩ := drainAll_books (o := f) (k := .file) pick
      (fun _ _ hx h => handle_round_books drops_file (Or.inl rfl) hx h)
      (fewer_round closing_fewer.decrefFile) h1
    have hdir : (drainAll (fun x W => decrefFile x (sftpdirClose x W)) f .file pick
        (drainAll (fun x W => decrefDir x (sftpdirClose x W)) f .dir pick W)).reg f .dir = [] :=
      (closing_fewer.drain (fewer_round closing_fewer.decrefFile) _).reg_nil hr1
    have hall := sftp_reg h2 hk hr2 hdir
    refine ⟨(h2.log _).touch f _ (fun _ => ⟨rfl, rfl, rfl, rfl, rfl, Or.inr rfl⟩) (fun _ => rfl)
      (fun _ _ _ _ => hall) fun hs => ?_, hall⟩
    rw [hk] at hs
    cases hs

theorem frees_sftp (pick : Pick) : Frees E g (sftpDealloc pick) .sftp := by
  intro own dying x W hk h
  obtain ⟨c, hc⟩ := Option.ne_none_iff_exists'.mp (h.alive x (Or.inr (Or.inl List.mem_cons_self)))
  have hh : ¬ (g.kind x).Handle := hk ▸ not_handle_sftp
  obtain ⟨h1, hr⟩ := sftpShutdown_books pick hk h
  have hreg : ∀ {W : World}, (∀ k, W.reg x k = []) →
      (decrefSet decrefFile x .file (decrefSet decrefDir x .dir W)) = W := by
    intro W hW
    rw [decrefSet_nil (hW .dir), decrefSet_nil (hW .file)]
  unfold sftpDealloc
  rw [hc]
  cases hp : c.ptr with
  | none =>
    have h2 := h.shut x c hc ((h.kinds x c hc).trans hk) hp
    simp only [Option.bind_some, hp, hreg h2]
    exact h.del hh h2
  | some p =>
    have h2 : Books E g own [] (x :: dying) ((sftpShutdown pick x W).clear x) :=
      h1.touch x _ (fun _ => ⟨rfl, rfl, rfl, rfl, rfl, Or.inr rfl⟩) (fun _ => rfl) (fun _ _ _ _ => hr)
        fun _ _ _ _ => List.mem_cons_self
    simp only [Option.bind_some, hp]
    rw [hreg (W := (sftpShutdown pick x W).clear x) hr]
    exact h2.del hh hr

theorem drops_sftp (pick : Pick) : Drops E g (decrefSftp pick) .sftp := (frees_sftp pick).drops

/-! ## sessions -/

theorem session_reg (h : Books E g own ex dying W) (hk : g.kind x = .session) (hs : W.reg x .sftp = [])
    (hc : W.reg x .channel = []) (hl : W.reg x .listener = []) (k : Kind) : W.reg x k = [] := by
  cases k with
  | sftp => exact hs
  | channel => exact hc
  | listener => exact hl
  | session => exact h.reg_nil fun h1 => by cases h1
  | file => exact h.reg_nil fun h1 => by rw [hk] at h1; cases h1
  | dir => exact h.reg_nil fun h1 => by rw [hk] at h1; cases h1

theorem sftp_round_books (pick : Pick) (hx : g.kind x = .sftp) (h : Books E g (x :: own) [x] dying W) :
    Books E g own [] dying (decrefSftp pick x (sftpShutdown pick x W)) :=
  drops_sftp pick own dying x _ hx
    (sftpShutdown_books pick hx (h.settle_kind (hx ▸ not_handle_sftp))).1

theorem channel_round_books (hx : g.kind x = .channel) (h : Books E g (x :: own) [x] dying W) :
    Books E g own [] dying (decrefChannel x (channelClose x W)) :=
  drops_channel own dying x _ hx
    ((h.settle_kind (hx ▸ not_handle_channel)).channelClose (hx ▸ leaf_channel))

theorem listener_round_books (hx : g.kind x = .listener) (h : Books E g (x :: own) [x] dying W) :
    Books E g own [] dying (decrefListener x W) :=
  drops_listener own dying x W hx (h.settle_kind (hx ▸ not_handle_listener))

theorem fewer_sftp_round (pick : Pick) (W : World) (x : Ref) :
    Fewer W (decrefSftp pick x (sftpShutdown pick x W)) :=
  (closing_fewer.sftpShutdown pick W x).trans (closing_fewer.decrefSftp pick _ x)

theorem fewer_channel_round (W : World) (x : Ref) : Fewer W (decrefChannel x (channelClose x W)) :=
  (closing_fewer.channelClose W x).trans (closing_fewer.decrefChannel _ x)

/-- `Session_close` on a started session empties the three sets -/
theorem sessionClose_books (pick : Pick) (hk : g.kind s = .session) (h : Books E g own [] dying W) :
    Books E g own [] dying (sessionClose pick s W) ∧
      (∀ c, W.heap s = some c → c.opened = true → ∀ k, (sessionClose pick s W).reg s k = []) := by
  unfold sessionClose
  split
  · exact ⟨h, fun c hc => by rename_i hn; rw [hn] at hc; cases hc⟩
  · rename_i o ho
    split
    · obtain ⟨h1, hr1⟩ := drainAll_books (o := s) pick (fun _ _ => sftp_round_books pick)
        (fewer_sftp_round pick) h
      obtain ⟨h2, hr2⟩ := drainAll_books (o := s) pick (fun _ _ => channel_round_books)
        fewer_channel_round h1
      obtain ⟨h3, hr3⟩ := drainAll_books (o := s) pick (fun _ _ => listener_round_books)
        closing_fewer.decrefListener h2
      have hf2 : ∀ W, Fewer W (drainAll (fun x W => decrefChannel x (channelClose x W)) s .channel pick W) :=
        fun W => closing_fewer.drain fewer_channel_round _
      have hf3 : ∀ W, Fewer W (drainAll (fun x W => decrefListener x W) s .listener pick W) :=
        fun W => closing_fewer.drain closing_fewer.decrefListener _
      have hall := session_reg h3 hk ((hf3 _).reg_nil ((hf2 _).reg_nil hr1)) ((hf3 _).reg_nil hr2) hr3
      refine ⟨(h3.log _).touch s _ (fun _ => ⟨rfl, rfl, rfl, rfl, rfl, Or.inl rfl⟩) (fun _ => rfl)
        (fun hs => ?_) (fun _ e he hn => ?_), fun _ _ _ => hall⟩
      · rw [hk] at hs
        cases hs
      · by_contra hd
        exact h3.root s e he ((h3.kinds s e he).trans hk) hd hn
    · rename_i hop
      refine ⟨h, fun c hc h1 => ?_⟩
      rw [ho] at hc
      rw [Option.some.inj hc, h1] at hop
      exact absurd rfl hop

theorem frees_session (pick : Pick) : Frees E g (sessionDealloc pick) .session := by
  intro own dying x W hk h
  obtain ⟨c, hc⟩ := Option.ne_none_iff_exists'.mp (h.alive x (Or.inr (Or.inl List.mem_cons_self)))
  have hgone : ∀ W, Books E g own [] (x :: dying) W → Books E g own [] dying
      ((decrefSet decrefListener x .listener (decrefSet decrefChannel x .channel
        (decrefSet (decrefSftp pick) x .sftp W))).del x) := by
    intro W h
    obtain ⟨h1, hr1⟩ := decrefSet_books (o := x) (drops_sftp pick)
      not_handle_sftp (closing_fewer.decrefSftp pick) h
    obtain ⟨h2, hr2⟩ := decrefSet_books (o := x) drops_channel not_handle_channel
      closing_fewer.decrefChannel h1
    obtain ⟨h3, hr3⟩ := decrefSet_books (o := x) drops_listener not_handle_listener
      closing_fewer.decrefListener h2
    have hf2 : ∀ W, Fewer W (decrefSet decrefChannel x .channel W) :=
      fun _ => closing_fewer.decrefSet closing_fewer.decrefChannel
    have hf3 : ∀ W, Fewer W (decrefSet decrefListener x .listener W) :=
      fun _ => closing_fewer.decrefSet closing_fewer.decrefListener
    have hh : ¬ (g.kind x).Handle := hk ▸ not_handle_session
    exact h3.del hh
      (session_reg h3 hk ((hf3 _).reg_nil ((hf2 _).reg_nil hr1)) ((hf3 _).reg_nil hr2) hr3)
  unfold sessionDealloc
  simp only [hc]
  apply hgone
  split
  · have hw : Books E g own [] (x :: dying) (if c.opened = true then sessionClose pick x W else W) := by
      split
      · exact (sessionClose_books pick hk h).1
      · exact h
    refine (hw.log _).touch x _ (fun _ => ⟨rfl, rfl, rfl, rfl, rfl, Or.inr rfl⟩) (fun _ => rfl)
      (fun hs => ?_) fun _ _ _ _ => List.mem_cons_self
    rw [hk] at hs
    cases hs
  · exact h

theorem drops_session (pick : Pick) : Drops E g (decrefSession pick) .session := (frees_session pick).drops

/-! ## giving up a reference -/

theorem Books.decref (pick : Pick) (h : Books E g (x :: own) [] dying W) :
    Books E g own [] dying (decref pick x W) := by
  obtain ⟨c, hc⟩ := Option.ne_none_iff_exists'.mp (h.alive x (Or.inl List.mem_cons_self))
  have hk := h.kinds x c hc
  rw [decref_of_heap pick hc]
  cases hck : c.kind with
  | session => exact drops_session pick own dying x W (hk.symm.trans hck) h
  | channel => exact drops_channel own dying x W (hk.symm.trans hck) h
  | sftp => exact drops_sftp pick own dying x W (hk.symm.trans hck) h
  | file => exact drops_file own dying x W (hk.symm.trans hck) h
  | dir => exact drops_dir own dying x W (hk.symm.trans hck) h
  | listener => exact drops_listener own dying x W (hk.symm.trans hck) h

theorem Books.setDiscard (hd : Drops E g dec k) (hk : ¬ k.Handle) (h : Books E g own [] dying W) :
    Books E g own [] dying (setDiscard dec o k x W) := by
  unfold PyLibssh2.setDiscard
  split
  · exact h
  · rename_i y hy
    obtain ⟨hm, hdrop⟩ := HashSet.discard_of_found (h.nodup o k) hy
    rw [hdrop]
    have hky := h.member_kind hm
    exact hd own dying y _ hky ((h.pop hm).settle_kind (hky ▸ hk))

theorem Books.closeHandle (h : Books E g own [] dying W) (hk : k.Handle) (hc : W.heap x = some c)
    (hck : c.kind = k) (hheld : 0 < W.held x) (dealloc : Ref → World → World) :
    Books E g own [] dying (PyLibssh2.giveBack .sftpCloseHandle x (PyLibssh2.setDiscard (decrefBy dealloc) o k x W)) := by
  have hleaf : (g.kind x).Leaf := by
    rw [← h.kinds x c hc, hck]
    exact hk.leaf
  have hns : c.kind ≠ .sftp := hck ▸ hk.leaf.2
  unfold PyLibssh2.setDiscard
  split
  · exact h.giveBack _ hleaf
  · rename_i y hy
    obtain ⟨hm, hdrop⟩ := HashSet.discard_of_found (h.nodup o k) hy
    have hyx : y = x := by
      obtain ⟨r, hr, rfl⟩ := Option.map_eq_some_iff.mp hy
      exact hit_self_only hc hns (List.find?_some hr)
    subst hyx
    have hmore := h.member_refcnt hm hc
    have h1 := (h.pop hm).decd (x := y) (c := c) hc
    rw [if_neg (by omega)] at h1
    have hne : c.refcnt ≠ 1 := by omega
    have hdec : decrefBy dealloc y (W.setReg o k (HashSet.drop y (W.reg o k))) =
        PyLibssh2.decd y (popped o k y W) := decrefBy_more (W := popped o k y W) hc hne
    rw [hdrop, hdec]
    exact (h1.giveBack _ hleaf).settle fun _ _ ho => absurd ho (not_open_giveBack _)

/-! ## opening -/

structure Ghost.Extends (g g' : Ghost) : Prop where
  followed : g'.followed = g.followed
  out : g'.out = g.out
  kind : ∀ y, g.followed y → g'.kind y = g.kind y

theorem Ghost.Extends.refl (g : Ghost) : g.Extends g := ⟨rfl, rfl, fun _ _ => rfl⟩

theorem Ghost.Extends.trans {g' g'' : Ghost} (h : g.Extends g') (h' : g'.Extends g'') : g.Extends g'' :=
  ⟨h'.followed.trans h.followed, h'.out.trans h.out, fun y hy =>
    (h'.kind y (h.followed.symm ▸ hy)).trans (h.kind y hy)⟩

theorem Books.grown (h : Books E g own ex dying W) (hx : W.fresh ≤ x) (k : Kind) :
    g.Extends (g.grown x k) := by
  refine ⟨rfl, rfl, fun y hy => ?_⟩
  have hne : y ≠ x := ((h.followed_lt hy).trans_le hx).ne
  exact Function.update_of_ne hne ..

/-- the world that goes on to open something through `c.parent` -/
def Parental (c : Obj) (W : World) : Prop :=
  ∃ s, W.heap c.parent = some s ∧ c.kind.parent = some s.kind ∧ (s.kind = .sftp → s.ptr ≠ none)

theorem setAdd_or (o : Ref) (k : Kind) (x : Ref) (W : World) :
    (setAdd W o k x = W ∧ ∃ r ∈ W.reg o k, HashSet.hit W.equal x (W.hashOf x) r = true) ∨
    setAdd W o k x = enter o k x (W.hashOf x) W := by
  unfold setAdd
  split
  · rename_i h1
    exact Or.inl ⟨rfl, List.any_eq_true.mp h1⟩
  · exact Or.inr rfl

theorem Books.entered (h : Books E g (x :: own) (x :: ex) [] W) (hx : W.heap x = some c)
    (hout : x ∉ W.members c.parent c.kind) (hpar : c.managed = true → Parental c W)
    (hh : c.kind.Handle → c.managed = true) (hin : ¬ g.out x c.parent c.kind) :
    Books E g (x :: own) ex [] (if c.managed then setAdd W c.parent c.kind x else W) := by
  have hother : ¬ c.kind.Handle → Books E g (x :: own) ex [] W := fun h1 =>
    h.settle fun d p hd => by
      rw [Option.some.inj (hd.1.symm.trans hx)]
      exact h1
  by_cases hm : c.managed = true
  · obtain ⟨s, hs, hk, hop⟩ := hpar hm
    rw [if_pos hm]
    rcases setAdd_or c.parent c.kind x W with ⟨h1, r, hr, hhit⟩ | h1
    · rw [h1]
      refine hother fun h2 => hout ?_
      rw [← hit_self_only hx h2.leaf.2 hhit]
      exact HashSet.mem_keys.mpr ⟨r.2, hr⟩
    · rw [h1]
      apply (h.add hx hout List.not_mem_nil hin hs hk hop).settled
      intro d p hd hdk
      obtain ⟨e, he, hw⟩ := enter_back hd.1
      rw [hx] at he
      rw [hw.parent, hw.kind, ← Option.some.inj he]
      exact mem_enter.mpr (Or.inl ⟨rfl, rfl, rfl⟩)
  · rw [if_neg hm]
    exact hother fun h1 => hm (hh h1)

def made (c : Obj) (W : World) : World :=
  if c.managed then setAdd (new c W).1 c.parent c.kind W.fresh else (new c W).1

theorem held_made (c : Obj) (W : World) : (made c W).held = W.held := by
  unfold made
  split
  · rcases setAdd_or c.parent c.kind W.fresh (new c W).1 with ⟨h, _⟩ | h
    · rw [h]
      rfl
    · rw [h]
      rfl
  · rfl

theorem Books.made (h : Books E g [] [] [] W) (c : Obj) (hp : c.ptr ≠ none)
    (hpar : c.managed = true → Parental c W) (hh : c.kind.Handle → c.managed = true) :
    Books E (g.grown W.fresh c.kind) [] [] []
      { made c W with held := Function.update (made c W).held W.fresh 1 } := by
  have hnone : W.heap W.fresh = none := h.young _ (Nat.le_refl _)
  have hself : (PyLibssh2.new c W).1.heap W.fresh = some { c with refcnt := 1 } :=
    Function.update_self ..
  have hout : W.fresh ∉ (PyLibssh2.new c W).1.members c.parent c.kind := by
    intro h1
    obtain ⟨d, hd, _⟩ := h.entry _ _ _ h1
    rw [hnone] at hd
    cases hd
  have hpar' : c.managed = true → Parental { c with refcnt := 1 } (PyLibssh2.new c W).1 := by
    intro h1
    obtain ⟨s, hs, h2⟩ := hpar h1
    refine ⟨s, ?_, h2⟩
    have hne : c.parent ≠ W.fresh := fun h3 => by
      rw [h3, hnone] at hs
      cases hs
    exact (Function.update_of_ne hne ..).trans hs
  have h1 : Books E (g.grown W.fresh c.kind) [W.fresh] [] [] (PyLibssh2.made c W) :=
    Books.entered (c := { c with refcnt := 1 }) (h.new c hp) hself hout hpar' hh
      fun h2 => absurd (h.away _ _ _ h2).1 (Nat.lt_irrefl _)
  have hheld : (PyLibssh2.made c W).held W.fresh = 0 := by
    rw [held_made]
    exact Nat.eq_zero_of_not_pos fun h2 => h.alive _ (Or.inr (Or.inr h2)) hnone
  exact h1.handOver hheld

theorem Books.openWith (h : Books E g [] [] [] W) (fn : OpenFn) (arg : Ptr) (leak : Nat) (a : Answer)
    (hpar : c.managed = true → Parental c W) (hh : c.kind.Handle → c.managed = true)
    (hleak : E → NoWrapper a ∨ leak = 0) :
    ∃ g', g.Extends g' ∧ Books E g' [] [] [] (openWith fn arg c leak a W).1 := by
  cases ha : a.ret with
  | none =>
    rw [openWith_none ha]
    exact ⟨g, Ghost.Extends.refl g, (h.log _).log _⟩
  | some addr =>
    have h1 : Books E g [] [] []
        { W.log (.acquire fn (some arg) (some ⟨W.fresh, addr⟩) c.owners) with fresh := W.fresh + 1 } :=
      h.same rfl rfl rfl rfl (Nat.le_succ _)
    cases hm : a.alloc with
    | false =>
      rw [openWith_leak ha hm]
      exact ⟨g, Ghost.Extends.refl g, h1⟩
    | true =>
      have hnone : E → leak = 0 := fun hE => (hleak hE).resolve_left fun h2 => by
        rcases h2 with h3 | h3
        · rw [ha] at h3
          cases h3
        · rw [hm] at h3
          cases h3
      have h2 := h1.made { c with ptr := some ⟨W.fresh, addr⟩ } (Option.some_ne_none _) hpar hh
      refine ⟨_, h1.grown (Nat.le_refl _) c.kind, ?_⟩
      simp only [PyLibssh2.openWith, ha, hm]
      exact h2.leak (W.fresh + 1) hnone

theorem Books.openChild (h : Books E g [] [] [] W) (hs : W.Holds s .session)
    (hk : k.parent = some .session) (fn : OpenFn) (leak : Nat) (a : Answer)
    (hleak : E → NoWrapper a ∨ leak = 0) : ∃ g', g.Extends g' ∧ Books E g' [] [] []
      (onSession s W fun p => PyLibssh2.openWith fn p (child s p k) leak a W).1 := by
  obtain ⟨_, o, ho, hok⟩ := hs
  simp only [onSession, ho]
  refine h.openWith (c := child s o.session k) fn o.session leak a (fun _ => ⟨o, ho, ?_, fun h1 => ?_⟩)
    (fun _ => rfl) hleak
  · rw [hok]
    exact hk
  · rw [hok] at h1
    cases h1

theorem Books.openHandle (h : Books E g [] [] [] W) (hf : W.Holds f .sftp) (hk : k.parent = some .sftp)
    (fn : OpenFn) (a : Answer) : ∃ g', g.Extends g' ∧ Books E g' [] [] [] (openHandle fn k f a W).1 := by
  obtain ⟨_, o, ho, hok⟩ := hf
  cases hp : o.ptr with
  | none =>
    rw [openHandle_closed ho hp]
    exact ⟨g, Ghost.Extends.refl g, h⟩
  | some p =>
    obtain ⟨g', hg, h1⟩ := h.openWith (c := { child f o.session k with sftp := some p }) fn p 0 a
      (fun _ => ⟨o, ho, hok ▸ hk, fun _ => hp ▸ Option.some_ne_none p⟩) (fun _ => rfl) fun _ => Or.inr rfl
    refine ⟨g', hg, ?_⟩
    rw [openHandle_open ⟨ho, hp⟩]
    split
    · exact h1.log _
    · exact h1

theorem Books.accept (h : Books E g [] [] [] W) (l : Ref) (a : Answer) :
    ∃ g', g.Extends g' ∧ Books E g' [] [] [] (Listener.accept l a W).1 := by
  unfold Listener.accept
  split
  · exact ⟨g, Ghost.Extends.refl g, h⟩
  · rename_i o _
    split
    · refine h.openWith (c := { child o.parent o.session .channel with managed := false }) _ _ 0 a
        (fun h1 => ?_) (fun h1 => ?_) fun _ => Or.inr rfl
      · cases h1
      · exact absurd h1 not_handle_channel
    · exact ⟨g, Ghost.Extends.refl g, (h.log _).log _⟩

theorem Books.sessionInit (h : Books E g [] [] [] W) (addr : Addr) :
    ∃ g', g.Extends g' ∧ Books E g' [] [] [] (Session.init addr W).1 := by
  have h1 : Books E g [] [] [] { W.log (.init ⟨W.fresh, addr⟩) with fresh := W.fresh + 1 } :=
    h.same rfl rfl rfl rfl (Nat.le_succ _)
  let c : Obj := { child (W.fresh + 1) ⟨W.fresh, addr⟩ .session with
    ptr := some ⟨W.fresh, addr⟩, managed := false }
  have h2 := h1.made c (Option.some_ne_none _) (fun h3 => absurd h3 Bool.false_ne_true)
    fun h3 => absurd h3 not_handle_session
  exact ⟨_, h1.grown (Nat.le_refl _) .session, h2.log (.use .bannerSet (some ⟨W.fresh, addr⟩))⟩

theorem Books.startup (h : Books E g [] [] [] W) (hs : W.Holds s .session) (rc : Int) :
    Books E g [] [] [] (Session.startup s rc W).1 := by
  obtain ⟨_, o, ho, hok⟩ := hs
  simp only [Session.startup, onSession, ho]
  split
  · exact (h.log _).log _
  · have hk : g.kind s = .session := by rw [← h.kinds s o ho, hok]
    refine (h.log _).touch s _ (fun _ => ⟨rfl, rfl, rfl, rfl, rfl, Or.inl rfl⟩) (fun _ => rfl)
      (fun h1 => ?_) fun _ e he h1 => absurd h1 (h.root s e he ((h.kinds s e he).trans hk) List.not_mem_nil)
    rw [hk] at h1
    cases h1

theorem onlyCalls_listFiles (x : Ref) (rcs : List Int) : OnlyCalls W (Sftpdir.listFiles x rcs W).1 := by
  induction rcs generalizing W with
  | nil => exact onlyCalls_guarded _ _ _
  | cons rc rcs ih =>
    rw [Sftpdir.listFiles]
    split
    · exact onlyCalls_guarded _ _ _
    · exact (onlyCalls_guarded _ _ _).trans ih

theorem onlyCalls_method (x : Ref) (m : Method) : OnlyCalls W (m.run x W).1 := by
  cases m
  case read e rc => exact onlyCalls_read _ _ _
  case dirListFiles rcs => exact onlyCalls_listFiles _ _
  all_goals exact onlyCalls_guarded _ _ _

/-! ## steps and runs -/

/-- `scp_recv` gives no wrapper -/
def Act.Even : Act → Prop
  | .scpRecv _ a => NoWrapper a
  | _ => True

theorem books_step (h : Books E g [] [] [] W) (a : Act) (ha : Enabled W a) (hE : E → a.Even) :
    ∃ g', g.Extends g' ∧ Books E g' [] [] [] (step W a).1 := by
  have hsame : ∀ {W'}, Books E g [] [] [] W' → ∃ g', g.Extends g' ∧ Books E g' [] [] [] W' :=
    fun h1 => ⟨g, Ghost.Extends.refl g, h1⟩
  have hkind : ∀ {x k}, W.Holds x k → g.kind x = k := by
    intro x k hx
    obtain ⟨_, o, ho, hok⟩ := hx
    rw [← h.kinds x o ho, hok]
  cases a with
  | session a => exact h.sessionInit a
  | startup s rc => exact hsame (h.startup ha rc)
  | openSession s A => exact h.openChild ha rfl _ 0 A fun _ => Or.inr rfl
  | scpSend s A => exact h.openChild ha rfl _ 0 A fun _ => Or.inr rfl
  | scpRecv s A =>
    cases hret : A.ret with
    | none =>
      obtain ⟨_, o, ho, _⟩ := ha
      simp only [step, Session.scpRecv, onSession, ho, hret]
      exact hsame (h.log _)
    | some addr =>
      have h1 := h.openChild ha rfl .scpRecv 1 A (k := .channel) fun hE' => Or.inl (hE hE')
      simp only [step, Session.scpRecv, hret]
      exact h1
  | sftpInit s A => exact h.openChild ha rfl _ 0 A fun _ => Or.inr rfl
  | directTcpip s A =>
    obtain ⟨_, o, ho, _⟩ := ha
    simp only [step, Session.directTcpip, onSession, ho]
    split
    · exact hsame ((h.log _).log _)
    · exact hsame (h.same rfl rfl rfl rfl (Nat.le_succ _))
  | forwardListen s A => exact h.openChild ha rfl _ 0 A fun _ => Or.inr rfl
  | accept l A => exact h.accept l A
  | openFile f A => exact h.openHandle ha rfl _ A
  | openDir f A => exact h.openHandle ha rfl _ A
  | channelClose s x =>
    have h1 : Books E g [] [] [] (setDiscard decrefChannel s .channel x W) :=
      h.setDiscard drops_channel not_handle_channel
    exact hsame (h1.channelClose ((hkind ha.2).symm ▸ leaf_channel))
  | sftpShutdown s f pick =>
    have h1 : Books E g [] [] [] (setDiscard (decrefSftp pick) s .sftp f W) :=
      h.setDiscard (drops_sftp pick) not_handle_sftp
    exact hsame (sftpShutdown_books pick (hkind ha.2) h1).1
  | forwardCancel s l =>
    have h1 : Books E g [] [] [] (setDiscard decrefListener s .listener l W) :=
      h.setDiscard drops_listener not_handle_listener
    exact hsame (h1.giveBack _ ((hkind ha.2).symm ▸ leaf_listener))
  | closeFile f x =>
    obtain ⟨_, hheld, o, ho, hok⟩ := ha
    simp only [step, Sftp.closeFile]
    split
    · exact hsame h
    · exact hsame (h.closeHandle (Or.inl rfl) ho hok hheld _)
  | closeDir f x =>
    obtain ⟨_, hheld, o, ho, hok⟩ := ha
    simp only [step, Sftp.closeDir]
    split
    · exact hsame h
    · exact hsame (h.closeHandle (Or.inr rfl) ho hok hheld _)
  | close s pick rc => exact hsame (sessionClose_books pick (hkind ha) h).1
  | drop x pick =>
    obtain ⟨k, hheld, _⟩ := ha
    exact hsame ((h.giveUp hheld).decref pick)
  | method x m => exact hsame (h.calls (onlyCalls_method x m))
  | sessionMethod s fn =>
    obtain ⟨_, o, ho, _⟩ := ha
    simp only [step, Session.method, onSession, ho]
    exact hsame (h.log _)

/-- **The books are in order in every state a program gets to.** -/
theorem books_run {as : List Act} {V : World} (h : Books E g [] [] [] V) (hr : Trans.Run Step V as W)
    (hE : E → ∀ a ∈ as, a.Even) : ∃ g', g.Extends g' ∧ Books E g' [] [] [] W := by
  induction hr with
  | nil => exact ⟨g, Ghost.Extends.refl g, h⟩
  | snoc _ hs ih =>
    obtain ⟨g1, hg1, h1⟩ := ih fun h2 b hb => hE h2 b (List.mem_append_left _ hb)
    obtain ⟨g2, hg2, h2⟩ := books_step h1 _ hs.1 fun h2 =>
      hE h2 _ (List.mem_append_right _ List.mem_cons_self)
    rw [hs.2]
    exact ⟨g2, hg1.trans hg2, h2⟩

end PyLibssh2

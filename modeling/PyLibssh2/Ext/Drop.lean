import PyLibssh2.Ext.CloseSession

/-!
# Giving up references

`decref` is what happens when a reference to a wrapper goes: with the last one the wrapper is closed
and, for a session, everything that its registries contain with it.  `setDiscard` is the first half of
the methods that close a wrapper by hand: it looks the wrapper up under the hash it has now.

* `Releasable`       what may still be open below a session that is freed;
* `good_decref`      the invariant after a reference has gone;
* `good_setDiscard`  the invariant after a discard that finds the wrapper itself or nothing;
* `hashPtrs_null`    a closed wrapper never hashes like an open one of its session.
-/

set_option linter.unusedSectionVars false
set_option linter.unusedVariables false

namespace PyLibssh2

open World Lifetime

variable {b n : Prop} {own ex : List Ref} {W W' V : World} {x y o s f : Ref} {c d e : Obj} {p q : Ptr}
  {k : Kind} {pick : Pick}

/-! ## `PYLIBSSH2_Session_dealloc` -/

/-- whatever is open below the session `s` is closed when `s` is closed: it is in a registry, and for a
listener the registry has the only reference -/
def Releasable (s : Ref) (W : World) : Prop :=
  ∀ x c p, W.Open x c p → c.parent = s → c.kind ≠ .session →
    c.managed = true ∧ (c.kind = .listener → x ∈ W.members s .listener ∧ c.refcnt = 1)

/-- `if (self->opened) Session_close(self);` -/
def hangUp (pick : Pick) (s : Ref) (e : Obj) (W : World) : World :=
  if e.opened then sessionClose pick s W else W

/-- after the session has been closed nothing below it is open -/
theorem hangUp_spec (pick : Pick) (h : Good b n own [] W) (hs : W.heap s = some e)
    (hk : e.kind = .session) (htidy : n → ∀ f ∈ W.members s .sftp, Tidy f W) (hrel : Releasable s W) :
    Good b n own [] (hangUp pick s e W) ∧
    (hangUp pick s e W).heap s = some { e with opened := false } ∧
    ∀ y d q, (hangUp pick s e W).Open y d q → d.kind ≠ .session → d.parent ≠ s := by
  cases ho : e.opened with
  | false =>
    have hreg := h.inv.shut s e hs (Or.inr ⟨hk, ho⟩)
    have he : ({ e with opened := false } : Obj) = e := by rw [← ho]
    have h0 : hangUp pick s e W = W := by rw [hangUp, ho]; rfl
    rw [h0]
    refine ⟨h, by rw [he, hs], fun y d q hy hdk hds => ?_⟩
    obtain ⟨hm, hl⟩ := hrel y d q hy hds hdk
    have hin : y ∈ W.members s d.kind := by
      by_cases hdl : d.kind = .listener
      · rw [hdl]
        exact (hl hdl).1
      · rw [← hds]
        exact h.inv.home y d q hy hm hdl List.not_mem_nil
    exact reg_eq_nil_iff.mp (hreg d.kind) y hin
  | true =>
    have h1 := sessionClose_spec pick h hs hk ho htidy
    have h0 : hangUp pick s e W = sessionClose pick s W := by rw [hangUp, ho]; rfl
    rw [h0]
    refine ⟨h1.good, h1.heap, fun y d q hy hdk hds => ?_⟩
    obtain ⟨d0, hd0, hw⟩ := h1.worn y d hy.1
    have hy0 : W.Open y d0 q := by
      refine ⟨hd0, ?_⟩
      rcases hw.ptr with h2 | h2
      · exact h2.symm.trans hy.2
      · have h3 := hy.2
        rw [h2] at h3
        cases h3
    have hdk0 : d0.kind ≠ .session := fun h2 => hdk (hw.kind.trans h2)
    have hds0 : d0.parent = s := hw.parent.symm.trans hds
    have hnot : ¬ Shut y (sessionClose pick s W) := fun h2 => by
      have h3 := (h2 d hy.1).1
      rw [hy.2] at h3
      cases h3
    obtain ⟨hm, hl⟩ := hrel y d0 q hy0 hds0 hdk0
    by_cases hdl : d0.kind = .listener
    · exact hnot (h1.last y (hl hdl).1 d0 hd0 (hl hdl).2)
    · have hin := h.inv.home y d0 q hy0 hm hdl List.not_mem_nil
      rw [hds0] at hin
      obtain ⟨t, ht, htk⟩ := h.inv.owner s d0.kind y hin
      rw [hs] at ht
      cases ht
      rw [hk] at htk
      cases hdk' : d0.kind <;> rw [hdk'] at htk hin <;> simp [Kind.parent] at htk
      · exact hnot (h1.channels y hin)
      · exact hnot (h1.sftps y hin)
      · exact hdl hdk'

theorem Inv.no_session_member (h : Inv own ex W) : x ∉ W.members o .session := by
  intro hx
  obtain ⟨t, _, ht⟩ := h.owner o .session x hx
  cases ht

theorem sessionDealloc_eq (h : Inv own [] (hangUp pick s e W)) (hs : W.heap s = some e)
    (hk : e.kind = .session) (hp : e.ptr = some p)
    (hs' : (hangUp pick s e W).heap s = some { e with opened := false }) :
    sessionDealloc pick s W = (released .sessionFree s p (hangUp pick s e W)).del s := by
  have hreg := h.shut s _ hs' (Or.inr ⟨hk, rfl⟩)
  have h1 : sessionDealloc pick s W =
      (decrefSet decrefListener s .listener (decrefSet decrefChannel s .channel
        (decrefSet (decrefSftp pick) s .sftp (released .sessionFree s p (hangUp pick s e W))))).del s := by
    simp only [sessionDealloc, hs, hp]
    rfl
  have hr : ∀ j, (released .sessionFree s p (hangUp pick s e W)).reg s j = [] := hreg
  rw [h1, decrefSet_nil (hr .sftp), decrefSet_nil (hr .channel), decrefSet_nil (hr .listener)]

theorem good_sessionDealloc (h : Good b n own [] W) (hs : W.heap s = some e) (hk : e.kind = .session)
    (h0 : e.refcnt = 0) (htidy : n → ∀ f ∈ W.members s .sftp, Tidy f W) (hrel : Releasable s W) :
    Good b n own [] (sessionDealloc pick s W) := by
  obtain ⟨p, hp⟩ := Option.ne_none_iff_exists'.mp (h.inv.root s e hs hk List.not_mem_nil)
  obtain ⟨h1, h2, h3⟩ := hangUp_spec pick h hs hk htidy hrel
  have hopen : (hangUp pick s e W).Open s { e with opened := false } p := ⟨h2, hp⟩
  have h4 : Good b n own [s] (released .sessionFree s p (hangUp pick s e W)) :=
    h1.exempt.release .sessionFree hopen h3
      (fun h5 => by
        have h6 : e.kind = .sftp := h5
        rw [hk] at h6
        cases h6)
      (fun _ => List.mem_cons_self) fun _ hm => by
        have hm' : s ∈ (hangUp pick s e W).members e.parent e.kind := hm
        rw [hk] at hm'
        exact h1.inv.no_session_member hm'
  have h5 : (released .sessionFree s p (hangUp pick s e W)).heap s =
      some { e with opened := false, ptr := none } := by
    rw [heap_released_self, h2]
    rfl
  have hreg := h1.inv.shut s _ h2 (Or.inr ⟨hk, rfl⟩)
  rw [sessionDealloc_eq h1.inv hs hk hp h2]
  exact (h4.del h5 h0 rfl hreg).shut shut_del

/-! ## `Py_XDECREF` -/

theorem releasable_decd (h : Releasable s W) (hs : W.heap s = some e) (hk : e.kind = .session) :
    Releasable s (decd s W) := by
  intro y d q hy hds hdk
  obtain ⟨d0, hd0, h1⟩ := (sameBut_decd s W).opens hy
  rw [h1] at hds hdk
  obtain ⟨hm, hl⟩ := h y d0 q hd0 hds hdk
  have hys : y ≠ s := by
    rintro rfl
    exact hdk (by rw [Option.some.inj (hd0.1.symm.trans hs)]; exact hk)
  have hdd : d = d0 := by
    have h2 := hy.1
    rw [heap_decd, if_neg hys, hd0.1] at h2
    exact (Option.some.inj h2).symm
  rw [hdd]
  exact ⟨hm, hl⟩

theorem decref_of_heap (pick : Pick) (hx : W.heap x = some c) : decref pick x W =
    match c.kind with
    | .session => decrefSession pick x W
    | .channel => decrefChannel x W
    | .sftp => decrefSftp pick x W
    | .file => decrefFile x W
    | .dir => decrefDir x W
    | .listener => decrefListener x W := by
  cases hk : c.kind <;> simp only [decref, hx, hk]

/-- **The invariant survives the loss of a reference.** -/
theorem good_decref (pick : Pick) (h : Good b n (x :: own) [] W) (hx : W.heap x = some c)
    (hsftp : n → c.kind = .sftp → c.refcnt = 1 → Tidy x W)
    (hsess : c.kind = .session → c.refcnt = 1 →
      Releasable x W ∧ (n → ∀ f ∈ W.members x .sftp, Tidy f W)) :
    Good b n own [] (decref pick x W) := by
  rw [decref_of_heap pick hx]
  cases hk : c.kind with
  | session =>
    apply good_decrefBy h hx
    intro h1 h2
    obtain ⟨hrel, htidy⟩ := hsess hk h1
    exact good_sessionDealloc h2 (heap_decd_self hx) hk (by simp [h1])
      (fun hn f hf => tidy_decd (htidy hn f hf) x) (releasable_decd hrel hx hk)
  | channel => exact deallocs_channel.decref h hx hk
  | sftp =>
    exact (good_decrefSftp _ h hx hk (fun y hy => absurd hy List.not_mem_nil)
      fun hn h1 => hsftp hn hk h1).1
  | file => exact deallocs_file.decref h hx hk
  | dir => exact deallocs_dir.decref h hx hk
  | listener => exact deallocs_listener.decref h hx hk

/-! ## hashes -/

theorem bit_addr (a : Addr) : (BitVec.ofNat 64 a.val).getLsbD 0 = false := by
  have h1 := a.aligned
  rw [BitVec.getLsbD_ofNat]
  have h2 : a.val % 2 = 0 := by omega
  simp [Nat.testBit_zero, h2]

theorem ne_neg_one {v : BitVec 64} (h : v.getLsbD 0 = false) : v ≠ -1 := by
  rintro rfl
  exact absurd h (by decide)

theorem hashVoidPtr_some (p : Ptr) : hashVoidPtr (some p) = BitVec.ofNat 64 p.addr.val := by
  simp only [hashVoidPtr, if_neg (ne_neg_one (bit_addr p.addr))]

theorem hashPtrs_some (p q : Ptr) : hashPtrs (some p) (some q) =
    BitVec.ofNat 64 p.addr.val ^^^ BitVec.ofNat 64 q.addr.val := by
  have h1 := ne_neg_one (bit_addr p.addr)
  have h2 := ne_neg_one (bit_addr q.addr)
  have h3 : BitVec.ofNat 64 p.addr.val ^^^ BitVec.ofNat 64 q.addr.val ≠ -1 :=
    ne_neg_one (by rw [BitVec.getLsbD_xor, bit_addr, bit_addr]; rfl)
  simp only [hashPtrs, hashVoidPtr_some, if_neg h1, if_neg h2, if_neg h3]

theorem hashPtrs_none (q : Ptr) : hashPtrs none (some q) = BitVec.ofNat 64 q.addr.val := by
  have h0 : hashVoidPtr none = 0 := by decide
  have h2 := ne_neg_one (bit_addr q.addr)
  have h3 : (0 : BitVec 64) ≠ -1 := by decide
  have h4 : (0 : BitVec 64) ^^^ BitVec.ofNat 64 q.addr.val = BitVec.ofNat 64 q.addr.val :=
    BitVec.zero_xor
  simp only [hashPtrs, h0, hashVoidPtr_some, if_neg h3, h4, if_neg h2]

/-- **A closed wrapper never hashes like an open one of the same session.** -/
theorem hashPtrs_null (p q : Ptr) : hashPtrs none (some q) ≠ hashPtrs (some p) (some q) := by
  rw [hashPtrs_none, hashPtrs_some]
  intro h
  have h1 : BitVec.ofNat 64 p.addr.val = 0 := by
    have h2 := congrArg (· ^^^ BitVec.ofNat 64 q.addr.val) h
    simp only [BitVec.xor_self, BitVec.xor_assoc, BitVec.xor_zero] at h2
    exact h2.symm
  have h3 := congrArg BitVec.toNat h1
  rw [BitVec.toNat_ofNat, Nat.mod_eq_of_lt p.addr.lt] at h3
  have h4 := p.addr.pos
  simp at h3
  omega

/-! ## `PySet_Discard` -/

theorem equal_false (hx : W.heap x = some c) (hk : c.kind ≠ .sftp) : W.equal y x = false := by
  unfold World.equal
  rw [hx]
  cases W.heap y with
  | none => rfl
  | some d => simp [hk]

theorem hit_self_only (hx : W.heap x = some c) (hk : c.kind ≠ .sftp) {g : BitVec 64}
    {r : Ref × BitVec 64} (hr : HashSet.hit W.equal x g r = true) : r.1 = x := by
  unfold HashSet.hit at hr
  rw [equal_false hx hk] at hr
  simp at hr
  exact hr.2

/-- the discard finds the wrapper itself, or nothing -/
theorem setDiscard_cases (dealloc : Ref → World → World) (h : Inv own [] W) (hx : W.heap x = some c)
    (hheld : 0 < W.held x) (hself : ∀ r ∈ W.reg o k, HashSet.hit W.equal x c.hash r = true → r.1 = x) :
    (setDiscard (decrefBy dealloc) o k x W = W ∧ (x, c.hash) ∉ W.reg o k) ∨
    (x ∈ W.members o k ∧ setDiscard (decrefBy dealloc) o k x W = decd x (popped o k x W)) := by
  have hh : W.hashOf x = c.hash := by rw [World.hashOf, hx]
  by_cases hin : (x, c.hash) ∈ W.reg o k
  · right
    have hmem : x ∈ W.members o k := HashSet.mem_keys.mpr ⟨_, hin⟩
    obtain ⟨h1, h2⟩ := HashSet.discard_of_hit_self (h.nodup o k) hin hself
    refine ⟨hmem, ?_⟩
    have h3 : setDiscard (decrefBy dealloc) o k x W = decrefBy dealloc x (popped o k x W) := by
      simp only [setDiscard, hh, h1, h2]
      rfl
    have hc1 : c.refcnt ≠ 1 := by
      obtain ⟨hck, hco⟩ := h.member_kind hx hmem
      have h4 := h.refs x c hx
      rw [hck, hco, if_pos hmem] at h4
      omega
    rw [h3]
    exact decrefBy_more (W := popped o k x W) hx hc1
  · left
    have hno : ∀ r ∈ W.reg o k, HashSet.hit W.equal x c.hash r = false := by
      intro r hr
      by_contra hhit
      have hhit' : HashSet.hit W.equal x c.hash r = true := by simpa using hhit
      have h1 := hself r hr hhit'
      have h2 : r.2 = c.hash := by
        unfold HashSet.hit at hhit'
        simp at hhit'
        exact hhit'.1
      exact hin (by rw [← h1, ← h2]; exact hr)
    obtain ⟨h1, _⟩ := HashSet.discard_of_no_hit hno
    refine ⟨?_, hin⟩
    simp only [setDiscard, hh, h1]

structure Discards (b n : Prop) (own : List Ref) (o : Ref) (k : Kind) (x : Ref) (c : Obj)
    (W W' : World) : Prop where
  good : Good b n own [x] W'
  only : Only (· = x) (fun y j => y = o ∧ j = k) W W'
  heap : ∃ m, W'.heap x = some { c with refcnt := m }
  calls : W'.calls = W.calls
  out : b → c.parent = o → c.ptr ≠ none → x ∉ W'.members c.parent c.kind

theorem good_setDiscard {dealloc : Ref → World → World} (h : Good b n own [] W)
    (hx : W.heap x = some c) (hk : c.kind = k) (hns : k ≠ .session) (hheld : 0 < W.held x)
    (hself : ∀ r ∈ W.reg o k, HashSet.hit W.equal x c.hash r = true → r.1 = x) :
    Discards b n own o k x c W (setDiscard (decrefBy dealloc) o k x W) := by
  rcases setDiscard_cases dealloc h.inv hx hheld hself with ⟨h1, h2⟩ | ⟨hm, h1⟩
  · rw [h1]
    refine ⟨h.exempt, Only.refl, ⟨_, hx⟩, rfl, fun hb hco hp hm => h2 ?_⟩
    obtain ⟨p, hp⟩ := Option.ne_none_iff_exists'.mp hp
    rw [hco, hk] at hm
    obtain ⟨g, hg⟩ := HashSet.mem_keys.mp hm
    rw [← h.inv.stored o k x g c p hg ⟨hx, hp⟩]
    exact hg
  · rw [h1]
    refine ⟨good_decd (h.pop hm), (only_popped ⟨rfl, rfl⟩).trans (only_decd rfl), ?_, rfl, ?_⟩
    · exact ⟨_, heap_decd_self (W := popped o k x W) hx⟩
    · intro _ _ _
      exact h.inv.popped_out hx hm

end PyLibssh2

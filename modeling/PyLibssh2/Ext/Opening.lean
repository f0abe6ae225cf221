import PyLibssh2.Ext.Grow

/-!
# The opening methods keep the invariant

libssh2 returns a handle for an open call only while the session is up (`Answers`), so a wrapper is
entered in a registry only while its owner is open.  A set finds an equal member for a new wrapper
only if two sftps of one session hash alike (`Distinct`).
-/

set_option linter.unusedSectionVars false
set_option linter.unusedVariables false

namespace PyLibssh2

open World Lifetime

variable {b n : Prop} {W W' : World} {x y o s f l : Ref} {c d e : Obj} {p q arg : Ptr} {k : Kind}
  {a : Answer} {fn : OpenFn} {leak : Nat}

/-- libssh2 returns no handle for a session that is not up -/
def Answers (W : World) (session : Ptr) (a : Answer) : Prop := a.ret ≠ none → up session W.calls = true

/-- no member of the set of sftps was entered under the hash of the new sftp -/
def Distinct (W : World) (s : Ref) (session : Ptr) (a : Answer) : Prop :=
  ∀ addr, a.ret = some addr → ∀ r ∈ W.reg s .sftp,
    r.2 ≠ hashPtrs (some ⟨W.fresh, addr⟩) (some session)

/-! ## wrappers that are open -/

theorem Inv.session_open (h : Inv [] [] W) (hs : W.heap s = some e) (hk : e.kind = .session) :
    W.Open s e e.session := by
  obtain ⟨p, hp⟩ := Option.ne_none_iff_exists'.mp (h.root s e hs hk List.not_mem_nil)
  have h1 := (h.started s e p ⟨hs, hp⟩ hk).1
  exact ⟨hs, h1 ▸ hp⟩

theorem good_failOpen (h : Good b n [] [] W) (hl : Live W.history p) :
    Good b n [] [] (failOpen p W).1 := h.use hl _

theorem good_acquire_none (h : Good b n [] [] W) (hl : Live W.history arg) :
    Good b n [] [] (W.log (.acquire fn (some arg) none [])) :=
  ⟨h.inv.log_use rfl (fun _ _ => rfl) hl, fun hb => (h.strict hb).log_use rfl,
    fun hn => (h.clean hn).log (by simp [Call.arg])⟩

theorem live_acquire_none (hl : Live W.history q) :
    Live (W.log (.acquire fn (some arg) none [])).history q := by
  rw [history_log]
  exact hl.cons fun p => by simp

/-! ## `openWith` -/

def wrapper (o : Obj) (leak : Nat) (addr : Addr) (W : World) : Obj :=
  { o with ptr := some ⟨W.fresh, addr⟩, refcnt := 1 + (if o.managed = true then 1 else 0) + leak }

theorem openWith_none (ha : a.ret = none) :
    openWith fn arg c leak a W = failOpen c.session (W.log (.acquire fn (some arg) none [])) := by
  simp only [openWith, ha]

theorem openWith_leak {addr : Addr} (ha : a.ret = some addr) (hm : a.alloc = false) :
    openWith fn arg c leak a W =
      ({ W.log (.acquire fn (some arg) (some ⟨W.fresh, addr⟩) c.owners) with fresh := W.fresh + 1 },
        .raised .system) := by
  simp only [openWith, ha, hm]
  rfl

theorem reg_setAdd :
    (setAdd W o k x).reg o k = HashSet.add W.equal x (W.hashOf x) (W.reg o k) := by
  unfold setAdd HashSet.add
  split
  · rfl
  · rw [reg_modify, reg_setReg, if_pos ⟨rfl, rfl⟩]

theorem no_hit {X : World} (hX : X.heap x = some c) (hx : x ∉ W.members c.parent c.kind)
    {g : BitVec 64} (hclash : c.kind = .sftp → ∀ r ∈ W.reg c.parent .sftp, r.2 ≠ g) :
    ∀ r ∈ W.reg c.parent c.kind, HashSet.hit X.equal x g r = false := by
  intro r hr
  by_contra hhit
  have hhit' : HashSet.hit X.equal x g r = true := by simpa using hhit
  by_cases hk : c.kind = .sftp
  · rw [hk] at hr
    apply hclash hk r hr
    unfold HashSet.hit at hhit'
    simp at hhit'
    exact hhit'.1
  · have h1 := hit_self_only hX hk hhit'
    exact hx (h1 ▸ List.mem_map_of_mem hr)

theorem Inv.new_not_member (h : Inv [] [] W) (o : Ref) (k : Kind) : W.fresh + 1 ∉ W.members o k := by
  intro hm
  obtain ⟨d, hd, _⟩ := h.entry o k _ hm
  rw [h.young _ (Nat.le_succ _)] at hd
  cases hd

theorem openWith_grows (fn : OpenFn) (arg : Ptr) (leak : Nat)
    (hnew : W.fresh + 1 ∉ W.members c.parent c.kind) {addr : Addr} (ha : a.ret = some addr)
    (hm : a.alloc = true)
    (hclash : c.kind = .sftp → ∀ r ∈ W.reg c.parent .sftp, r.2 ≠ (wrapper c leak addr W).hash) :
    (openWith fn arg c leak a W).2 = .obj (W.fresh + 1) ∧
    (openWith fn arg c leak a W).1.calls =
      .acquire fn (some arg) (some ⟨W.fresh, addr⟩) c.owners :: W.calls ∧
    Grows (W.fresh + 1) (wrapper c leak addr W) ⟨W.fresh, addr⟩
      (W.log (.acquire fn (some arg) none [])) (openWith fn arg c leak a W).1 := by
  -- the world after `PyObject_New`
  let c1 : Obj := { c with ptr := some ⟨W.fresh, addr⟩, refcnt := 1 }
  let W1 : World := { W.log (.acquire fn (some arg) (some ⟨W.fresh, addr⟩) c.owners) with
    heap := Function.update W.heap (W.fresh + 1) (some c1), fresh := W.fresh + 2 }
  have hx1 : W1.heap (W.fresh + 1) = some c1 := Function.update_self ..
  have hhash : W1.hashOf (W.fresh + 1) = c1.hash := by rw [World.hashOf, hx1]
  have hnohit : ∀ r ∈ W.reg c.parent c.kind, HashSet.hit W1.equal (W.fresh + 1) c1.hash r = false :=
    no_hit (c := c1) hx1 hnew hclash
  have hany : (W1.reg c.parent c.kind).any
      (HashSet.hit W1.equal (W.fresh + 1) (W1.hashOf (W.fresh + 1))) = false := by
    rw [hhash]
    apply List.any_eq_false.mpr
    intro r hr
    rw [hnohit r hr]
    simp
  -- the world after `PySet_Add`
  let W2 : World := if c.managed then setAdd W1 c.parent c.kind (W.fresh + 1) else W1
  have hadd : setAdd W1 c.parent c.kind (W.fresh + 1) =
      (W1.setReg c.parent c.kind (W.reg c.parent c.kind ++ [(W.fresh + 1, c1.hash)])).modify
        (W.fresh + 1) fun c => { c with refcnt := c.refcnt + 1 } := by
    unfold setAdd
    rw [if_neg (by rw [hany]; exact Bool.false_ne_true), hhash]
    rfl
  have hW2 : W2.heap = Function.update W.heap (W.fresh + 1)
      (some { c1 with refcnt := 1 + if c.managed = true then 1 else 0 }) ∧
      W2.held = W.held ∧ W2.fresh = W.fresh + 2 ∧ W2.calls = W1.calls ∧
      ∀ j k, W2.reg j k = if c.managed = true ∧ j = c.parent ∧ k = c.kind then
        W.reg j k ++ [(W.fresh + 1, c1.hash)] else W.reg j k := by
    show World.heap (if c.managed then setAdd W1 c.parent c.kind (W.fresh + 1) else W1) = _ ∧ _
    cases hman : c.managed with
    | false =>
      refine ⟨by simp [W1, c1, hman], ?_, ?_, ?_, fun j k => ?_⟩ <;> simp [W2, hman, W1]
    | true =>
      have hW2' : W2 = setAdd W1 c.parent c.kind (W.fresh + 1) := by simp [W2, hman]
      rw [hW2', hadd]
      refine ⟨?_, rfl, rfl, rfl, fun j k => ?_⟩
      · simp only [if_true]
        funext z
        rw [heap_modify, heap_setReg, hx1, Function.update_apply]
        by_cases hz : z = W.fresh + 1
        · simp [hz, c1, hman]
        · rw [if_neg hz, if_neg hz]
          exact Function.update_of_ne hz ..
      · by_cases hjk : j = c.parent ∧ k = c.kind
        · rw [if_pos ⟨rfl, hjk⟩, hjk.1, hjk.2, ← hadd, reg_setAdd, hhash]
          exact HashSet.add_of_no_hit hnohit
        · rw [reg_modify, reg_setReg, if_neg hjk, if_neg fun h1 => hjk h1.2]
          rfl
  have hopen : openWith fn arg c leak a W =
      ({ W2.modify (W.fresh + 1) (fun c => { c with refcnt := c.refcnt + leak }) with
          held := Function.update W2.held (W.fresh + 1) 1 }, .obj (W.fresh + 1)) := by
    simp only [openWith, ha, hm]
    rfl
  obtain ⟨g1, g2, g3, g4, g5⟩ := hW2
  rw [hopen]
  refine ⟨rfl, g4, ⟨⟨⟨?_, ?_⟩, ?_, ?_⟩, ⟨?_, ?_⟩, ?_, ?_, ?_⟩⟩
  · exact Nat.le_refl _
  · show W.fresh < W2.fresh
    rw [g3]
    omega
  · show PyLibssh2.history W2.calls = _
    rw [g4]
    rfl
  · intro t
    show up t W2.calls = _
    rw [g4]
    rfl
  · exact Nat.le_succ _
  · show W.fresh + 1 < W2.fresh
    rw [g3]
    omega
  · show Function.update W2.heap (W.fresh + 1) _ = _
    rw [g1, Function.update_self, Function.update_idem]
    rfl
  · intro j k
    exact g5 j k
  · show Function.update W2.held (W.fresh + 1) 1 = _
    rw [g2]
    rfl

/-- what an open call is made with: the owner of the new wrapper is open -/
structure Opens (b : Prop) (arg : Ptr) (c : Obj) (leak : Nat) (a : Answer) (W : World) : Prop where
  live : Live W.history arg
  session : Live W.history c.session
  kind : c.kind ≠ .session
  par : ∃ s q, W.Open c.parent s q ∧ c.kind.parent = some s.kind ∧ c.ownerPtr = some q ∧
    s.session = c.session
  owners : ∀ q ∈ c.owners, Live W.history q
  leaf : c.kind = .file ∨ c.kind = .dir → c.sftp ≠ none ∧ c.managed = true
  unshut : a.ret ≠ none → c.managed = true → ∀ s, W.heap c.parent = some s →
    ¬ ((s.kind = .sftp ∧ s.ptr = none) ∨ (s.kind = .session ∧ s.opened = false))
  clash : ∀ addr, a.ret = some addr → c.kind = .sftp → ∀ r ∈ W.reg c.parent .sftp,
    r.2 ≠ (wrapper c leak addr W).hash
  strict : b → a.alloc = true ∧ c.managed = true ∧ c.kind ≠ .listener

theorem good_openWith (h : Good b n [] [] W) (ho : Opens b arg c leak a W) :
    Good b n [] [] (openWith fn arg c leak a W).1 := by
  have h0 : Good b n [] [] (W.log (.acquire fn (some arg) none [])) := good_acquire_none h ho.live
  cases ha : a.ret with
  | none =>
    rw [openWith_none ha]
    exact good_failOpen h0 (live_acquire_none ho.session)
  | some addr =>
    cases hm : a.alloc with
    | false =>
      rw [openWith_leak ha hm]
      have hg : Leaks ⟨W.fresh, addr⟩ c.owners (W.log (.acquire fn (some arg) none []))
          { W.log (.acquire fn (some arg) (some ⟨W.fresh, addr⟩) c.owners) with
            fresh := W.fresh + 1 } :=
        ⟨⟨⟨Nat.le_refl _, Nat.lt_succ_self _⟩, rfl, fun _ => rfl⟩, rfl, rfl, rfl⟩
      refine ⟨h0.inv.leak hg fun q hq => live_acquire_none (ho.owners q hq), fun hb => ?_,
        fun hn => (h.clean hn).log (by simp [Call.arg])⟩
      rw [(ho.strict hb).1] at hm
      cases hm
    | true =>
      obtain ⟨_, hcalls, hg⟩ := openWith_grows fn arg leak (h.inv.new_not_member _ _) ha hm
        (ho.clash addr ha)
      have hf : Fits (W.fresh + 1) (wrapper c leak addr W) ⟨W.fresh, addr⟩
          (W.log (.acquire fn (some arg) none [])) := by
        refine ⟨rfl, ?_, fun _ => ho.par, fun q hq => live_acquire_none (ho.owners q hq), ho.leaf,
          fun hk => absurd hk ho.kind, ho.unshut (by rw [ha]; exact Option.some_ne_none addr)⟩
        show 1 + (if c.managed = true then 1 else 0) ≤
          1 + (if c.managed = true then 1 else 0) + leak
        omega
      refine ⟨h0.inv.grow hg hf, fun hb => ?_, fun hn e he => ?_⟩
      · have hst := ho.strict hb
        apply Strict.grow h0.inv hg hf (h0.strict hb) (fun _ => hst.2)
        intro hk y d hy hd
        obtain ⟨g, hg'⟩ := HashSet.mem_keys.mp (show y ∈ HashSet.keys (W.reg c.parent .sftp) from hy)
        obtain ⟨r, hr⟩ := Option.ne_none_iff_exists'.mp ((h.strict hb).exact c.parent .sftp y d hy hd)
        rw [← h.inv.stored c.parent .sftp y g d r hg' ⟨hd, hr⟩]
        exact ho.clash addr ha hk (y, g) hg'
      · rw [hcalls] at he
        rcases List.mem_cons.mp he with h1 | h1
        · rw [h1]
          exact Option.some_ne_none arg
        · exact h.clean hn e h1

/-! ## the methods -/

theorem onSession_eq {F : Ptr → World × Ret} (hs : W.heap s = some e) :
    onSession s W F = F e.session := by
  rw [onSession, hs]

theorem opens_child (h : Good b n [] [] W) (hs : W.heap s = some e) (hk : e.kind = .session)
    (hkk : k.parent = some .session) (ha : Answers W e.session a)
    (hd : k = .sftp → Distinct W s e.session a) (hb : b → a.alloc = true ∧ k ≠ .listener) :
    Opens b e.session (child s e.session k) leak a W := by
  have hopen := h.inv.session_open hs hk
  have hlive := h.inv.live_ptr hopen
  have howners : (child s e.session k).owners = [e.session] := by
    cases k <;> first | rfl | cases hkk
  refine ⟨hlive, hlive, ?_, ⟨e, e.session, hopen, ?_, ?_, rfl⟩, ?_, ?_, ?_, ?_, fun h1 =>
    ⟨(hb h1).1, rfl, (hb h1).2⟩⟩
  · rintro (rfl : k = .session)
    cases hkk
  · rw [hk]
    exact hkk
  · rw [Obj.ownerPtr, howners]
    rfl
  · intro q hq
    rw [howners] at hq
    rw [List.mem_singleton.mp hq]
    exact hlive
  · rintro (h1 | h1) <;> (have h2 : k = _ := h1; rw [h2] at hkk; cases hkk)
  · intro hne _ t ht
    have hte : t = e := Option.some.inj (ht.symm.trans hs)
    subst hte
    have hup := ha hne
    rw [(h.inv.started s t _ hopen hk).2] at hup
    rintro (⟨h1, _⟩ | ⟨_, h1⟩)
    · rw [hk] at h1
      cases h1
    · rw [hup] at h1
      cases h1
  · intro addr haddr (hk' : k = .sftp) r hr
    subst hk'
    exact hd rfl addr haddr r hr

theorem good_openChild (h : Good b n [] [] W) (hs : W.heap s = some e) (hk : e.kind = .session)
    (hkk : k.parent = some .session) (ha : Answers W e.session a)
    (hd : k = .sftp → Distinct W s e.session a) (hb : b → a.alloc = true ∧ k ≠ .listener) :
    Good b n [] [] (onSession s W fun p => openWith fn p (child s p k) leak a W).1 := by
  rw [onSession_eq hs]
  exact good_openWith h (opens_child h hs hk hkk ha hd hb)

theorem good_scpRecv (h : Good b n [] [] W) (hs : W.heap s = some e) (hk : e.kind = .session)
    (ha : Answers W e.session a) (hb : b → a.alloc = true) :
    Good b n [] [] (Session.scpRecv s a W).1 := by
  rw [Session.scpRecv, onSession_eq hs]
  cases hr : a.ret with
  | none => exact good_acquire_none h (h.inv.live_ptr (h.inv.session_open hs hk))
  | some addr =>
    exact good_openWith h (opens_child h hs hk rfl ha (fun h1 => by cases h1) fun h1 =>
      ⟨hb h1, by decide⟩)

theorem good_directTcpip (h : Good b n [] [] W) (hs : W.heap s = some e) (hk : e.kind = .session)
    (hb : ¬ b) : Good b n [] [] (Session.directTcpip s a W).1 := by
  have hlive := h.inv.live_ptr (h.inv.session_open hs hk)
  have h0 : Good b n [] [] (W.log (.acquire .channelDirectTcpip (some e.session) none [])) :=
    good_acquire_none h hlive
  rw [Session.directTcpip, onSession_eq hs]
  cases ha : a.ret with
  | none => exact good_failOpen h0 (live_acquire_none hlive)
  | some addr =>
    have hg : Leaks ⟨W.fresh, addr⟩ [e.session]
        (W.log (.acquire .channelDirectTcpip (some e.session) none []))
        { W.log (.acquire .channelDirectTcpip (some e.session) (some ⟨W.fresh, addr⟩) [e.session]) with
          fresh := W.fresh + 1, raw := (s, ⟨W.fresh, addr⟩) :: W.raw } :=
      ⟨⟨⟨Nat.le_refl _, Nat.lt_succ_self _⟩, rfl, fun _ => rfl⟩, rfl, rfl, rfl⟩
    refine ⟨h0.inv.leak hg fun q hq => ?_, fun h1 => absurd h1 hb,
      fun hn => (h.clean hn).log (by simp [Call.arg])⟩
    rw [List.mem_singleton.mp hq]
    exact live_acquire_none hlive

theorem good_accept (h : Good b n [] [] W) (hl : W.Open l e p) (hk : e.kind = .listener) (hb : ¬ b) :
    Good b n [] [] (Listener.accept l a W).1 := by
  have hacc : Listener.accept l a W = openWith .channelForwardAccept p
      { child e.parent e.session .channel with managed := false } 0 a W := by
    rw [Listener.accept, hl.1]
    simp only [hl.2]
  rw [hacc]
  have hns : e.kind ≠ .session := by rw [hk]; decide
  obtain ⟨t, r, ht, h1, h2⟩ := h.inv.par l e p hl hns
  have hsess := h.inv.live_session hl hns
  have htk : t.kind = .session := by
    rw [hk] at h1
    exact (Option.some.inj h1).symm
  have hr : r = e.session := by
    have h3 : e.owners = [e.session] := by rw [Obj.owners, hk]
    rw [Obj.ownerPtr, h3] at h2
    exact (Option.some.inj h2).symm
  refine good_openWith h ⟨h.inv.live_ptr hl, hsess, ?_, ⟨t, r, ht, ?_, ?_, ?_⟩, ?_, ?_, ?_, ?_,
    fun h3 => absurd h3 hb⟩
  · show Kind.channel ≠ _
    decide
  · rw [htk]
    rfl
  · rw [hr]
    rfl
  · exact (h.inv.kin l e t hl.1 hns ht.1).2
  · intro q hq
    rw [List.mem_singleton.mp hq]
    exact hsess
  · rintro (h3 | h3) <;> cases h3
  · intro _ h3
    cases h3
  · intro _ _ h3
    cases h3

theorem openHandle_closed (hf : W.heap f = some e) (hp : e.ptr = none) :
    openHandle fn k f a W = (W, .raised .libssh2) := by
  simp only [openHandle, hf, hp]

theorem openHandle_open (hf : W.Open f e p) : openHandle fn k f a W =
    if a.ret = none ∧ a.rc = errorSftpProtocol then
      ((openWith fn p { child f e.session k with sftp := some p } 0 a W).1.log
        (.use .sftpLastError (some p)),
        (openWith fn p { child f e.session k with sftp := some p } 0 a W).2)
    else openWith fn p { child f e.session k with sftp := some p } 0 a W := by
  simp only [openHandle, hf.1, hf.2]

theorem good_openHandle (h : Good b n [] [] W) (hf : W.heap f = some e) (hk : e.kind = .sftp)
    (hkk : k = .file ∨ k = .dir) (hb : b → a.alloc = true) :
    Good b n [] [] (openHandle fn k f a W).1 := by
  cases hp : e.ptr with
  | none =>
    rw [openHandle_closed hf hp]
    exact h
  | some p =>
    have hopen : W.Open f e p := ⟨hf, hp⟩
    have hsess := h.inv.live_session hopen (by rw [hk]; decide)
    have howners : ({ child f e.session k with sftp := some p } : Obj).owners = [p, e.session] := by
      rcases hkk with rfl | rfl <;> rfl
    have hkp : k.parent = some .sftp := by rcases hkk with rfl | rfl <;> rfl
    have hns : k ≠ .session ∧ k ≠ .sftp ∧ k ≠ .listener := by
      rcases hkk with rfl | rfl <;> exact ⟨by decide, by decide, by decide⟩
    have hgood :
        Good b n [] [] (openWith fn p { child f e.session k with sftp := some p } 0 a W).1 := by
      refine good_openWith h ⟨h.inv.live_ptr hopen, hsess, hns.1, ⟨e, p, hopen, ?_, ?_, rfl⟩, ?_, ?_,
        ?_, ?_, fun h1 => ⟨hb h1, rfl, hns.2.2⟩⟩
      · rw [hk]
        exact hkp
      · rw [Obj.ownerPtr, howners]
        rfl
      · intro q hq
        rw [howners] at hq
        rcases List.mem_cons.mp hq with h1 | h1
        · rw [h1]
          exact h.inv.live_ptr hopen
        · rw [List.mem_singleton.mp h1]
          exact hsess
      · intro _
        exact ⟨Option.some_ne_none p, rfl⟩
      · intro _ _ t ht
        have hte : t = e := Option.some.inj (ht.symm.trans hf)
        rw [hte]
        rintro (⟨_, h1⟩ | ⟨h1, _⟩)
        · rw [hp] at h1
          cases h1
        · rw [hk] at h1
          cases h1
      · intro addr _ h1
        exact absurd h1 hns.2.1
    rw [openHandle_open hopen]
    by_cases hcond : a.ret = none ∧ a.rc = errorSftpProtocol
    · rw [if_pos hcond]
      refine hgood.use (hgood.inv.live_ptr (x := f) (c := e) ?_) _
      rw [openWith_none hcond.1]
      exact hopen
    · rw [if_neg hcond]
      exact hgood

/-! ## new sessions -/

theorem good_sessionInit {addr : Addr} (h : Good b n [] [] W) :
    Good b n [] [] (Session.init addr W).1 := by
  let c : Obj := { child (W.fresh + 1) ⟨W.fresh, addr⟩ .session with
    ptr := some ⟨W.fresh, addr⟩, managed := false, refcnt := 1 }
  let W1 : World := { W.log (.init ⟨W.fresh, addr⟩) with
    heap := Function.update W.heap (W.fresh + 1) (some c)
    fresh := W.fresh + 2
    held := Function.update W.held (W.fresh + 1) 1 }
  have hW1 : (Session.init addr W).1 = W1.log (.use .bannerSet (some ⟨W.fresh, addr⟩)) := rfl
  have hg : Grows (W.fresh + 1) c ⟨W.fresh, addr⟩ W W1 := by
    refine ⟨⟨⟨Nat.le_refl _, ?_⟩, rfl, fun _ => rfl⟩, ⟨Nat.le_succ _, Nat.lt_succ_self _⟩, rfl, ?_, rfl⟩
    · show W.fresh < W.fresh + 2
      omega
    · intro j k
      rw [if_neg fun h1 => Bool.false_ne_true h1.1]
      rfl
  have hf : Fits (W.fresh + 1) c ⟨W.fresh, addr⟩ W := by
    refine ⟨rfl, Nat.le_refl 1, fun h1 => absurd rfl h1, ?_, ?_, fun _ => ⟨rfl, rfl, rfl, rfl⟩, ?_⟩
    · intro q hq
      exact absurd hq List.not_mem_nil
    · rintro (h1 | h1) <;> cases h1
    · intro h1
      cases h1
  have h1 : Good b n [] [] W1 := by
    refine ⟨h.inv.grow hg hf, fun hb => ?_, fun hn => (h.clean hn).log (by simp [Call.arg])⟩
    apply Strict.grow h.inv hg hf (h.strict hb) (fun h2 => absurd rfl h2)
    intro h2
    cases h2
  rw [hW1]
  refine h1.use (h1.inv.live_ptr (x := W.fresh + 1) (c := c) ⟨?_, rfl⟩) _
  exact Function.update_self ..

theorem good_startup {rc : Int} (h : Good b n [] [] W) (hs : W.heap s = some e)
    (hk : e.kind = .session) : Good b n [] [] (Session.startup s rc W).1 := by
  have hopen := h.inv.session_open hs hk
  have hlive := h.inv.live_ptr hopen
  rw [Session.startup, onSession_eq hs]
  by_cases hrc : rc < 0
  · have hup : ∀ t cs, up t (.startup (some e.session) rc :: cs) = up t cs := by
      intro t cs
      rw [up, if_neg fun h1 => by omega]
    have h1 : Good b n [] [] (W.log (.startup (some e.session) rc)) :=
      ⟨h.inv.log_use rfl hup hlive, fun hb => (h.strict hb).log_use rfl,
        fun hn => (h.clean hn).log (by simp [Call.arg])⟩
    simp only [if_pos hrc]
    apply good_failOpen h1
    rw [history_log]
    exact hlive.cons fun p => by simp
  · have hup : ∀ t cs, up t (.startup (some e.session) rc :: cs) =
        if t = e.session then true else up t cs := by
      intro t cs
      rw [up]
      by_cases ht : t = e.session
      · rw [if_pos ht, if_pos ⟨by rw [ht], by omega⟩]
      · rw [if_neg ht, if_neg fun h1 => ht (Option.some.inj h1.1).symm]
    simp only [if_neg hrc]
    refine ⟨h.inv.mark (.use e.session) hopen hk rfl (Or.inl rfl) hup fun h1 => ?_, fun hb => ?_,
      fun hn => (h.clean hn).log (by simp [Call.arg])⟩
    · cases h1
    · exact (h.strict hb).mark rfl (Or.inl (rfl : Event.use e.session = _)) trivial

end PyLibssh2

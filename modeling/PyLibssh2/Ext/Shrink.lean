import PyLibssh2.Ext.Frame

/-!
# What every function does

A closing function makes calls that acquire nothing and release what was open, closes objects, takes
members out of registries and deletes objects, in whatever state it is called.  `Closing R` says that the
relation `R` between two worlds holds for each of these changes; it then holds for every closing function
and for every method that works on a handle.

`Passing R P` says besides that the property `P` of worlds survives what an open function does: a handle is
returned, an object made, entered in a set and handed to Python.  `Passing.step` is then one pass over all
calls of the module.
-/

set_option linter.unusedSectionVars false
set_option linter.unusedVariables false

namespace PyLibssh2

open World

structure Closing (R : World → World → Prop) : Prop where
  refl : ∀ W, R W W
  trans : ∀ {W W' W''}, R W W' → R W' W'' → R W W''
  /-- a call; what it releases was open at the beginning -/
  log : ∀ {V W} (e : Call), R V W → (∀ p os, .acquire p os ∉ e.events) →
    (∀ p, .release p ∈ e.events → ∃ x c, V.Open x c p) → R V (W.log e)
  /-- an object closed, its count or its field `opened` changed -/
  wear : ∀ (W) (x : Ref) (f : Obj → Obj), (∀ e, Worn e (f e)) → R W (W.modify x f)
  thin : ∀ (W : World) (o : Ref) (k : Kind) (r : PySet),
    (∀ y ∈ HashSet.keys r, y ∈ W.members o k) → R W (W.setReg o k r)
  del : ∀ W x, R W (W.del x)

namespace Closing

variable {R : World → World → Prop} {V W : World} {x o s : Ref} {k : Kind} {p : Ptr}
  {dec body close : Ref → World → World}

/-! ## elementary changes -/

theorem use (hR : Closing R) (h : R V W) (fn : UseFn) (a : Option Ptr) : R V (W.log (.use fn a)) := by
  refine hR.log _ h (fun p os hm => ?_) fun p hm => ?_
  · simp [Call.events] at hm
  · simp [Call.events] at hm

theorem free (hR : Closing R) (h : R V W) (fn : FreeFn) (hp : ∃ x c, V.Open x c p) :
    R V (W.log (.free fn (some p))) := by
  refine hR.log _ h (fun q os hm => ?_) fun q hm => ?_
  · simp [Call.events] at hm
  · have hqp : q = p := by simpa [Call.events] using hm
    rw [hqp]
    exact hp

theorem clear (hR : Closing R) (W : World) (x : Ref) : R W (W.clear x) :=
  hR.wear W x _ fun _ => ⟨rfl, rfl, rfl, rfl, rfl, Or.inr rfl⟩

theorem decd (hR : Closing R) (W : World) (x : Ref) : R W (PyLibssh2.decd x W) :=
  hR.wear W x _ fun _ => ⟨rfl, rfl, rfl, rfl, rfl, Or.inl rfl⟩

theorem popped (hR : Closing R) (W : World) (o : Ref) (k : Kind) (x : Ref) :
    R W (PyLibssh2.popped o k x W) :=
  hR.thin W o k _ fun y hy => (HashSet.mem_keys_drop.mp hy).1

/-! ## sets -/

theorem decrefBy (hR : Closing R) (hd : ∀ W x, R W (dec x W)) :
    R W (PyLibssh2.decrefBy dec x W) := by
  unfold PyLibssh2.decrefBy
  split
  · exact hR.refl W
  · simp only
    split
    · exact hR.trans (hR.decd W x) (hd _ _)
    · exact hR.decd W x

theorem setDiscard (hR : Closing R) (hd : ∀ W x, R W (dec x W)) :
    R W (PyLibssh2.setDiscard dec o k x W) := by
  unfold PyLibssh2.setDiscard
  split
  · exact hR.refl W
  · refine hR.trans (hR.thin W o k _ fun y hy => ?_) (hd _ _)
    obtain ⟨g, hg⟩ := HashSet.mem_keys.mp hy
    exact HashSet.mem_keys.mpr ⟨g, List.mem_of_mem_eraseP hg⟩

theorem drain (hR : Closing R) (hb : ∀ W x, R W (body x W)) {pick : Nat → Nat} (n : Nat) :
    R W (PyLibssh2.drain body o k pick n W) := by
  induction n generalizing W with
  | zero => exact hR.refl W
  | succ n ih =>
    rw [PyLibssh2.drain]
    split
    · exact hR.refl W
    · exact hR.trans (hR.trans (hR.popped W o k _) (hb _ _)) ih

theorem fold (hR : Closing R) (hd : ∀ W x, R W (dec x W)) (l : List Ref) (W : World) :
    R W (l.foldl (fun W x => dec x W) W) := by
  induction l generalizing W with
  | nil => exact hR.refl W
  | cons a l ih => exact hR.trans (hd W a) (ih _)

theorem decrefSet (hR : Closing R) (hd : ∀ W x, R W (dec x W)) :
    R W (PyLibssh2.decrefSet dec o k W) :=
  hR.trans (hR.thin W o k [] fun y hy => absurd hy List.not_mem_nil) (hR.fold hd _ _)

/-! ## closing -/

theorem opens_of_bind (h : (W.heap x).bind Obj.ptr = some p) : ∃ y c, W.Open y c p := by
  obtain ⟨c, hc, hp⟩ := Option.bind_eq_some_iff.mp h
  exact ⟨x, c, hc, hp⟩

theorem channelClose (hR : Closing R) (W : World) (x : Ref) : R W (PyLibssh2.channelClose x W) := by
  unfold PyLibssh2.channelClose
  split
  · rename_i p hp
    exact hR.trans (hR.free (hR.use (hR.refl W) _ _) _ (opens_of_bind hp)) (hR.clear _ x)
  · exact hR.refl W

theorem giveBack (hR : Closing R) (fn : FreeFn) (W : World) (x : Ref) :
    R W (PyLibssh2.giveBack fn x W) := by
  refine hR.trans (hR.log _ (hR.refl W) (fun q os hm => ?_) fun q hm => ?_) (hR.clear _ x)
  · simp [Call.events] at hm
  · have hq : (W.heap x).bind Obj.ptr = some q := by simpa [Call.events] using hm
    exact opens_of_bind hq

theorem deallocWith (hR : Closing R) (hc : ∀ W x, R W (close x W)) (W : World) (x : Ref) :
    R W (PyLibssh2.deallocWith close x W) := by
  unfold PyLibssh2.deallocWith
  split
  · exact hR.trans (hc W x) (hR.del _ x)
  · exact hR.del W x

theorem handleDealloc (hR : Closing R) (W : World) (x : Ref) :
    R W (PyLibssh2.handleDealloc x W) := by
  unfold PyLibssh2.handleDealloc
  split
  · exact hR.trans (hR.giveBack _ W x) (hR.del _ x)
  · exact hR.refl W

theorem decrefChannel (hR : Closing R) (W : World) (x : Ref) : R W (PyLibssh2.decrefChannel x W) :=
  hR.decrefBy (hR.deallocWith hR.channelClose)

theorem decrefListener (hR : Closing R) (W : World) (x : Ref) : R W (PyLibssh2.decrefListener x W) :=
  hR.decrefBy (hR.deallocWith (hR.giveBack _))

theorem decrefFile (hR : Closing R) (W : World) (x : Ref) : R W (PyLibssh2.decrefFile x W) :=
  hR.decrefBy hR.handleDealloc

theorem decrefDir (hR : Closing R) (W : World) (x : Ref) : R W (PyLibssh2.decrefDir x W) :=
  hR.decrefBy hR.handleDealloc

theorem sftpShutdown (hR : Closing R) (pick : Pick) (W : World) (x : Ref) :
    R W (PyLibssh2.sftpShutdown pick x W) := by
  unfold PyLibssh2.sftpShutdown
  split
  · exact hR.refl W
  · rename_i p hp
    have h1 : R W (drainAll (fun x W => PyLibssh2.decrefDir x (sftpdirClose x W)) x .dir pick W) :=
      hR.drain (fun _ _ => hR.trans (hR.giveBack _ _ _) (hR.decrefDir _ _)) _
    have h2 : ∀ W,
        R W (drainAll (fun x W => PyLibssh2.decrefFile x (sftpdirClose x W)) x .file pick W) :=
      fun _ => hR.drain (fun _ _ => hR.trans (hR.giveBack _ _ _) (hR.decrefFile _ _)) _
    exact hR.trans (hR.free (hR.trans h1 (h2 _)) _ (opens_of_bind hp)) (hR.clear _ x)

theorem sftpDealloc (hR : Closing R) (pick : Pick) (W : World) (x : Ref) :
    R W (PyLibssh2.sftpDealloc pick x W) := by
  unfold PyLibssh2.sftpDealloc
  refine hR.trans (hR.trans (hR.trans ?_ (hR.decrefSet hR.decrefDir)) (hR.decrefSet hR.decrefFile))
    (hR.del _ x)
  split
  · exact hR.trans (hR.sftpShutdown pick W x) (hR.clear _ x)
  · exact hR.refl W

theorem decrefSftp (hR : Closing R) (pick : Pick) (W : World) (x : Ref) :
    R W (PyLibssh2.decrefSftp pick x W) := hR.decrefBy (hR.sftpDealloc pick)

theorem sessionClose (hR : Closing R) (pick : Pick) (W : World) (x : Ref) :
    R W (PyLibssh2.sessionClose pick x W) := by
  unfold PyLibssh2.sessionClose
  split
  · exact hR.refl W
  · split
    · have h1 : R W (drainAll (fun x W => PyLibssh2.decrefSftp pick x (PyLibssh2.sftpShutdown pick x W))
          x .sftp pick W) :=
        hR.drain (fun _ _ => hR.trans (hR.sftpShutdown pick _ _) (hR.decrefSftp pick _ _)) _
      have h2 : ∀ W, R W (drainAll (fun x W => PyLibssh2.decrefChannel x (PyLibssh2.channelClose x W))
          x .channel pick W) :=
        fun _ => hR.drain (fun _ _ => hR.trans (hR.channelClose _ _) (hR.decrefChannel _ _)) _
      have h3 : ∀ W, R W (drainAll (fun x W => PyLibssh2.decrefListener x W) x .listener pick W) :=
        fun _ => hR.drain hR.decrefListener _
      have h4 := hR.trans (hR.trans h1 (h2 _)) (h3 _)
      refine hR.trans (hR.log _ h4 (fun q os hm => ?_) fun q hm => ?_)
        (hR.wear _ x _ fun _ => ⟨rfl, rfl, rfl, rfl, rfl, Or.inl rfl⟩)
      · simp [Call.events] at hm
      · simp [Call.events] at hm
    · exact hR.refl W

theorem sessionDealloc (hR : Closing R) (pick : Pick) (W : World) (x : Ref) :
    R W (PyLibssh2.sessionDealloc pick x W) := by
  unfold PyLibssh2.sessionDealloc
  refine hR.trans (hR.trans (hR.trans (hR.trans ?_ (hR.decrefSet (hR.decrefSftp pick)))
    (hR.decrefSet hR.decrefChannel)) (hR.decrefSet hR.decrefListener)) (hR.del _ x)
  split
  · exact hR.refl W
  · rename_i c hc
    split
    · rename_i p hp
      refine hR.trans (hR.free ?_ _ ⟨x, c, hc, hp⟩) (hR.clear _ x)
      split
      · exact hR.sessionClose pick W x
      · exact hR.refl W
    · exact hR.refl W

theorem decref (hR : Closing R) (pick : Pick) (W : World) (x : Ref) :
    R W (PyLibssh2.decref pick x W) := by
  unfold PyLibssh2.decref
  split
  · exact hR.refl W
  · split
    · exact hR.decrefBy (hR.sessionDealloc pick)
    · exact hR.decrefChannel W x
    · exact hR.decrefSftp pick W x
    · exact hR.decrefFile W x
    · exact hR.decrefDir W x
    · exact hR.decrefListener W x

/-! ## working on a handle -/

theorem guarded (hR : Closing R) (b : Body) (x : Ref) (rc : Int) (W : World) :
    R W (PyLibssh2.guarded b x rc W).1 := by
  unfold PyLibssh2.guarded
  split
  · exact hR.refl W
  · split
    · exact hR.refl W
    · rename_i o _ _ p _
      have h1 : R W (W.log (.use b.fn (some p))) := hR.use (hR.refl W) _ _
      simp only
      split
      · show R W (failUse b o rc (W.log (.use b.fn (some p))))
        unfold failUse
        simp only
        have h2 : R W (if b.lastError = true then
            (W.log (.use b.fn (some p))).log (.use .sessionLastError (some o.session))
            else W.log (.use b.fn (some p))) := by
          split
          · exact hR.use h1 _ _
          · exact h1
        split
        · exact hR.use h2 _ _
        · exact h2
      · exact h1

theorem read (hR : Closing R) (x : Ref) (eof rc : Int) (W : World) :
    R W (Channel.read x eof rc W).1 := by
  unfold Channel.read
  split
  · exact hR.refl W
  · split
    · exact hR.refl W
    · simp only
      split
      · exact hR.use (hR.refl W) _ _
      · exact hR.trans (hR.use (hR.refl W) _ _) (hR.guarded _ _ _ _)

theorem listFiles (hR : Closing R) (x : Ref) (rcs : List Int) (W : World) :
    R W (Sftpdir.listFiles x rcs W).1 := by
  induction rcs generalizing W with
  | nil => exact hR.guarded _ _ _ _
  | cons rc rcs ih =>
    rw [Sftpdir.listFiles]
    split
    · exact hR.guarded _ _ _ _
    · exact hR.trans (hR.guarded _ _ _ _) (ih _)

theorem method (hR : Closing R) (x : Ref) (m : Method) (W : World) : R W (m.run x W).1 := by
  cases m
  case read e rc => exact hR.read _ _ _ _
  case dirListFiles rcs => exact hR.listFiles _ _ _
  all_goals exact hR.guarded _ _ _ _

/-! ## calls of a program -/

theorem sessionChannelClose (hR : Closing R) (s x : Ref) (W : World) :
    R W (Session.channelClose s x W).1 :=
  hR.trans (hR.setDiscard hR.decrefChannel) (hR.channelClose _ x)

theorem sessionSftpShutdown (hR : Closing R) (pick : Pick) (s x : Ref) (W : World) :
    R W (Session.sftpShutdown pick s x W).1 :=
  hR.trans (hR.setDiscard (hR.decrefSftp pick)) (hR.sftpShutdown pick _ x)

theorem forwardCancel (hR : Closing R) (s x : Ref) (W : World) :
    R W (Session.forwardCancel s x W).1 :=
  hR.trans (hR.setDiscard hR.decrefListener) (hR.giveBack _ _ x)

theorem closeFile (hR : Closing R) (f x : Ref) (W : World) : R W (Sftp.closeFile f x W).1 := by
  unfold Sftp.closeFile
  split
  · exact hR.refl W
  · exact hR.trans (hR.setDiscard hR.decrefFile) (hR.giveBack _ _ x)

theorem closeDir (hR : Closing R) (f x : Ref) (W : World) : R W (Sftp.closeDir f x W).1 := by
  unfold Sftp.closeDir
  split
  · exact hR.refl W
  · exact hR.trans (hR.setDiscard hR.decrefDir) (hR.giveBack _ _ x)

end Closing

theorem closing_held : Closing fun W W' => W'.held = W.held where
  refl _ := rfl
  trans h h' := h'.trans h
  log _ h _ _ := h
  wear _ _ _ _ := rfl
  thin _ _ _ _ _ := rfl
  del _ _ := rfl

/-! ## opening -/

structure Passing (R : World → World → Prop) (P : World → Prop) : Prop where
  closing : Closing R
  keep : ∀ {W W'}, R W W' → P W → P W'
  /-- libssh2 returns a handle, if any the next one -/
  got : ∀ {W : World} (e : Call) (raw : List (Ref × Ptr)), P W →
    (∀ p os, .acquire p os ∈ e.events → p.serial = W.fresh) → (∀ p, .release p ∉ e.events) →
    P { W.log e with fresh := W.fresh + 1, raw := raw }
  new : ∀ {W : World} (c : Obj), P W → (∀ q, c.ptr = some q → q.serial < W.fresh) → P (new c W).1
  add : ∀ {W : World} (o : Ref) (k : Kind) (x : Ref), P W → x < W.fresh → P (setAdd W o k x)
  hand : ∀ {W : World} (x : Ref), P W → P { W with held := Function.update W.held x 1 }

namespace Passing

variable {R : World → World → Prop} {P : World → Prop} {W : World} {x s f l : Ref} {k : Kind} {c : Obj}
  {a : Answer} {fn : OpenFn} {arg : Ptr} {leak : Nat}

theorem log (hP : Passing R P) (h : P W) (e : Call) (ha : ∀ p os, .acquire p os ∉ e.events)
    (hr : ∀ p, .release p ∉ e.events) : P (W.log e) :=
  hP.keep (hP.closing.log e (hP.closing.refl W) ha fun p hm => absurd hm (hr p)) h

theorem use (hP : Passing R P) (h : P W) (fn : UseFn) (a : Option Ptr) : P (W.log (.use fn a)) :=
  hP.keep (hP.closing.use (hP.closing.refl W) fn a) h

theorem refused (hP : Passing R P) (h : P W) (fn : OpenFn) (a : Option Ptr) :
    P (W.log (.acquire fn a none [])) := by
  refine hP.log h _ (fun p os hm => ?_) fun p hm => ?_
  · simp [Call.events] at hm
  · simp [Call.events] at hm

theorem failOpen (hP : Passing R P) (h : P W) (session : Ptr) : P (PyLibssh2.failOpen session W).1 :=
  hP.use h _ _

theorem obtained (hP : Passing R P) (h : P W) (fn : OpenFn) (arg : Ptr) (addr : Addr) (os : List Ptr)
    (raw : List (Ref × Ptr)) :
    P { W.log (.acquire fn (some arg) (some ⟨W.fresh, addr⟩) os) with fresh := W.fresh + 1, raw := raw } := by
  refine hP.got _ raw h (fun p os' hm => ?_) fun p hm => ?_
  · have hm' : p = ⟨W.fresh, addr⟩ ∧ os' = os := by simpa [Call.events] using hm
    rw [hm'.1]
  · simp [Call.events] at hm

theorem openWith (hP : Passing R P) (h : P W) : P (PyLibssh2.openWith fn arg c leak a W).1 := by
  unfold PyLibssh2.openWith
  split
  · exact hP.failOpen (hP.refused h _ _) _
  · rename_i addr _
    have h1 := hP.obtained h fn arg addr c.owners W.raw
    simp only
    split
    · have h2 := hP.new { c with ptr := some ⟨W.fresh, addr⟩ } h1 fun q hq => by
        cases hq
        exact Nat.lt_succ_self _
      refine hP.hand _ (hP.keep (hP.closing.wear _ _ (fun c => { c with refcnt := c.refcnt + leak })
        fun _ => ⟨rfl, rfl, rfl, rfl, rfl, Or.inl rfl⟩) ?_)
      split
      · exact hP.add _ _ _ h2 (Nat.lt_succ_self _)
      · exact h2
    · exact h1

theorem onSession (hP : Passing R P) {F : Ptr → World × Ret} (h : P W) (hF : ∀ p, P (F p).1) :
    P (PyLibssh2.onSession s W F).1 := by
  unfold PyLibssh2.onSession
  split
  · exact hF _
  · exact h

theorem openHandle (hP : Passing R P) (h : P W) : P (PyLibssh2.openHandle fn k f a W).1 := by
  unfold PyLibssh2.openHandle
  split
  · exact h
  · split
    · exact h
    · simp only
      split
      · exact hP.use (hP.openWith h) _ _
      · exact hP.openWith h

theorem scpRecv (hP : Passing R P) (h : P W) : P (Session.scpRecv s a W).1 := by
  apply hP.onSession h
  intro p
  split
  · exact hP.refused h _ _
  · exact hP.openWith h

theorem directTcpip (hP : Passing R P) (h : P W) : P (Session.directTcpip s a W).1 := by
  apply hP.onSession h
  intro p
  simp only
  split
  · exact hP.failOpen (hP.refused h _ _) _
  · exact hP.obtained h _ _ _ _ _

theorem accept (hP : Passing R P) (h : P W) : P (Listener.accept l a W).1 := by
  unfold Listener.accept
  split
  · exact h
  · split
    · exact hP.openWith h
    · exact hP.failOpen (hP.refused h _ _) _

theorem init (hP : Passing R P) (h : P W) (addr : Addr) : P (Session.init addr W).1 := by
  have h1 := hP.got (.init ⟨W.fresh, addr⟩) W.raw h (fun p os hm => ?_) fun p hm => ?_
  · refine hP.hand _ (hP.use (hP.new _ h1 fun q hq => ?_) _ _)
    cases hq
    exact Nat.lt_succ_self _
  · have hm' : p = ⟨W.fresh, addr⟩ ∧ os = [] := by simpa [Call.events] using hm
    rw [hm'.1]
  · simp [Call.events] at hm

theorem startup (hP : Passing R P) (h : P W) (rc : Int) : P (Session.startup s rc W).1 := by
  apply hP.onSession h
  intro p
  have h1 : P (W.log (.startup (some p) rc)) := by
    refine hP.log h _ (fun p os hm => ?_) fun p hm => ?_
    · simp [Call.events] at hm
    · simp [Call.events] at hm
  simp only
  split
  · exact hP.failOpen h1 _
  · exact hP.keep (hP.closing.wear _ s _ fun _ => ⟨rfl, rfl, rfl, rfl, rfl, Or.inl rfl⟩) h1

/-- what is left to show for a property of worlds is that it survives a reference given up by Python code -/
theorem step (hP : Passing R P) (h : P W) (act : Act) (hdrop : ∀ x pick, act = .drop x pick →
    P { W with held := Function.update W.held x (W.held x - 1) }) : P (PyLibssh2.step W act).1 := by
  cases act with
  | session A => exact hP.init h A
  | startup s rc => exact hP.startup h rc
  | openSession s A => exact hP.onSession h fun _ => hP.openWith h
  | scpSend s A => exact hP.onSession h fun _ => hP.openWith h
  | scpRecv s A => exact hP.scpRecv h
  | sftpInit s A => exact hP.onSession h fun _ => hP.openWith h
  | directTcpip s A => exact hP.directTcpip h
  | forwardListen s A => exact hP.onSession h fun _ => hP.openWith h
  | accept l A => exact hP.accept h
  | openFile f A => exact hP.openHandle h
  | openDir f A => exact hP.openHandle h
  | channelClose s c => exact hP.keep (hP.closing.sessionChannelClose s c W) h
  | sftpShutdown s f pick => exact hP.keep (hP.closing.sessionSftpShutdown pick s f W) h
  | forwardCancel s l => exact hP.keep (hP.closing.forwardCancel s l W) h
  | closeFile f x => exact hP.keep (hP.closing.closeFile f x W) h
  | closeDir f x => exact hP.keep (hP.closing.closeDir f x W) h
  | close s pick rc => exact hP.keep (hP.closing.sessionClose pick W s) h
  | drop x pick => exact hP.keep (hP.closing.decref pick _ x) (hdrop x pick rfl)
  | method x m => exact hP.keep (hP.closing.method x m W) h
  | sessionMethod s fn => exact hP.onSession h fun _ => hP.use h _ _

end Passing

end PyLibssh2

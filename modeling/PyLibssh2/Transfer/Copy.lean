import PyLibssh2.Transfer.Put

/-!
# The files of `Sftp.copy_file`

The helper opens two files of one sftp.  No call is handled, so that an exception after the first open
leaves the first file in the set, and after the second one both.

* `copyFileRound`   one round: the opens, or one pass of the loop in `SftpFile.read(-1)`;
* `Both`            the two files stand next to each other at the end of the set;
* `copyFile_sets`   the set is restored exactly if the first open fails, or the second one and the write
  succeed.
-/

set_option linter.unusedSectionVars false
set_option linter.unusedVariables false

namespace PyLibssh2.Transfer

open Loop World Remote

/-! ## the helper -/

structure CopyFileEnv where
  openSrc : Answer
  openDst : Answer
  read : Nat → ReadReply
  write : WriteReply

/-- the answers as `Remote.readRound` has them -/
def CopyFileEnv.answer (env : CopyFileEnv) (i : Nat) : Option Nat :=
  match env.read i with
  | .data m => some (m + 1)
  | .fails _ => none

/-- the extension module, `src_file`, `dst_file`, and the variables of the loop in `SftpFile.read` -/
structure CopyFileVars where
  world : World
  src : Ref
  dst : Ref
  st : ReadState

inductive CopyFileState
  | entry (W : World)
  | loop (v : CopyFileVars)

structure CopyFileEnd where
  world : World
  raised : Option Raised

/-- what is in the source when it is read -/
def copySource (src dst : Path) (fs : Files) : List UInt8 :=
  ((opened (getFlags ['w']) dst (opened (getFlags ['r']) src fs)) src).getD []

def CopyFileVars.leave (v : CopyFileVars) (W : World) : World :=
  PyLibssh2.leave v.dst (PyLibssh2.leave v.src W)

/-- `dst_file.write(…)` and what follows it -/
def copyFileEnd (f : Ref) (env : CopyFileEnv) (v : CopyFileVars) (buf : List UInt8) : CopyFileEnd :=
  -- the length has to fit into the `int` of `s#`
  if INT_MAX < buf.length then ⟨v.leave v.world, some .overflow⟩
  else
    match Sftpfile.write v.dst (writeRc env.write buf) v.world with
    | (W, .raised e) => ⟨v.leave W, some (.module e)⟩
    | (W, _) =>
      match Sftp.closeFile f v.src W with
      | (W, .raised e) => ⟨v.leave W, some (.module e)⟩
      | (W, _) =>
        match Sftp.closeFile f v.dst W with
        | (W, r) => ⟨v.leave W, raisedBy r⟩

/-- `Sftp.copy_file`, on the remote files `fs` -/
def copyFileRound (f : Ref) (env : CopyFileEnv) (src dst : Path) (fs : Files) :
    CopyFileState → Round CopyFileState CopyFileEnd
  | .entry W =>
    match Sftp.openFile f env.openSrc W with
    | (W, .obj x) =>
      match Sftp.openFile f env.openDst W with
      | (W, .obj y) => .next (.loop ⟨W, x, y, ⟨0, [], copySource src dst fs⟩⟩)
      | (W, r) => .stop ⟨leave x W, raisedBy r⟩
    | (W, r) => .stop ⟨W, raisedBy r⟩
  | .loop v =>
    match Sftpfile.read v.src (readRc (env.read v.st.reads) bufferMaxlen v.st.rest) v.world with
    | (W, .raised _) =>
      -- `new_buf = ""`
      .stop (copyFileEnd f env { v with world := W } v.st.buf)
    | (W, _) =>
      match readRound env.answer v.st with
      | .next st => .next (.loop { v with world := W, st := st })
      | .stop buf => .stop (copyFileEnd f env { v with world := W } buf)

variable {f x y : Ref} {env : CopyFileEnv} {src dst : Path} {fs : Files} {W V V' : World} {e e' : Obj}
  {v : CopyFileVars} {r : CopyFileEnd} {a : Answer} {buf : List UInt8}

/-! ## two files -/

/-- the files `x` and `y` were opened one after the other since `W`, and are open -/
structure Both (f x y : Ref) (W V : World) : Prop where
  src : ∃ g, Holding f .file x (W.reg f .file) [(y, g)] V
  dst : ∃ g, Holding f .file y (W.reg f .file ++ [(x, g)]) [] V
  aside : Aside f .file W V
  sftp : ∃ p, (V.heap f).bind Obj.ptr = some p
  ne : x ≠ y
  apart : f ≠ x

theorem both_opened (hf : ∃ p, (W.heap f).bind Obj.ptr = some p) (h1 : Opened f .file x W V)
    (h2 : Opened f .file y V V') : Both f x y W V' := by
  obtain ⟨e, p, hx, hk, hr, hreg⟩ := h1.holding.isOpen
  obtain ⟨e', p', hy, hk', hr', hreg'⟩ := h2.holding.isOpen
  have hne : x ≠ y := by
    intro heq
    have h3 := hx.1
    rw [heq, h2.new] at h3
    cases h3
  have hapart : f ≠ x := by
    intro heq
    obtain ⟨q, hq⟩ := hf
    rw [heq, h1.new] at hq
    cases hq
  have hx' : V'.Open x e p := ⟨by rw [h2.heap x hne]; exact hx.1, hx.2⟩
  refine ⟨⟨e'.hash, ⟨e, p, hx', hk, hr, ?_⟩, h1.holding.notPre⟩, ⟨e.hash, ?_⟩, h1.aside.trans h2.aside,
    h2.sftp (h1.sftp hf), hne, hapart⟩
  · rw [hreg', hreg, List.append_assoc]
    rfl
  · rw [← hreg]
    exact h2.holding

theorem Both.calls (h : Both f x y W V) (hw : OnlyCalls V V') : Both f x y W V' := by
  obtain ⟨g, hsrc⟩ := h.src
  obtain ⟨g', hdst⟩ := h.dst
  refine ⟨⟨g, hsrc.calls hw⟩, ⟨g', hdst.calls hw⟩, h.aside.calls hw, ?_, h.ne, h.apart⟩
  rw [hw.heap]
  exact h.sftp

theorem leave_leave (hne : x ≠ y) (hx : V.heap x = some e) (hk : e.kind = .file)
    (hy : V.heap y = some e') (hk' : e'.kind = .file) : (leave y (leave x V)).reg = V.reg := by
  obtain ⟨h1, h2⟩ := leave_reg hx (Or.inr hk)
  have hy' : (leave x V).heap y = some e' := (h2 y (Ne.symm hne)).trans hy
  rw [(leave_reg hy' (Or.inr hk')).1, h1]

theorem Both.leaked (h : Both f x y W V) : Leaked f .file W (leave y (leave x V)) := by
  obtain ⟨g, hsrc⟩ := h.src
  obtain ⟨g', hdst⟩ := h.dst
  have hm := hsrc.member
  have hnew := hsrc.notPre
  obtain ⟨e, _, hx, hk, _⟩ := hsrc.isOpen
  obtain ⟨e', _, hy, hk', _⟩ := hdst.isOpen
  refine ⟨x, ?_, hnew⟩
  rw [World.members, leave_leave h.ne hx.1 hk hy.1 hk']
  exact hm

theorem Both.close (h : Both f x y W V) : ∃ V1 V2, Sftp.closeFile f x V = (V1, .none) ∧
    Sftp.closeFile f y V1 = (V2, .none) ∧ (leave y (leave x V2)).reg = W.reg := by
  obtain ⟨g, hsrc⟩ := h.src
  obtain ⟨g', hdst⟩ := h.dst
  obtain ⟨V1, hclose1, ht1⟩ := hsrc.closeFile h.sftp
  -- the second file is now the last member
  have hdst1 : Holding f .file y (W.reg f .file) [] V1 := by
    have hnew := hdst.notPre
    obtain ⟨e, p, hy, hk, hr, hreg⟩ := hdst.isOpen
    obtain ⟨_, _, _, _, _, hreg'⟩ := hsrc.isOpen
    have hg : g = e.hash := by
      rw [hreg', List.append_assoc] at hreg
      have h1 := List.append_cancel_left hreg
      injection h1 with _ h2
      injection h2 with h3 _
      exact (Prod.mk.inj h3).2
    refine ⟨⟨e, p, ⟨(ht1.heap y (Ne.symm h.ne)).trans hy.1, hy.2⟩, hk, hr, ?_⟩, fun hm => hnew ?_⟩
    · rw [ht1.reg, hg]
    · rw [HashSet.keys, List.map_append]
      exact List.mem_append_left _ hm
  have hsftp : ∃ p, (V1.heap f).bind Obj.ptr = some p := by
    rw [ht1.heap f h.apart]
    exact h.sftp
  obtain ⟨V2, hclose2, ht2⟩ := hdst1.closeFile hsftp
  refine ⟨V1, V2, hclose1, hclose2, ?_⟩
  obtain ⟨e, hx, hk, _⟩ := ht1.self
  obtain ⟨e', hy, hk', _⟩ := ht2.self
  have hx2 : V2.heap x = some e := (ht2.heap x h.ne).trans hx
  rw [leave_leave h.ne hx2 hk hy hk']
  apply ((h.aside.trans ht1.aside).trans ht2.aside).reg_eq
  rw [ht2.reg, List.append_nil]

/-! ## the invariant -/

def CopyFileEnv.Restores (env : CopyFileEnv) (f : Ref) (src dst : Path) (fs : Files) (W : World) :
    Prop :=
  FileRefused f env.openSrc W ∨
    (¬ FileRefused f env.openDst W ∧
      ¬ INT_MAX < delivered env.answer 0 (copySource src dst fs).length ∧ ∃ m, env.write = .accepts m)

def CopyFileInv (f : Ref) (env : CopyFileEnv) (src dst : Path) (fs : Files) (W : World) :
    CopyFileState → Prop
  | .entry V => V = W
  | .loop v => ¬ FileRefused f env.openSrc W ∧ ¬ FileRefused f env.openDst W ∧
      Both f v.src v.dst W v.world ∧ Reach (readRound env.answer) ⟨0, [], copySource src dst fs⟩ v.st

theorem copyFileEnd_sets (h : Both f v.src v.dst W v.world)
    (hsrc : ¬ FileRefused f env.openSrc W) (hdst : ¬ FileRefused f env.openDst W)
    (hbuf : Halts (readRound env.answer) ⟨0, [], copySource src dst fs⟩ buf) :
    Either f .file W (copyFileEnd f env v buf).world (env.Restores f src dst fs W) := by
  have hlen : buf.length = delivered env.answer 0 (copySource src dst fs).length := by
    rw [hbuf.unique (readAll_halts env.answer (copySource src dst fs)), readAll_eq, List.length_take,
      min_eq_left (delivered_le _ _ _)]
  by_cases hover : INT_MAX < buf.length
  · refine Or.inr ⟨?_, fun hP => (hP.resolve_left hsrc).2.1 (hlen ▸ hover)⟩
    rw [copyFileEnd, if_pos hover]
    exact h.leaked
  · obtain ⟨g, hheld⟩ := h.dst
    obtain ⟨V, hw, ⟨h0, hres⟩ | ⟨h0, hres⟩⟩ := hheld.negative .sftpWrite false (writeRc env.write buf)
    · obtain ⟨V1, V2, h1, h2, hreg⟩ := (h.calls hw).close
      refine Or.inl ⟨?_, Or.inr ⟨hdst, hlen ▸ hover, writeRc_nonneg.mp h0⟩⟩
      simp only [copyFileEnd, if_neg hover, Sftpfile.write, hres, h1, h2]
      exact hreg
    · refine Or.inr ⟨?_, fun hP => h0 (writeRc_nonneg.mpr (hP.resolve_left hsrc).2.2)⟩
      simp only [copyFileEnd, if_neg hover, Sftpfile.write, hres]
      exact (h.calls hw).leaked

theorem copyFile_entry (hy : Young W) :
    (∃ st, copyFileRound f env src dst fs (.entry W) = .next st ∧ CopyFileInv f env src dst fs W st) ∨
    ∃ r, copyFileRound f env src dst fs (.entry W) = .stop r ∧
      Either f .file W r.world (env.Restores f src dst fs W) := by
  rcases openFile_cases hy f env.openSrc with ⟨V, e, h1, h2, hr⟩ | ⟨V, x, h1, h2, hno⟩
  · exact Or.inr ⟨_, by simp only [copyFileRound, h1]; rfl, Or.inl ⟨h2.reg, Or.inl hr⟩⟩
  · have hf := sftp_of_not_refused hno
    have hV : V = (Sftp.openFile f env.openSrc W).1 := by rw [h1]
    have hyV : Young V := hV ▸ passing_young.openHandle hy
    have hsame : V.heap f = W.heap f := by
      apply h2.heap f
      intro heq
      obtain ⟨q, hq⟩ := hf
      rw [heq, h2.new] at hq
      cases hq
    rcases openFile_cases hyV f env.openDst with ⟨V', e, h3, h4, hr⟩ | ⟨V', y, h3, h4, hr⟩
    · have hrefused := (fileRefused_congr hsame).mp hr
      have hadd : Added f .file x W V' := by
        obtain ⟨⟨e, p, hx, hk, hr, hreg⟩, hnew⟩ := h2.holding
        refine ⟨⟨⟨e, p, ⟨by rw [h4.heap]; exact hx.1, hx.2⟩, hk, hr, by rw [h4.reg, hreg]⟩, hnew⟩,
          fun j i hji => ?_⟩
        rw [h4.reg]
        exact h2.aside j i hji
      refine Or.inr ⟨⟨leave x V', some (.module e)⟩, by simp only [copyFileRound, h1, h3]; rfl,
        Or.inr ⟨hadd.leaked (Or.inr rfl), fun hP => (hP.resolve_left hno).1 hrefused⟩⟩
    · have hno' := mt (fileRefused_congr hsame).mpr hr
      have hI : CopyFileInv f env src dst fs W (.loop ⟨V', x, y, ⟨0, [], copySource src dst fs⟩⟩) :=
        ⟨hno, hno', both_opened hf h2 h4, Reach.refl⟩
      exact Or.inl ⟨_, by simp only [copyFileRound, h1, h3], hI⟩

theorem copyFile_loop (h : CopyFileInv f env src dst fs W (.loop v)) :
    (∃ st, copyFileRound f env src dst fs (.loop v) = .next st ∧ CopyFileInv f env src dst fs W st) ∨
    ∃ r, copyFileRound f env src dst fs (.loop v) = .stop r ∧
      Either f .file W r.world (env.Restores f src dst fs W) := by
  obtain ⟨hsrc, hdst, hboth, hreach⟩ := h
  obtain ⟨g, hheld⟩ := hboth.src
  obtain ⟨V, hw, hres⟩ := hheld.sftpRead (readRc (env.read v.st.reads) bufferMaxlen v.st.rest)
  cases hround : readRound env.answer v.st with
  | next st =>
    have hI : CopyFileInv f env src dst fs W (.loop { v with world := V, st := st }) :=
      ⟨hsrc, hdst, hboth.calls hw, hreach.tail hround⟩
    exact Or.inl ⟨_, by simp only [copyFileRound, hres, hround], hI⟩
  | stop buf =>
    refine Or.inr ⟨copyFileEnd f env { v with world := V } buf, ?_, ?_⟩
    · simp only [copyFileRound, hres, hround]
    · exact copyFileEnd_sets (v := { v with world := V }) (hboth.calls hw) hsrc hdst
        (hreach.halts (halts_stop hround))

theorem copyFile_sets (hy : Young W) (s f : Ref) (env : CopyFileEnv) (src dst : Path) (fs : Files)
    (h : Halts (copyFileRound f env src dst fs) (.entry W) r) : SameSets s f W r.world ↔
      FileRefused f env.openSrc W ∨
        (¬ FileRefused f env.openDst W ∧
          ¬ INT_MAX < delivered env.answer 0 (copySource src dst fs).length ∧
          ∃ m, env.write = .accepts m) := by
  have h0 : CopyFileInv f env src dst fs W (.entry W) := rfl
  apply sameSets_iff (Or.inr ⟨rfl, rfl⟩)
  refine h.of_rounds (CopyFileInv f env src dst fs W)
    (fun r => Either f .file W r.world (env.Restores f src dst fs W)) (fun st hI => ?_) h0
  cases st with
  | entry V =>
    have hV : V = W := hI
    rw [hV]
    exact copyFile_entry hy
  | loop v => exact copyFile_loop hI

end PyLibssh2.Transfer

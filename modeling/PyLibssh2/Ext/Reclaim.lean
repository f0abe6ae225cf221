import PyLibssh2.Ext.Accounts
import PyLibssh2.Ext.Own

/-!
# Which wrappers are reclaimed

When the last reference to a wrapper goes its deallocator runs.  The ones of channels, sftps and listeners
end with `PyObject_Del`; the ones of files and directories call it only if the handle is still there.  A
file or a directory that is open is in the set of its sftp, which has a reference to it, so the handle is
never there any more.
-/

set_option linter.unusedSectionVars false
set_option linter.unusedVariables false

namespace PyLibssh2

open World

variable {as bs : List Act} {W W' : World} {x : Ref} {c d : Obj}

/-- the books of a run, with one object followed from where it is met -/
theorem books_follow (hr : Trans.Run Step World.empty as W) (hx : W.heap x = some c)
    (hr' : Trans.Run Step W bs W') :
    ∃ g : Ghost, g.followed x ∧ g.kind x = c.kind ∧ Books False g [] [] [] W' := by
  obtain ⟨g1, _, h1⟩ := books_run (books_empty (E := False)) hr fun h => h.elim
  obtain ⟨g2, hg, h2⟩ := books_run (h1.follow hx) hr' fun h => h.elim
  have hfol : g2.followed x := by
    rw [hg.followed]
  refine ⟨g2, hfol, ?_, h2⟩
  rw [hg.kind x rfl]
  exact (h1.kinds x c hx).symm

/-- **Reclaiming.**  In any run and from any state of it on, a wrapper that has lost its last reference has
been deleted exactly once, exactly if it is neither a file nor a directory. -/
theorem reclaimed_iff (hr : Trans.Run Step World.empty as W) (hx : W.heap x = some c)
    (hk : c.kind ≠ .session) (hr' : Trans.Run Step W bs W')
    (hgone : ∀ d, W'.heap x = some d → d.refcnt = 0) :
    W'.dels.count x = 1 ↔ c.kind ≠ .file ∧ c.kind ≠ .dir := by
  obtain ⟨g, hfol, hkind, h⟩ := books_follow hr hx hr'
  have hhandle : (g.kind x).Handle ↔ ¬ (c.kind ≠ .file ∧ c.kind ≠ .dir) := by
    rw [hkind, Kind.Handle, not_and_or, not_not, not_not]
  constructor
  · intro h1
    by_contra h2
    have h3 : x ∈ W'.dels := List.count_pos_iff.mp (by rw [h1]; exact Nat.one_pos)
    rcases h.track x hfol with ⟨_, h4⟩ | ⟨_, _, h4⟩
    · exact h4 h3
    · exact h4 (hhandle.mpr h2)
  · intro h1
    have hnot : ¬ (g.kind x).Handle := fun h2 => hhandle.mp h2 h1
    rcases h.track x hfol with ⟨h2, _⟩ | ⟨_, h2, _⟩
    · obtain ⟨d, hd⟩ := Option.ne_none_iff_exists'.mp h2
      have h3 := h.zombie x d hd (hgone d hd) List.not_mem_nil
      rw [h.kinds x d hd] at h3
      exact absurd h3 hnot
    · exact h2

/-! ### a channel, and a file -/

def withChannel : World := (step startedSession (.openSession 1 (answer 1))).1

def channelGone : World :=
  (step (step withChannel (.channelClose 1 3)).1 (.drop 3 fun _ _ _ => 0)).1

theorem reclaimed_iff_channel :
    channelGone.dels.count 3 = 1 ↔ Kind.channel ≠ .file ∧ Kind.channel ≠ .dir := by
  obtain ⟨as, hr⟩ := started_run
  have h1 : Step startedSession (.openSession 1 (answer 1)) withChannel := ⟨⟨by decide, _, rfl, rfl⟩, rfl⟩
  have h2 : Step withChannel (.channelClose 1 3) _ :=
    ⟨⟨⟨by decide, _, rfl, rfl⟩, by decide, _, rfl, rfl⟩, rfl⟩
  have h3 : Step _ (.drop 3 fun _ _ _ => 0) channelGone := ⟨⟨.channel, by decide, _, rfl, rfl⟩, rfl⟩
  refine reclaimed_iff (x := 3) (hr.snoc h1) rfl (fun h => by cases h) ((Trans.Run.nil.snoc h2).snoc h3)
    fun d hd => ?_
  cases hd

/-- the file of a session that is closed stays for ever -/
theorem file_stays : ¬ ∀ as W x c bs W', Trans.Run Step World.empty as W → W.heap x = some c →
    c.kind ≠ .session → Trans.Run Step W bs W' → (∀ d, W'.heap x = some d → d.refcnt = 0) →
    W'.dels.count x = 1 := by
  intro hall
  obtain ⟨as, hr⟩ := withSftp_run
  have h4 : Step withSftp (.openFile 3 (answer 2)) withFile := ⟨⟨by decide, _, rfl, rfl⟩, rfl⟩
  have h5 : Step withFile (.close 1 (fun _ _ _ => 0) 0) _ := ⟨⟨by decide, _, rfl, rfl⟩, rfl⟩
  have h6 : Step _ (.drop 5 fun _ _ _ => 0) closedOver := ⟨⟨.file, by decide, _, rfl, rfl⟩, rfl⟩
  have h7 := hall _ withFile 5 _ _ closedOver (hr.snoc h4) rfl (fun h => by cases h)
    ((Trans.Run.nil.snoc h5).snoc h6) fun d hd => by
      cases hd
      rfl
  exact absurd h7 (by decide)

end PyLibssh2

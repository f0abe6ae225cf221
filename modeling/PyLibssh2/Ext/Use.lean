import PyLibssh2.Ext.Inv

/-!
# Working on an open handle

A method of the form `guarded` makes calls and changes nothing else (`OnlyCalls`); on a wrapper that is
open it raises exactly if libssh2 reports an error.
-/

set_option linter.unusedSectionVars false
set_option linter.unusedVariables false

namespace PyLibssh2

open World

variable {W W' : World} {c x : Ref} {e : Obj} {p : Ptr}

/-- only calls have been made -/
def OnlyCalls (W W' : World) : Prop := ∃ cs, W' = { W with calls := cs }

theorem OnlyCalls.trans {W'' : World} (h : OnlyCalls W W') (h' : OnlyCalls W' W'') :
    OnlyCalls W W'' := by
  obtain ⟨cs, rfl⟩ := h
  obtain ⟨cs', rfl⟩ := h'
  exact ⟨cs', rfl⟩

theorem OnlyCalls.heap (h : OnlyCalls W W') : W'.heap = W.heap := by
  obtain ⟨cs, rfl⟩ := h
  rfl

theorem onlyCalls_guarded (body : Body) (x : Ref) (rc : Int) :
    OnlyCalls W (guarded body x rc W).1 := by
  unfold guarded
  split
  · exact ⟨W.calls, rfl⟩
  · split
    · exact ⟨W.calls, rfl⟩
    · simp only
      split
      · unfold failUse
        simp only
        split <;> split <;> exact ⟨_, rfl⟩
      · exact ⟨_, rfl⟩

theorem onlyCalls_read (x : Ref) (eof rc : Int) : OnlyCalls W (Channel.read x eof rc W).1 := by
  unfold Channel.read
  split
  · exact ⟨W.calls, rfl⟩
  · split
    · exact ⟨W.calls, rfl⟩
    · simp only
      split
      · exact ⟨_, rfl⟩
      · exact OnlyCalls.trans ⟨_, rfl⟩ (onlyCalls_guarded _ _ _)

theorem guarded_result {body : Body} {rc : Int} (hc : W.Open c e p) :
    (guarded body c rc W).2 = if body.fails rc = true then .raised .libssh2 else .none := by
  simp only [guarded, hc.1, hc.2]
  split <;> rfl

theorem read_result_open {eof rc : Int} (hc : W.Open c e p) : (Channel.read c eof rc W).2 =
    if eof = 1 then .none else if rc < 0 then .raised .libssh2 else .none := by
  simp only [Channel.read, hc.1, hc.2]
  split
  · rfl
  · rw [guarded_result (W := W.log (.use .channelEof (some p))) hc]
    by_cases h : rc < 0 <;> simp [negative, h]

end PyLibssh2

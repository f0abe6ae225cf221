import PyLibssh2.Sftp.Remote

/-!
# `Sftp.rename`

The facade asks the server to rename; if that fails with `EIO` it removes the target and asks once
more.  `rename_spec` says what the remote files are afterwards: a normal return has moved the file, an
exception leaves everything as it was, except when the target was removed and the second request
failed as well.  Renaming a file to itself keeps it unless the target was removed.
-/

set_option linter.unusedSectionVars false
set_option linter.unusedVariables false

namespace PyLibssh2.Remote

/-! ## requests -/

def moved (src dst : Path) (fs : Files) : Files := fun p =>
  if p = dst then fs src else if p = src then none else fs p

def removed (p : Path) (fs : Files) : Files := Function.update fs p none

/-- `PYLIBSSH2_Sftp_rename` -/
def sftpRename (isOpen : Bool) (reply : Reply) (src dst : Path) (fs : Files) :
    Files × Except PyExc Unit :=
  if isOpen then
    match requestError "renaming" reply with
    | some e => (fs, .error e)
    | none => (moved src dst fs, .ok ())
  else (fs, .error closedError)

/-- `PYLIBSSH2_Sftp_unlink` -/
def sftpUnlink (isOpen : Bool) (reply : Reply) (path : Path) (fs : Files) :
    Files × Except PyExc Unit :=
  if isOpen then
    match requestError "unlink" reply with
    | some e => (fs, .error e)
    | none => (removed path fs, .ok ())
  else (fs, .error closedError)

/-- `Sftp.rename`; the server answers the first rename with `first`, the removal with `unlink` and the
second rename with `second` -/
def rename (isOpen : Bool) (first unlink second : Reply) (src dst : Path) (fs : Files) :
    Files × Except PyExc Unit :=
  match sftpRename isOpen first src dst fs with
  | (fs, .error (.ioError errno strerror)) =>
    if errno = 5 then
      match sftpUnlink isOpen unlink dst fs with
      | (fs, .error e) => (fs, .error e)
      | (fs, .ok ()) => sftpRename isOpen second src dst fs
    else (fs, .error (.ioError errno strerror))
  | r => r

variable {isOpen : Bool} {r first unlink second : Reply} {src dst p : Path} {fs : Files} {e : PyExc}

theorem moved_self : moved src src fs = fs := by
  funext p
  unfold moved
  by_cases h : p = src
  · rw [if_pos h, h]
  · rw [if_neg h, if_neg h]

theorem moved_spec (h : src ≠ dst) : moved src dst fs dst = fs src ∧ moved src dst fs src = none ∧
    ∀ p, p ≠ src → p ≠ dst → moved src dst fs p = fs p := by
  refine ⟨if_pos rfl, ?_, fun p h1 h2 => ?_⟩
  · unfold moved
    rw [if_neg h, if_pos rfl]
  · unfold moved
    rw [if_neg h2, if_neg h1]

/-- the target may as well be removed before the file is moved there -/
theorem moved_removed (h : src ≠ dst) : moved src dst (removed dst fs) = moved src dst fs := by
  funext p
  unfold moved removed
  by_cases h1 : p = dst
  · rw [if_pos h1, if_pos h1, Function.update_of_ne h]
  · rw [if_neg h1, if_neg h1, Function.update_of_ne h1]

/-! ## one request -/

theorem sftpRename_ok (ho : isOpen = true) :
    sftpRename isOpen .ok src dst fs = (moved src dst fs, .ok ()) := by
  rw [sftpRename, if_pos ho]
  rfl

theorem sftpRename_failed (src dst : Path) (fs : Files) (h : ¬ (isOpen = true ∧ r = .ok)) :
    ∃ e, sftpRename isOpen r src dst fs = (fs, .error e) ∧
      (∀ n s, e = .ioError n s → isOpen = true ∧ requestError "renaming" r = some (.ioError n s)) := by
  unfold sftpRename
  by_cases ho : isOpen = true
  · rw [if_pos ho]
    cases hr : requestError "renaming" r with
    | none => exact absurd ⟨ho, requestError_eq_none.mp hr⟩ h
    | some e => exact ⟨e, rfl, fun n s he => ⟨ho, by rw [he]⟩⟩
  · rw [if_neg ho]
    exact ⟨closedError, rfl, fun n s he => by cases he⟩

theorem sftpUnlink_ok (ho : isOpen = true) : sftpUnlink isOpen .ok p fs = (removed p fs, .ok ()) := by
  rw [sftpUnlink, if_pos ho]
  rfl

theorem sftpUnlink_failed (p : Path) (fs : Files) (ho : isOpen = true) (h : r ≠ .ok) :
    ∃ e, sftpUnlink isOpen r p fs = (fs, .error e) := by
  rw [sftpUnlink, if_pos ho]
  cases hr : requestError "unlink" r with
  | none => exact absurd (requestError_eq_none.mp hr) h
  | some e => exact ⟨e, rfl⟩

/-! ## the three requests -/

/-- the first request fails with a status code that becomes `EIO` -/
def Retries (isOpen : Bool) (first : Reply) : Prop :=
  isOpen = true ∧ ∃ code ∈ eioCodes, first = .status code

theorem rename_first_ok (ho : isOpen = true) :
    rename isOpen .ok unlink second src dst fs = (moved src dst fs, .ok ()) := by
  rw [rename, sftpRename_ok ho]

theorem rename_raises (unlink second : Reply) (src dst : Path) (fs : Files)
    (h : ¬ (isOpen = true ∧ first = .ok)) (hr : ¬ Retries isOpen first) :
    ∃ e, rename isOpen first unlink second src dst fs = (fs, .error e) := by
  obtain ⟨e, he, hio⟩ := sftpRename_failed src dst fs h
  rw [rename, he]
  cases e with
  | error msg => exact ⟨_, rfl⟩
  | overflowError msg => exact ⟨_, rfl⟩
  | ioError n s =>
    have hn : n ≠ 5 := by
      rintro rfl
      obtain ⟨ho, hreq⟩ := hio 5 s rfl
      obtain ⟨code, hc, hcode⟩ := requestError_ioError hreq
      exact hr ⟨ho, code, (errnoToException_eio code).mp ⟨s, hcode⟩, hc⟩
    simp only [if_neg hn]
    exact ⟨_, rfl⟩

theorem rename_retries (hr : Retries isOpen first) :
    rename isOpen first unlink second src dst fs =
      match sftpUnlink isOpen unlink dst fs with
      | (fs, .error e) => (fs, .error e)
      | (fs, .ok ()) => sftpRename isOpen second src dst fs := by
  obtain ⟨ho, code, hmem, rfl⟩ := hr
  obtain ⟨s, hs⟩ := (errnoToException_eio code).mpr hmem
  have hfirst : sftpRename isOpen (.status code) src dst fs = (fs, .error (.ioError 5 s)) := by
    rw [sftpRename, if_pos ho]
    simp only [requestError, hs]
    rfl
  rw [rename, hfirst]
  simp only [if_true]

/-- **What `Sftp.rename` leaves on the server.** -/
theorem rename_spec (isOpen : Bool) (first unlink second : Reply) (src dst : Path) (fs : Files) :
    ((rename isOpen first unlink second src dst fs).2 = .ok () →
      (src ≠ dst →
        (rename isOpen first unlink second src dst fs).1 dst = fs src ∧
        (rename isOpen first unlink second src dst fs).1 src = none ∧
        ∀ p, p ≠ src → p ≠ dst → (rename isOpen first unlink second src dst fs).1 p = fs p) ∧
      (src = dst →
        (¬ Retries isOpen first → (rename isOpen first unlink second src dst fs).1 = fs) ∧
        (Retries isOpen first →
          (rename isOpen first unlink second src dst fs).1 = removed dst fs))) ∧
    (∀ e, (rename isOpen first unlink second src dst fs).2 = .error e →
      (¬ (Retries isOpen first ∧ unlink = .ok) →
        (rename isOpen first unlink second src dst fs).1 = fs) ∧
      (Retries isOpen first ∧ unlink = .ok →
        (rename isOpen first unlink second src dst fs).1 = removed dst fs)) := by
  by_cases h1 : isOpen = true ∧ first = .ok
  · obtain ⟨ho, rfl⟩ := h1
    rw [rename_first_ok ho]
    refine ⟨fun _ => ⟨moved_spec, fun h2 => ⟨fun _ => ?_, fun h3 => ?_⟩⟩, fun e he => by cases he⟩
    · rw [h2]
      exact moved_self
    · obtain ⟨_, code, _, hc⟩ := h3
      cases hc
  · by_cases hr : Retries isOpen first
    · rw [rename_retries hr]
      by_cases hu : unlink = .ok
      · rw [hu, sftpUnlink_ok hr.1]
        simp only
        by_cases h2 : isOpen = true ∧ second = .ok
        · rw [h2.2, sftpRename_ok h2.1]
          refine ⟨fun _ => ⟨fun hne => ?_, fun h3 => ⟨fun h4 => absurd hr h4, fun _ => ?_⟩⟩,
            fun e he => by cases he⟩
          · rw [moved_removed hne]
            exact moved_spec hne
          · rw [h3]
            exact moved_self
        · obtain ⟨e, he, _⟩ := sftpRename_failed src dst (removed dst fs) h2
          rw [he]
          exact ⟨fun h3 => (by cases h3), fun e _ => ⟨fun h3 => absurd ⟨hr, trivial⟩ h3, fun _ => rfl⟩⟩
      · obtain ⟨e, he⟩ := sftpUnlink_failed dst fs hr.1 hu
        rw [he]
        exact ⟨fun h3 => (by cases h3), fun e _ => ⟨fun _ => rfl, fun h3 => absurd h3.2 hu⟩⟩
    · obtain ⟨e, he⟩ := rename_raises unlink second src dst fs h1 hr
      rw [he]
      exact ⟨fun h3 => (by cases h3), fun e _ => ⟨fun _ => rfl, fun h3 => absurd h3.1 hr⟩⟩

/-- a generic failure, twice: the target is gone -/
theorem rename_loses : ¬ ∀ (isOpen : Bool) (first unlink second : Reply) (src dst : Path) (fs : Files),
    ((rename isOpen first unlink second src dst fs).2 = .ok () →
      (src ≠ dst → (rename isOpen first unlink second src dst fs).1 dst = fs src ∧
        (rename isOpen first unlink second src dst fs).1 src = none) ∧
      (src = dst → (rename isOpen first unlink second src dst fs).1 = fs)) ∧
    (∀ e, (rename isOpen first unlink second src dst fs).2 = .error e →
      (rename isOpen first unlink second src dst fs).1 = fs) := by
  intro hall
  have h := (hall true (.status 4) .ok (.status 4) "a" "b" fun _ => some []).2 _ rfl
  have h1 := congrFun h "b"
  exact absurd h1 (by decide)

end PyLibssh2.Remote

import DockerEngine.Native.CreateFault
import DockerEngine.Spec.Create

/-!
# What a failed `Create` of a container leaves behind

The row of the mountpoint is inserted first, and nothing is undone. So a `Create` that fails
leaves everything as it was exactly when it fails before the row is there. Otherwise the row
stays, and as its key follows from the id, no later `Create` with this id succeeds.

- `tryCreate_none`: without errors, this is `Site.create`
- `create_error_restores`: when a failed call leaves no trace
-/

namespace Docker.Restore

open Go

variable {α : Type} {s s' : Site α} {errs : CreateErrs} {id command err : GoString}
  {created : Int} {args : List GoString} {image : Image} {config : Config}

namespace Site

/-! ## A call without errors -/

theorem mkdir_free (hdir : s.hasDir (s.dirPath id) = false) :
    s.mkdir id none = (none, { s with dirs := s.dirs ++ [(id, none)] }) := by
  simp [mkdir, hdir]

theorem openLog_free {c : Container} (hdir : s.hasDir c.root = true) (name : GoString) :
    s.openLog c name none = none := by
  simp [openLog, hdir]

theorem makeFiles_none {c : Container} (hroot : c.root = s.dirPath c.id)
    (hdir : s.hasDir (s.dirPath c.id) = false) :
    s.makeFiles .none c = (none, save { s with dirs := s.dirs ++ [(c.id, none)] } c) := by
  have hmade : hasDir { s with dirs := s.dirs ++ [(c.id, none)] } c.root = true := by
    rw [hroot]
    simp [hasDir, dirPath]
  simp only [makeFiles, CreateErrs.none, mkdir_free hdir, openLog_free hmade, trySave]

theorem makeFiles_exists {c : Container} (hdir : s.hasDir (s.dirPath c.id) = true) :
    s.makeFiles .none c =
      (some (str "mkdir " ++ s.dirPath c.id ++ str ": file exists"), s) := by
  simp only [makeFiles, mkdir, CreateErrs.none, if_pos hdir]

theorem tryCreateContainer_none :
    s.tryCreateContainer .none id created command args image config =
      s.createContainer id created command args image config := by
  have herr : CreateErrs.none.mountpoint = none := rfl
  rcases hrow : s.store.mountpoint image (pathJoin [s.dirPath id, str "rootfs"])
    (pathJoin [s.dirPath id, str "rw"]) none with ⟨row, store⟩
  simp only [tryCreateContainer, createContainer, herr, hrow]
  cases row with
  | error err => rfl
  | ok mp =>
    let c : Container := ⟨id, s.dirPath id, created, command, args, config, mp, newState, image.id⟩
    -- the directory is the only thing that can be in the way
    by_cases hdir : hasDir { s with store } (s.dirPath id) = true
    · have hfiles := makeFiles_exists (s := { s with store }) (c := c) hdir
      simp only [if_pos hdir]
      rw [hfiles]
      rfl
    · have hfiles := makeFiles_none (s := { s with store }) (c := c) rfl
        (Bool.eq_false_iff.mpr hdir)
      simp only [if_neg hdir]
      rw [hfiles]

/-- A call that meets no error is `Site.create`. -/
theorem tryCreate_none :
    s.tryCreate .none id created command args image config =
      s.create id created command args image config := by
  simp only [tryCreate, tryCreateContainer_none]
  rfl

/-! ## What a call changes -/

theorem mkdir_frame {err res : Option GoString} (h : s.mkdir id err = (res, s')) :
    ∃ dirs, s' = { s with dirs } := by
  unfold mkdir at h
  split at h
  · cases h
    exact ⟨s.dirs, rfl⟩
  · split at h
    · cases h
      exact ⟨s.dirs, rfl⟩
    · cases h
      exact ⟨_, rfl⟩

theorem trySave_frame {c : Container} {err : Option (GoString × Bool)} {res : Option GoString}
    (h : s.trySave c err = (res, s')) : ∃ dirs, s' = { s with dirs } := by
  unfold trySave at h
  split at h
  · cases h
    split
    · exact ⟨_, rfl⟩
    · exact ⟨s.dirs, rfl⟩
  · cases h
    exact ⟨_, rfl⟩

/-- The steps on files touch nothing but the repository directory. -/
theorem makeFiles_frame {c : Container} {res : Option GoString}
    (h : s.makeFiles errs c = (res, s')) : ∃ dirs, s' = { s with dirs } := by
  unfold makeFiles at h
  split at h
  · next hmkdir =>
    cases h
    exact mkdir_frame hmkdir
  next hmkdir =>
  obtain ⟨dirs, rfl⟩ := mkdir_frame hmkdir
  -- the two log files are in the directory that was made
  split at h
  · cases h
    exact ⟨dirs, rfl⟩
  split at h
  · cases h
    exact ⟨dirs, rfl⟩
  · obtain ⟨dirs', rfl⟩ := trySave_frame h
    exact ⟨dirs', rfl⟩

/-- The row of the mountpoint is never inserted: the id is known, the database fails, or the
    key is taken. -/
def Refused (s : Site α) (errs : CreateErrs) (id : GoString) : Prop :=
  (s.getContainerElement id).isSome = true ∨ errs.mountpoint ≠ none ∨
    s.key id ∈ s.store.mountpoints.map Mountpoint.root

/-- A call with an id that is known or whose key is taken fails, and does nothing. -/
theorem tryCreate_refused (href : s.Refused errs id) :
    (∃ text, (s.tryCreate errs id created command args image config).1 = .error text) ∧
      (s.tryCreate errs id created command args image config).2 = s := by
  unfold tryCreate
  split
  · exact ⟨⟨_, rfl⟩, rfl⟩
  next hnew =>
  rcases hrow : s.store.mountpoint image (pathJoin [s.dirPath id, str "rootfs"])
    (pathJoin [s.dirPath id, str "rw"]) errs.mountpoint with ⟨row, store⟩
  simp only [tryCreateContainer, hrow]
  obtain ⟨⟨text, rfl⟩, rfl⟩ | ⟨mp, rfl, -, hkey, -⟩ := mountpoint_cases hrow
  · exact ⟨⟨text, rfl⟩, rfl⟩
  · -- the row was inserted, so the database did not fail and the key was free
    exfalso
    rcases href with hknown | herr | htaken
    · exact hnew hknown
    · obtain ⟨err, herr⟩ := Option.ne_none_iff_exists'.mp herr
      simp [Store.mountpoint, herr] at hrow
    · exact hkey htaken

/-- A call that fails otherwise leaves its row, with the key that follows from the id. -/
theorem tryCreate_inserted (href : ¬s.Refused errs id)
    (h : s.tryCreate errs id created command args image config = (.error err, s')) :
    ∃ mp dirs, mp.root = s.key id ∧
      s' = { s with
        store := { s.store with mountpoints := s.store.mountpoints ++ [mp] }, dirs } := by
  rw [Refused, not_or, not_or, not_not] at href
  obtain ⟨hnew, herr, hfree⟩ := href
  rw [tryCreate, if_neg hnew] at h
  rcases hrow : s.store.mountpoint image (pathJoin [s.dirPath id, str "rootfs"])
    (pathJoin [s.dirPath id, str "rw"]) none with ⟨row, store⟩
  simp only [tryCreateContainer, herr, hrow] at h
  rw [key] at hfree
  simp only [Store.mountpoint, if_neg hfree] at hrow
  cases hrow
  split at h
  · next hcreate =>
    cases h
    split at hcreate
    · next hfail => simp at hfail
    · next hok =>
      cases hok
      split at hcreate
      · next hfiles =>
        cases hcreate
        obtain ⟨dirs, rfl⟩ := makeFiles_frame hfiles
        exact ⟨_, dirs, rfl, rfl⟩
      · simp at hcreate
  · simp at h

end Site

/-! ## Failed calls -/

/-- The call has left no trace. -/
structure Restored (s s' : Site α) : Prop where
  mountpoints : s'.store.mountpoints = s.store.mountpoints
  dirs : s'.dirs = s.dirs
  containers : s'.containers = s.containers

/-- A `Create` of the id returns in `s'` what it returns in `s`. -/
def SameRetry (s s' : Site α) (id : GoString) : Prop :=
  ∀ errs created command args image config,
    (s'.tryCreate errs id created command args image config).1 =
      (s.tryCreate errs id created command args image config).1

/-- Every `Create` of the id fails. -/
def Blocked (s : Site α) (id : GoString) : Prop :=
  ∀ errs created command args image config,
    ∃ text, (s.tryCreate errs id created command args image config).1 = .error text

/-- A `Create` that fails leaves no trace if and only if it fails before the row of the mountpoint
    is inserted. Otherwise its id can never be used again. -/
theorem create_error_restores
    (h : s.tryCreate errs id created command args image config = (.error err, s')) :
    ((Restored s s' ∧ SameRetry s s' id) ↔ s.Refused errs id) ∧
      (¬s.Refused errs id → Blocked s' id) := by
  by_cases href : s.Refused errs id
  · have hsame : s' = s := by
      have hnothing : (s.tryCreate errs id created command args image config).2 = s :=
        (Site.tryCreate_refused href).2
      rw [← hnothing, h]
    subst hsame
    exact ⟨iff_of_true ⟨⟨rfl, rfl, rfl⟩, fun _ _ _ _ _ _ => rfl⟩ href, fun hnot => absurd href hnot⟩
  · obtain ⟨mp, dirs, hroot, rfl⟩ := Site.tryCreate_inserted href h
    constructor
    · refine iff_of_false ?_ href
      rintro ⟨hrestored, -⟩
      have hlen := congrArg List.length hrestored.mountpoints
      simp at hlen
    · intro _ errs' created' command' args' image' config'
      refine (Site.tryCreate_refused (.inr (.inr ?_))).1
      show s.key id ∈ (s.store.mountpoints ++ [mp]).map Mountpoint.root
      simp [hroot]

/-- The errors of a call that finds the disk full when it saves. -/
def diskFull : CreateErrs :=
  { CreateErrs.none with save := some (str "no space left on device", false) }

/-- The database is locked, and nothing is inserted. -/
theorem create_error_restores_refused :
    let failed := oneImageSite.tryCreate { CreateErrs.none with mountpoint := some (str "locked") }
      (str "a") 0 (str "sh") [] ⟨str "base", [], [], 0⟩ ⟨[], [], 0, 0, [], false, false⟩
    Restored oneImageSite failed.2 ∧ SameRetry oneImageSite failed.2 (str "a") := by
  intro failed
  have h : failed = (.error (str "locked"), oneImageSite) := rfl
  exact (create_error_restores h).1.mpr (.inr (.inl (by simp)))

/-- The disk is full when `config.json` is saved: the row and the directory stay, and when there is
    space again the id cannot be used. -/
theorem create_error_leaves :
    let image : Image := ⟨str "base", [], [], 0⟩
    let config : Config := ⟨[], [], 0, 0, [], false, false⟩
    let failed := oneImageSite.tryCreate diskFull (str "a") 0 (str "sh") [] image config
    failed.1 = .error (str "no space left on device") ∧
    ¬Restored oneImageSite failed.2 ∧ failed.2.dirs = [(str "a", none)] ∧
    (failed.2.tryCreate .none (str "a") 0 (str "sh") [] image config).1 = .error notUnique := by
  refine ⟨rfl, ?_, rfl, rfl⟩
  intro hrestored
  exact absurd hrestored.dirs (List.cons_ne_nil _ _)

end Docker.Restore

import DockerEngine.Spec.Changes
import Mathlib.Data.List.Induction

/-!
# When `Changes` fails

`Changes` asks each layer for each path. Only `os.IsNotExist` counts as an answer; a path that
goes through a regular file gives another error, as does one that goes through a link which
leads nowhere in another way, and ends the walk.

- `probe_eq_none_iff`, `probe_eq_error_iff`: the loop over the layers
- `stat_other_iff`: the trees in which `os.Stat` fails in another way
- `changes_succeed`: when there is a report
-/

namespace Docker

open Go UnionMount

/-! ## The loop over the layers -/

namespace Store

variable {store : Store LayerTree}

/-- The first layer that does not say that the path is missing answers with `answer`. -/
def FirstAnswer (store : Store LayerTree) (path : List GoString) (layers : List GoString)
    (answer : Except StatError FileInfo) : Prop :=
  ∃ l₁ layer l₂, layers = l₁ ++ layer :: l₂ ∧
    (∀ l ∈ l₁, (store.layers.layerTree l).stat path = .error .notExist) ∧
    (store.layers.layerTree layer).stat path = answer

theorem firstAnswer_nil {path : List GoString} {answer : Except StatError FileInfo} :
    ¬store.FirstAnswer path [] answer := by
  rintro ⟨l₁, layer, l₂, heq, -⟩
  simp at heq

/-- A layer that does not have the path is passed over. -/
theorem firstAnswer_skip {path : List GoString} {layer : GoString} {layers : List GoString}
    {answer : Except StatError FileInfo} (hanswer : answer ≠ .error .notExist)
    (hstat : (store.layers.layerTree layer).stat path = .error .notExist) :
    store.FirstAnswer path (layer :: layers) answer ↔ store.FirstAnswer path layers answer := by
  constructor
  · rintro ⟨l₁, first, l₂, heq, hmissing, hfirst⟩
    cases l₁ with
    | nil =>
      cases heq
      exact absurd (hfirst.symm.trans hstat) hanswer
    | cons l l₁ =>
      cases heq
      exact ⟨l₁, first, l₂, rfl, fun l hl => hmissing l (List.mem_cons_of_mem _ hl), hfirst⟩
  · rintro ⟨l₁, first, l₂, rfl, hmissing, hfirst⟩
    refine ⟨layer :: l₁, first, l₂, rfl, fun l hl => ?_, hfirst⟩
    rcases List.mem_cons.mp hl with rfl | hl
    · exact hstat
    · exact hmissing l hl

/-- Any other layer answers. -/
theorem firstAnswer_stop {path : List GoString} {layer : GoString} {layers : List GoString}
    {answer : Except StatError FileInfo}
    (hstat : (store.layers.layerTree layer).stat path ≠ .error .notExist) :
    store.FirstAnswer path (layer :: layers) answer ↔
      (store.layers.layerTree layer).stat path = answer := by
  constructor
  · rintro ⟨l₁, first, l₂, heq, hmissing, hfirst⟩
    cases l₁ with
    | nil =>
      cases heq
      exact hfirst
    | cons l l₁ =>
      cases heq
      exact absurd (hmissing layer List.mem_cons_self) hstat
  · intro h
    exact ⟨[], layer, layers, rfl, by simp, h⟩

theorem firstAnswer_cons (path : List GoString) (layer : GoString) (layers : List GoString)
    {answer : Except StatError FileInfo} (hanswer : answer ≠ .error .notExist) :
    store.FirstAnswer path (layer :: layers) answer ↔
      if (store.layers.layerTree layer).stat path = .error .notExist then
        store.FirstAnswer path layers answer
      else (store.layers.layerTree layer).stat path = answer := by
  split
  · next hstat => exact firstAnswer_skip hanswer hstat
  · next hstat => exact firstAnswer_stop hstat

/-- An entry is skipped when the first layer that has it has it as the same directory. -/
theorem probe_eq_none_iff {v : Visit} {layers : List GoString} :
    store.probe v layers = .ok none ↔
      ∃ stat, store.FirstAnswer v.path layers (.ok stat) ∧ v.f.unchanged stat = true := by
  induction layers with
  | nil => simp [probe, firstAnswer_nil]
  | cons layer layers ih =>
    have hanswer (stat : FileInfo) : (.ok stat : Except StatError FileInfo) ≠ .error .notExist := by
      simp
    simp only [firstAnswer_cons v.path layer layers (hanswer _)]
    rw [probe]
    split
    · next hstat => simp [hstat, ih]
    · next text hstat => simp [hstat]
    · next found hstat => simp [hstat]

/-- The loop fails when the first layer that does not miss the path fails. -/
theorem probe_eq_error_iff {v : Visit} {layers : List GoString} :
    (∃ err, store.probe v layers = .error err) ↔
      ∃ text, store.FirstAnswer v.path layers (.error (.other text)) := by
  induction layers with
  | nil => simp [probe, firstAnswer_nil]
  | cons layer layers ih =>
    have hanswer (text : GoString) :
        (.error (.other text) : Except StatError FileInfo) ≠ .error .notExist := by
      simp
    simp only [firstAnswer_cons v.path layer layers (hanswer _)]
    rw [probe]
    split
    · next hstat => simp [hstat, ih]
    · next text hstat => simp [hstat]
    · next found hstat => simp [hstat]

/-! ## The layers that are asked -/

/-- The layers that `Changes` asks: those of the image, and none without an image. -/
def LayersUsed (store : Store LayerTree) (fuel : Nat) (mpImage : GoString)
    (layers : List GoString) : Prop :=
  match store.get mpImage with
  | none => layers = []
  | some image => store.layersOf fuel image = .ret (layers, none)

theorem LayersUsed.changes_eq {fuel : Nat} {mpImage : GoString} {layers : List GoString}
    (h : store.LayersUsed fuel mpImage layers) (walk : Walk) :
    store.changes fuel mpImage walk = .ret (store.walkChanges layers walk.err walk.visits) := by
  rcases Option.eq_none_or_eq_some (store.get mpImage) with hget | ⟨image, hget⟩
  · simp only [LayersUsed, hget] at h
    simp only [changes, hget, h]
  · simp only [LayersUsed, hget] at h
    simp only [changes, hget, h]

/-- A walk has a report if and only if it is read to the end and no entry fails. -/
theorem walkChanges_ok_iff {layers : List GoString} {err : Option GoString}
    {visits : List Visit} :
    (∃ changes, store.walkChanges layers err visits = .ok changes) ↔
      err = none ∧ ∀ v ∈ visits, ∃ change, store.visit layers v = .ok change := by
  induction visits with
  | nil => cases err <;> simp [walkChanges]
  | cons v visits ih =>
    rw [walkChanges, List.forall_mem_cons]
    cases hv : store.visit layers v with
    | error err => simp [bind, Except.bind]
    | ok change =>
      cases hrest : store.walkChanges layers err visits with
      | error e =>
        rw [hrest] at ih
        simpa [bind, Except.bind] using ih
      | ok rest =>
        rw [hrest] at ih
        simpa [bind, Except.bind, pure, Except.pure] using ih

/-- Entries that the layers are not asked for never fail. -/
theorem visit_unrecorded {layers : List GoString} {v : Visit} (hv : ¬Recorded v.path) :
    ∃ change, store.visit layers v = .ok change := by
  unfold visit
  split
  · exact ⟨none, rfl⟩
  next hroot =>
  split
  · exact ⟨none, rfl⟩
  next hmeta =>
  split
  · exact ⟨_, rfl⟩
  next hwhiteout =>
  exact absurd ⟨hroot, by simpa using hmeta, by simpa using hwhiteout⟩ hv

/-- An entry fails when the layers are asked for it, and the first that does not miss it fails. -/
theorem visit_ok_iff {layers : List GoString} {v : Visit} :
    (∃ change, store.visit layers v = .ok change) ↔
      (Recorded v.path → ∀ text, ¬store.FirstAnswer v.path layers (.error (.other text))) := by
  by_cases hrec : Recorded v.path
  · rw [visit_eq hrec]
    cases hprobe : store.probe v layers with
    | error err =>
      obtain ⟨text, hfirst⟩ := probe_eq_error_iff.mp ⟨err, hprobe⟩
      constructor
      · rintro ⟨change, h⟩
        simp [Except.map] at h
      · intro h
        exact absurd hfirst (h hrec text)
    | ok kind =>
      refine iff_of_true ⟨_, rfl⟩ fun _ text hfirst => ?_
      obtain ⟨err, herr⟩ := probe_eq_error_iff.mpr ⟨text, hfirst⟩
      simp [herr] at hprobe
  · exact iff_of_true (visit_unrecorded hrec) fun h => absurd h hrec

end Store

/-! ## Paths that cannot be followed -/

namespace LayerTree

variable {t : LayerTree}

/-- On the way down the path there is a regular file, or a link that leads nowhere but not to a
    missing file. -/
def Obstructed (t : LayerTree) (path : List GoString) : Prop :=
  ∃ q rest, path = q ++ rest ∧
    ((rest ≠ [] ∧ ∃ info, t.branch.entry q = some (.file (.regular info))) ∨
      ∃ follow text, t.branch.entry q = some (.file (.link follow)) ∧
        follow rest = .error (.other text))

theorem obstructed_of_statFrom {dir path : List GoString} {text : GoString}
    (h : t.statFrom dir path = .error (.other text)) :
    ∃ q rest, dir ++ path = q ++ rest ∧
      ((rest ≠ [] ∧ ∃ info, t.branch.entry q = some (.file (.regular info))) ∨
        ∃ follow text, t.branch.entry q = some (.file (.link follow)) ∧
          follow rest = .error (.other text)) := by
  induction path generalizing dir with
  | nil =>
    rw [statFrom] at h
    split at h
    · simp at h
    · simp at h
    · simp at h
    · next follow hentry => exact ⟨dir, [], rfl, .inr ⟨follow, text, hentry, h⟩⟩
  | cons name rest ih =>
    rw [statFrom] at h
    split at h
    · simp at h
    · -- a directory: further down
      obtain ⟨q, rest', heq, hcase⟩ := ih h
      refine ⟨q, rest', ?_, hcase⟩
      rw [← heq, List.append_assoc]
      rfl
    · next info hentry =>
      exact ⟨dir, name :: rest, rfl, .inl ⟨List.cons_ne_nil _ _, info, hentry⟩⟩
    · next follow hentry =>
      exact ⟨dir, name :: rest, rfl, .inr ⟨follow, text, hentry, h⟩⟩

/-- Above an entry there are only directories, so the way to it is clear. -/
theorem stat_append {q : List GoString} (rest : List GoString)
    (h : (t.branch.entry q).isSome = true) : t.stat (q ++ rest) = t.statFrom q rest := by
  induction q using List.reverseRecOn generalizing rest with
  | nil => rfl
  | append_singleton q name ih =>
    have hdir := t.branch.closed q name h
    rw [List.append_assoc, ih _ (by rw [hdir]; rfl), List.singleton_append, statFrom, hdir]

/-- `os.Stat` gives an error other than that of a missing file when the path is obstructed. -/
theorem stat_other_iff {path : List GoString} :
    (∃ text, t.stat path = .error (.other text)) ↔ t.Obstructed path := by
  constructor
  · rintro ⟨text, h⟩
    exact obstructed_of_statFrom h
  · rintro ⟨q, rest, rfl, ⟨hrest, info, hentry⟩ | ⟨follow, text, hentry, hfollow⟩⟩
    · obtain ⟨name, rest, rfl⟩ := List.exists_cons_of_ne_nil hrest
      refine ⟨str "not a directory", ?_⟩
      rw [stat_append _ (by rw [hentry]; rfl), statFrom, hentry]
    · refine ⟨text, ?_⟩
      rw [stat_append _ (by rw [hentry]; rfl)]
      cases rest with
      | nil => rw [statFrom, hentry]; exact hfollow
      | cons name rest => rw [statFrom, hentry]; exact hfollow

end LayerTree

namespace Store

variable {store : Store LayerTree}

/-- `Changes` of a directory that can be read has a report if and only if no entry that is asked
    for is obstructed in a layer, unless a layer above has the path. -/
theorem changes_succeed {fuel : Nat} {mpImage : GoString} {layers : List GoString} {walk : Walk}
    (hlayers : store.LayersUsed fuel mpImage layers) (hreadable : walk.err = none) :
    (∃ changes, store.changes fuel mpImage walk = .ret (.ok changes)) ↔
      ∀ v ∈ walk.visits, Recorded v.path → ∀ l₁ layer l₂, layers = l₁ ++ layer :: l₂ →
        (∀ l ∈ l₁, (store.layers.layerTree l).stat v.path = .error .notExist) →
        ¬(store.layers.layerTree layer).Obstructed v.path := by
  have hok : (∃ changes, store.changes fuel mpImage walk = .ret (.ok changes)) ↔
      ∃ changes, store.walkChanges layers walk.err walk.visits = .ok changes := by
    simp only [hlayers.changes_eq, Outcome.ret.injEq]
  rw [hok, walkChanges_ok_iff]
  constructor
  · rintro ⟨-, hall⟩ v hv hrec l₁ layer l₂ heq hmissing hobstructed
    obtain ⟨text, hstat⟩ := LayerTree.stat_other_iff.mpr hobstructed
    exact visit_ok_iff.mp (hall v hv) hrec text ⟨l₁, layer, l₂, heq, hmissing, hstat⟩
  · intro h
    refine ⟨hreadable, fun v hv => visit_ok_iff.mpr ?_⟩
    rintro hrec text ⟨l₁, layer, l₂, heq, hmissing, hstat⟩
    exact h v hv hrec l₁ layer l₂ heq hmissing (LayerTree.stat_other_iff.mp ⟨text, hstat⟩)

end Store

/-- `motd` is in the lower layer, and there is nothing above it. -/
theorem changes_succeed_motd :
    ∃ changes, (twoLayers (oneFile (str "new") textFile) (oneFile (str "motd") textFile)).changes 2
      (str "child") motdWalk = .ret (.ok changes) := by
  let store := twoLayers (oneFile (str "new") textFile) (oneFile (str "motd") textFile)
  have hlayers : store.LayersUsed 2 (str "child") [str "/layers/child", str "/layers/base"] := rfl
  apply (Store.changes_succeed hlayers rfl).mpr
  intro v hv _ l₁ layer l₂ heq _ hobstructed
  obtain ⟨text, hstat⟩ := LayerTree.stat_other_iff.mpr hobstructed
  have hlayer : layer ∈ [str "/layers/child", str "/layers/base"] := by
    rw [heq]
    simp
  rcases List.mem_pair.mp hv with rfl | rfl <;> rcases List.mem_pair.mp hlayer with rfl | rfl <;>
    cases hstat

/-- A container in which the file `data` was replaced by a directory with the file `x`. -/
def dataWalk : Walk where
  visits := [⟨[], ⟨true, 4096, 493, 1⟩⟩, ⟨[str "data"], ⟨true, 4096, 493, 1⟩⟩,
    ⟨[str "data", str "x"], ⟨false, 6, 420, 1⟩⟩]
  err := none
  nodup := by decide
  plain := by decide

/-- The way to `data/x` goes through a regular file in the image, and there is no report. -/
theorem changes_notdir :
    (twoLayers (oneFile (str "data") textFile) (oneFile (str "new") textFile)).changes 2
      (str "child") dataWalk =
        .ret (.error (str "stat /layers/child/data/x: not a directory")) ∧
    (twoLayers (oneFile (str "data") textFile) (oneFile (str "new") textFile)).LayersUsed 2
      (str "child") [str "/layers/child", str "/layers/base"] :=
  ⟨rfl, rfl⟩

end Docker

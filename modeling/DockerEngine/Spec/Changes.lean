import DockerEngine.Native.Changes
import Mathlib.Data.List.Nodup

/-!
# How an entry is classified

`Changes` calls an entry of the read-write directory modified when `os.Stat` finds its path
in one of the layers. What the image shows is decided by the first layer that has an entry
or a whiteout for the path. The two differ in images with whiteouts, since `Changes` looks
at the layers behind a whiteout, and in images with symbolic links, since `os.Stat` follows
them.

- `changes_classified`: the exact condition
- `changes_undeleted`: a file that was deleted in an image and added again
-/

namespace Docker

open Go UnionMount

/-! ## What `os.Stat` finds -/

namespace LayerTree

variable {t : LayerTree}

def finds (t : LayerTree) (path : List GoString) : Bool := (t.stat path).isOk

theorem statFrom_isOk {dir path : List GoString} (h : (t.statFrom dir path).isOk = true) :
    (t.branch.entry (dir ++ path)).isSome = true ∨
      ((passed dir path).any fun s => (t.branch.entry s.1).any Entry.isFile) = true := by
  induction path generalizing dir with
  | nil =>
    rw [List.append_nil]
    rw [statFrom] at h
    split at h
    · simp [Except.isOk, Except.toBool] at h
    all_goals
      next hentry =>
      rw [hentry]
      exact .inl rfl
  | cons name rest ih =>
    rw [passed, List.any_cons]
    rw [statFrom] at h
    split at h
    · simp [Except.isOk, Except.toBool] at h
    · obtain hentry | hblocks := ih h
      · rw [List.append_assoc] at hentry
        exact .inl hentry
      · rw [hblocks, Bool.or_true]
        exact .inr rfl
    · simp [Except.isOk, Except.toBool] at h
    · next hentry =>
      rw [hentry]
      exact .inr rfl

/-- `os.Stat` finds a path in a layer that has it, or has a link above it. -/
theorem covers_of_finds {path : List GoString} (h : t.finds path = true) :
    t.branch.covers path = true := by
  rw [Branch.covers, Bool.or_eq_true]
  exact statFrom_isOk h

end LayerTree

namespace Store

variable {store : Store LayerTree}

/-! ## The image as a union -/

/-- The layers of an image, with whiteouts that count. -/
def union (store : Store LayerTree) (layers : List GoString) :
    List (UnionMount.Flag × Branch GoString Node) :=
  layers.map fun layer => (.roWh, (store.layers.layerTree layer).branch)

def visible (store : Store LayerTree) (layers : List GoString) (path : List GoString) : Prop :=
  (lookup aufs (store.union layers) path).isSome = true

def found (store : Store LayerTree) (layers : List GoString) (path : List GoString) : Prop :=
  ∃ layer ∈ layers, (store.layers.layerTree layer).finds path = true

/-- In the first layer that has an entry or a whiteout for the path, or a file or a link above
    it: behind an entry `os.Stat` finds the path, there or in a lower layer (it does not if
    all there is are dangling links); and where there is none, it finds the path neither
    there nor in a lower layer. -/
def Agrees (store : Store LayerTree) (path : List GoString) : List GoString → Prop
  | [] => True
  | layer :: layers =>
    let b := (store.layers.layerTree layer).branch
    if (b.entry path).isSome then store.found (layer :: layers) path
    else if b.blocks path || b.whites aufs path then ¬store.found (layer :: layers) path
    else Agrees store path layers

theorem found_cons {layer : GoString} {layers : List GoString} {path : List GoString} :
    store.found (layer :: layers) path ↔
      (store.layers.layerTree layer).finds path = true ∨ store.found layers path := by
  simp [found]

theorem agrees_iff (path : List GoString) (layers : List GoString) :
    store.Agrees path layers ↔ (store.found layers path ↔ store.visible layers path) := by
  induction layers with
  | nil => simp [Agrees, found, visible, union, lookup]
  | cons layer layers ih =>
    rw [Agrees, visible, union, List.map_cons, lookup]
    split
    · next hentry =>
      have hcovers : (store.layers.layerTree layer).branch.covers path = true := by
        rw [Branch.covers, hentry, Bool.true_or]
      rw [if_pos hcovers, hentry]
      simp
    · next hentry =>
      rw [Bool.not_eq_true] at hentry
      have hcovers : (store.layers.layerTree layer).branch.covers path =
          (store.layers.layerTree layer).branch.blocks path := by
        rw [Branch.covers, hentry, Bool.false_or]
      rw [hcovers]
      by_cases hblocks : (store.layers.layerTree layer).branch.blocks path = true
      · rw [hblocks, Bool.true_or, if_pos rfl, if_pos rfl, hentry]
        simp
      · rw [Bool.not_eq_true] at hblocks
        rw [hblocks, Bool.false_or, if_neg Bool.false_ne_true, Flag.honours, Bool.true_and]
        split
        · simp
        · -- the layer says nothing about the path
          have hfinds : (store.layers.layerTree layer).finds path ≠ true := by
            intro h
            have hfound := LayerTree.covers_of_finds h
            simp [hcovers, hblocks] at hfound
          rw [ih, found_cons, visible, union]
          simp [hfinds]

/-! ## What is recorded -/

/-- The entries the claim is about: neither the root nor metadata nor a whiteout. -/
structure Recorded (path : List GoString) : Prop where
  ne_root : path ≠ []
  metadata : isMetadata path = false
  whiteout : isWhiteout path = false

theorem mem_walkChanges {layers : List GoString} {err : Option GoString} {visits : List Visit}
    {changes : List Change} (h : store.walkChanges layers err visits = .ok changes) :
    (∀ v ∈ visits, ∃ change, store.visit layers v = .ok change) ∧
    ∀ change, change ∈ changes ↔ ∃ v ∈ visits, store.visit layers v = .ok (some change) := by
  induction visits generalizing changes with
  | nil =>
    cases err with
    | some err => simp [walkChanges] at h
    | none =>
      cases h
      simp
  | cons v visits ih =>
    rw [walkChanges] at h
    cases hv : store.visit layers v with
    | error err => simp [hv, bind, Except.bind] at h
    | ok change =>
      cases hrest : store.walkChanges layers err visits with
      | error err => simp [hv, hrest, bind, Except.bind] at h
      | ok rest =>
        simp only [hv, hrest, bind, Except.bind, pure, Except.pure, Except.ok.injEq] at h
        subst h
        obtain ⟨hok, hmem⟩ := ih hrest
        constructor
        · intro u hu
          rcases List.mem_cons.mp hu with rfl | hu
          · exact ⟨change, hv⟩
          · exact hok u hu
        · intro c
          rw [List.mem_append, hmem c, List.exists_mem_cons_iff, hv]
          cases change with
          | none => simp
          | some change => simp [eq_comm]

theorem visit_eq {layers : List GoString} {v : Visit} (hv : Recorded v.path) :
    store.visit layers v =
      (store.probe v layers).map (Option.map fun kind => ⟨rebase v.path, kind⟩) := by
  unfold visit
  rw [if_neg hv.ne_root, if_neg (by simp [hv.metadata]), if_neg (by simp [hv.whiteout])]
  cases store.probe v layers <;> rfl

/-- A change that is not a deletion comes from an entry of its path. -/
theorem visit_cases {layers : List GoString} {v : Visit} {change : Change}
    (h : store.visit layers v = .ok (some change)) (hkind : change.kind ≠ .delete) :
    change.path = rebase v.path ∧ store.probe v layers = .ok (some change.kind) := by
  rw [visit] at h
  split at h
  · simp at h
  · split at h
    · simp at h
    · split at h
      · cases h
        simp at hkind
      · split at h
        · simp at h
        · next hprobe =>
          simp only [Except.ok.injEq, Option.map_eq_some_iff] at h
          obtain ⟨kind, rfl, rfl⟩ := h
          exact ⟨rfl, hprobe⟩

/-- The loop over the layers says whether one of them has the path. -/
theorem probe_kind {v : Visit} {layers : List GoString} {kind : ChangeType}
    (h : store.probe v layers = .ok (some kind)) :
    (kind = .modify ∧ store.found layers v.path) ∨
    (kind = .add ∧ ¬store.found layers v.path) := by
  induction layers with
  | nil =>
    cases h
    exact .inr ⟨rfl, by simp [found]⟩
  | cons layer layers ih =>
    rw [probe] at h
    rw [found_cons, LayerTree.finds]
    split at h
    · next hstat =>
      rw [hstat]
      simpa [Except.isOk, Except.toBool] using ih h
    · simp at h
    · next hstat =>
      rw [hstat]
      split at h
      · simp at h
      · cases h
        exact .inl ⟨rfl, .inl rfl⟩

theorem rebase_injective {p q : List GoString} (hp : ∀ name ∈ p, PlainName name)
    (hq : ∀ name ∈ q, PlainName name) (h : rebase p = rebase q) : p = q :=
  join_slash_injective hp hq (List.cons_injective h)

/-- An entry is recorded with the kind that the loop says, and with no other. -/
theorem mem_changes_iff {layers : List GoString} {walk : Walk} {changes : List Change}
    (h : store.walkChanges layers walk.err walk.visits = .ok changes) {v : Visit}
    (hv : v ∈ walk.visits) (hrec : Recorded v.path) {kind kind' : ChangeType}
    (hprobe : store.probe v layers = .ok (some kind)) (hkind' : kind' ≠ .delete) :
    (⟨rebase v.path, kind'⟩ : Change) ∈ changes ↔ kind' = kind := by
  rw [(mem_walkChanges h).2]
  constructor
  · rintro ⟨u, hu, huv⟩
    obtain ⟨hpath, hu'⟩ := visit_cases huv hkind'
    have hpath' := rebase_injective (walk.plain v hv) (walk.plain u hu) hpath
    have huv : v = u := List.inj_on_of_nodup_map walk.nodup hv hu hpath'
    subst huv
    rw [hprobe] at hu'
    simpa using hu'.symm
  · rintro rfl
    refine ⟨v, hv, ?_⟩
    rw [visit_eq hrec, hprobe]
    rfl

/-- An entry of the read-write directory that is not skipped is classified as the union of the
    layers says if and only if the layers agree on its path. -/
theorem changes_classified {fuel : Nat} {mpImage : GoString} {image : Image}
    {layers : List GoString} {walk : Walk} {changes : List Change}
    (himage : store.get mpImage = some image)
    (hlayers : store.layersOf fuel image = .ret (layers, none))
    (hchanges : store.changes fuel mpImage walk = .ret (.ok changes)) {v : Visit}
    (hv : v ∈ walk.visits) (hrec : Recorded v.path) (hskip : store.probe v layers ≠ .ok none) :
    (((⟨rebase v.path, .modify⟩ : Change) ∈ changes ↔ store.visible layers v.path) ∧
     ((⟨rebase v.path, .add⟩ : Change) ∈ changes ↔ ¬store.visible layers v.path)) ↔
    store.Agrees v.path layers := by
  have hwalk : store.walkChanges layers walk.err walk.visits = .ok changes := by
    simpa [Store.changes, himage, hlayers] using hchanges
  obtain ⟨kind, hprobe⟩ : ∃ kind, store.probe v layers = .ok (some kind) := by
    obtain ⟨change, hvisit⟩ := (mem_walkChanges hwalk).1 v hv
    rw [visit_eq hrec] at hvisit
    cases hprobe : store.probe v layers with
    | error err => simp [hprobe, Except.map] at hvisit
    | ok kind =>
      cases kind with
      | none => exact absurd hprobe hskip
      | some kind => exact ⟨kind, rfl⟩
  rw [agrees_iff, mem_changes_iff hwalk hv hrec hprobe (by simp),
    mem_changes_iff hwalk hv hrec hprobe (by simp)]
  obtain ⟨rfl, hfound⟩ | ⟨rfl, hfound⟩ := probe_kind hprobe
  · simp [hfound]
  · simp [hfound]

end Store

/-! ## Three images -/

def oneFile (name : GoString) (node : Node) : LayerTree :=
  ⟨Branch.single name node, fun _ => ⟨true, 4096, 493, 0⟩⟩

def textFile : Node := .regular ⟨false, 5, 420, 0⟩

/-- An image with the layer `top`, and its parent with the layer `bottom`. -/
def twoLayers (top bottom : LayerTree) : Store LayerTree where
  images := [⟨str "base", [], [], 0⟩, ⟨str "child", str "base", [], 0⟩]
  paths := []
  mountpoints := []
  tags := []
  layers := ⟨str "/layers", [(str "/layers/base", bottom), (str "/layers/child", top)]⟩

/-- A container that has written `motd`. -/
def motdWalk : Walk where
  visits := [⟨[], ⟨true, 4096, 493, 1⟩⟩, ⟨[str "motd"], ⟨false, 6, 420, 1⟩⟩]
  err := none
  nodup := by decide
  plain := by decide

/-- `motd` is in the lower layer, and nothing hides it. -/
theorem changes_classified_motd :
    let store := twoLayers (oneFile (str "new") textFile) (oneFile (str "motd") textFile)
    store.changes 2 (str "child") motdWalk = .ret (.ok [⟨str "/motd", .modify⟩]) ∧
      store.visible [str "/layers/child", str "/layers/base"] [str "motd"] := by
  let store := twoLayers (oneFile (str "new") textFile) (oneFile (str "motd") textFile)
  have hagrees : store.Agrees [str "motd"] [str "/layers/child", str "/layers/base"] :=
    ⟨str "/layers/base", List.mem_cons_self, rfl⟩
  have hclassified := (@Store.changes_classified store 2 (str "child") _ _ motdWalk _ rfl rfl rfl
    ⟨[str "motd"], ⟨false, 6, 420, 1⟩⟩ (by decide) ⟨by decide, by decide, by decide⟩
    (fun h => nomatch h)).mpr hagrees
  exact ⟨rfl, hclassified.1.mp List.mem_cons_self⟩

/-- A file of the lower layer that a whiteout of the upper one hides is new when it is added
    again, and is reported as modified. A dangling link of the image is reported as added. -/
theorem changes_undeleted :
    (let store := twoLayers (oneFile (str ".wh.motd") textFile) (oneFile (str "motd") textFile)
     store.changes 2 (str "child") motdWalk = .ret (.ok [⟨str "/motd", .modify⟩]) ∧
       ¬store.visible [str "/layers/child", str "/layers/base"] [str "motd"]) ∧
    (let store := twoLayers (oneFile (str "motd") (.link fun _ => .error .notExist))
       (oneFile (str "new") textFile)
     store.changes 2 (str "child") motdWalk = .ret (.ok [⟨str "/motd", .add⟩]) ∧
       store.visible [str "/layers/child", str "/layers/base"] [str "motd"]) := by
  refine ⟨⟨rfl, ?_⟩, rfl, rfl⟩
  intro h
  cases h

end Docker

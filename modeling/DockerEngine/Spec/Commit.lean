import DockerEngine.Native.Commit
import DockerEngine.Spec.Store

/-!
# What a committed image shows

A commit turns the read-write branch of a container into the first of the layers below a
new, empty one. `Mount` gives layers the flag `ro`, under which aufs disregards
whiteouts, so a file that was deleted in the container is back in the committed image if
a layer of the old image has it.

- `commit_sameTree`: the tree is preserved exactly when no whiteout hid anything
- `commit_undeletes`: a container that deleted a file
-/

namespace Docker

open Go UnionMount

variable {β : Type}

/-- The layers of an image, as branches of its mount. -/
def Store.layerBranches (store : Store (Branch GoString β)) (chain : List Image) :
    List (UnionMount.Flag × Branch GoString β) :=
  (store.layerPaths chain).map fun layer => (.ro, store.layers.tree layer)

theorem mount_of_layersOf {store : Store (Branch GoString β)} {fuel : Nat} {image : Image}
    {chain : List Image} (h : store.layersOf fuel image = .ret (store.layerPaths chain, none))
    (rw : Branch GoString β) :
    store.mount fuel image rw = .ret (.ok ((.rw, rw) :: store.layerBranches chain)) := by
  simp only [Store.mount, h]
  rfl

/-- Directories that are kept keep their trees. -/
theorem layerBranches_eq {store store' : Store (Branch GoString β)} {chain : List Image}
    (hroot : store'.layers.root = store.layers.root)
    (hkeep : ∀ path d, store.layers.stat path = some d → store'.layers.stat path = some d)
    (hhas : ∀ i ∈ chain, store.layers.has i.id = true) :
    store'.layerBranches chain = store.layerBranches chain := by
  have hpath : ∀ id, store'.layers.layerPath id = store.layers.layerPath id := by
    intro id
    rw [LayerStore.layerPath, LayerStore.layerPath, hroot]
  simp only [Store.layerBranches, Store.layerPaths, List.map_map, hpath]
  refine List.map_congr_left fun i hi => ?_
  obtain ⟨d, hd⟩ := Option.isSome_iff_exists.mp (hhas i hi)
  simp only [Function.comp_apply, LayerStore.tree, hd, hkeep _ d hd]

/-- A whiteout hides nothing of an image with an empty branch in front if it hides nothing
    of its layers. -/
theorem hidesNothing_skip {b : Branch GoString β} {bs : List (UnionMount.Flag × Branch GoString β)}
    (hne : bs ≠ []) :
    HidesNothing aufs b ((.rw, Branch.empty) :: bs) ↔ HidesNothing aufs b bs := by
  have hshown : ∀ q, shown aufs ((.rw, Branch.empty) :: bs) q = shown aufs bs q := by
    intro q
    cases bs with
    | nil => exact absurd rfl hne
    | cons fb bs =>
      obtain ⟨flag, b'⟩ := fb
      unfold shown
      rw [lookup_skip]
  unfold HidesNothing
  simp only [hshown]

/-- The store after a commit: the new image is the last row, its layer is the read-write
    branch, and its lineage continues with the image of the container. -/
theorem commit_lineage {s : StoreRun (Branch GoString β)} (hs : s.Inv)
    {archiver : Archiver (Branch GoString β)} {container : CommitSource β} {img new : Image}
    {store' : Store (Branch GoString β)} {imgName tmpName : GoString} {sum : Vector UInt8 32}
    {created : Int} {fault : Option (CreateFault (Branch GoString β))}
    (himg : s.store.get container.image = some img)
    (htar : archiver.untar (archiver.tar container.rw) = .ok container.rw)
    (hcommit : s.store.cmdCommit archiver container imgName (randomId sum) tmpName created fault =
      (.ok new, store')) :
    ∃ chain, chain ≠ [] ∧
      (∀ fuel, s.store.images.length ≤ fuel →
        s.store.layersOf fuel img = .ret (s.store.layerPaths chain, none)) ∧
      (∀ fuel, store'.images.length ≤ fuel →
        store'.layersOf fuel new = .ret (store'.layerPaths (new :: chain), none)) ∧
      store'.images.length = s.store.images.length + 1 ∧
      store'.layerBranches (new :: chain) = (.ro, container.rw) :: s.store.layerBranches chain := by
  simp only [Store.cmdCommit, htar, himg] at hcommit
  have hparent : ∀ p, some img = some p → p ∈ s.store.images := by
    rintro p ⟨⟩
    exact (lookupRow_eq_some himg).1
  have hs' := hs.create hparent hcommit []
  obtain ⟨hroot, hkeep, ⟨-, err, herr⟩ | ⟨himages, hget, hnone, hsome, hres⟩⟩ :=
    create_cases hcommit
  -- a commit that succeeded has made its image
  · simp at herr
  have hnew := hres new rfl
  obtain ⟨chain, hchain, hsub, hlayers⟩ := hs.layersOf (lookupRow_eq_some himg).1
  have hmem : ∀ i ∈ chain, i ∈ s.store.images := fun i hi => List.mem_reverse.mp (hsub.subset hi)
  have hnewid : new.id = randomId sum := by rw [hnew]; rfl
  -- the parent of the new image is the image of the container
  have hkey : new.parentKey = some img.id := by
    obtain ⟨sum', hid⟩ := hs.named img (lookupRow_eq_some himg).1
    have hne : img.id ≠ [] := hid ▸ randomId_ne_nil sum'
    rw [hnew]
    exact if_neg hne
  have hlookup : lookupRow Image.id store'.images img.id = some img := by
    rw [himages]
    exact lookupRow_append (lookupRow_of_mem hs.ancestral.distinct (lookupRow_eq_some himg).1) _
  have hchain' : Lineage Image.id Image.parentKey store'.images new (new :: chain) := by
    refine .child hkey hlookup ?_
    rw [himages]
    exact hchain.append _
  have hmem' : ∀ i ∈ new :: chain, i ∈ store'.images := by
    intro i hi
    rw [himages]
    rcases List.mem_cons.mp hi with rfl | hi
    · rw [hnew]
      exact List.mem_append_right _ List.mem_cons_self
    · exact List.mem_append_left _ (hmem i hi)
  have hlen : store'.images.length = s.store.images.length + 1 := by
    rw [himages, List.length_append, List.length_singleton]
  have hle := hsub.length_le
  rw [List.length_reverse] at hle
  refine ⟨chain, hchain.ne_nil, hlayers, fun fuel hfuel => ?_, hlen, ?_⟩
  · exact hs'.layersLoop new hchain' hmem' (by rw [List.length_cons]; omega)
  · have htail := layerBranches_eq hroot hkeep fun i hi => hs.layered i (hmem i hi)
    have hpath : store'.layers.layerPath new.id = s.store.layers.layerPath (randomId sum) := by
      rw [LayerStore.layerPath, LayerStore.layerPath, hroot, hnewid]
    have htree : store'.layers.tree (store'.layers.layerPath new.id) = container.rw := by
      rw [hpath, LayerStore.tree, hsome]
      rfl
    rw [← htail]
    show (_, store'.layers.tree (store'.layers.layerPath new.id)) :: store'.layerBranches chain = _
    rw [htree]

/-- Let tar and untar reproduce the read-write branch. Then the image that `CmdCommit`
    makes of a container, mounted on an empty read-write branch, shows the tree of the
    container's own mount if and only if no whiteout of the read-write branch stands for a
    path which the image of the container shows and the branch itself does not decide. -/
theorem commit_sameTree {s : StoreRun (Branch GoString β)}
    (h : (storeSystem (Branch GoString β)).Reachable s)
    {archiver : Archiver (Branch GoString β)} {container : CommitSource β} {img new : Image}
    {store' : Store (Branch GoString β)} {imgName tmpName : GoString} {sum : Vector UInt8 32}
    {created : Int} {fault : Option (CreateFault (Branch GoString β))}
    (himg : s.store.get container.image = some img)
    (htar : archiver.untar (archiver.tar container.rw) = .ok container.rw)
    (hcommit : s.store.cmdCommit archiver container imgName (randomId sum) tmpName created fault =
      (.ok new, store')) :
    ∃ own plain committed,
      (∀ fuel, store'.images.length ≤ fuel →
        s.store.mount fuel img container.rw = .ret (.ok own) ∧
        s.store.mount fuel img Branch.empty = .ret (.ok plain) ∧
        store'.mount fuel new Branch.empty = .ret (.ok committed)) ∧
      (SameTree aufs committed own ↔ HidesNothing aufs container.rw plain) := by
  obtain ⟨chain, hne, hlayers, hlayers', hlen, hbranches⟩ :=
    commit_lineage (StoreRun.Inv.of_reachable h) himg htar hcommit
  refine ⟨_, _, _, fun fuel hfuel => ⟨mount_of_layersOf (hlayers fuel (by omega)) container.rw,
    mount_of_layersOf (hlayers fuel (by omega)) Branch.empty,
    mount_of_layersOf (hlayers' fuel hfuel) Branch.empty⟩, ?_⟩
  have hne' : s.store.layerBranches chain ≠ [] := by
    simpa [Store.layerBranches, Store.layerPaths] using hne
  rw [hbranches, hidesNothing_skip hne']
  exact sameTree_demote rfl

/-! ## One commit -/

/-- An archiver whose archives are the trees themselves. -/
def treeArchiver : Archiver (Branch GoString β) := ⟨Branch GoString β, id, .ok⟩

/-- The store with one image, which has the file `motd`. -/
def motdRun : Option (StoreRun (Branch GoString GoString)) :=
  (storeSystem _).run ⟨Store.empty (str "/docker/layers"), [], []⟩
    [.create (.replicate 32 1) (.replicate 32 2) 0 (.single (str "motd") (str "hello")) none
      (str "base") [] none]

theorem motdRun_reachable {s : StoreRun (Branch GoString GoString)} (h : motdRun = some s) :
    (storeSystem _).Reachable s := by
  have hinit : (storeSystem (Branch GoString GoString)).Reachable
      ⟨Store.empty (str "/docker/layers"), [], []⟩ := .init ⟨_, rfl⟩
  exact hinit.run _ h

/-- A container that added a file: the committed image shows its tree. -/
theorem commit_sameTree_added :
    ∃ (s : StoreRun (Branch GoString GoString)) (img new : Image)
      (store' : Store (Branch GoString GoString))
      (own committed : List (UnionMount.Flag × Branch GoString GoString)),
      (storeSystem _).Reachable s ∧
      s.store.cmdCommit treeArchiver
        ⟨randomId (.replicate 32 1), Branch.single (str "new") (str "data")⟩ (str "derived")
        (randomId (.replicate 32 3)) (randomId (.replicate 32 4)) 0 none = (.ok new, store') ∧
      s.store.mount 2 img (Branch.single (str "new") (str "data")) = .ret (.ok own) ∧
      store'.mount 2 new Branch.empty = .ret (.ok committed) ∧
      SameTree aufs committed own := by
  have hreach := motdRun_reachable rfl
  obtain ⟨own, plain, committed, hmounts, hiff⟩ :=
    @commit_sameTree GoString _ hreach treeArchiver
      ⟨randomId (.replicate 32 1), Branch.single (str "new") (str "data")⟩ _ _ _ (str "derived")
      (randomId (.replicate 32 4)) (.replicate 32 3) 0 none rfl rfl rfl
  obtain ⟨hown, -, hcommitted⟩ := hmounts 2 (Nat.le_refl 2)
  refine ⟨_, _, _, _, own, committed, hreach, rfl, hown, hcommitted, hiff.mpr fun q hwh _ => ?_⟩
  -- the new file is no whiteout
  have hmark : ∀ n, aufs.mark n ≠ str "new" := fun n hn => nomatch hn
  rw [Branch.single_whites hmark] at hwh
  simp at hwh

/-- A container that deleted `motd`: its own mount does not show the file, and the image
    committed from it does. -/
theorem commit_undeletes :
    ∃ (s : StoreRun (Branch GoString GoString)) (img new : Image)
      (store' : Store (Branch GoString GoString))
      (own committed : List (UnionMount.Flag × Branch GoString GoString)),
      (storeSystem _).Reachable s ∧ s.store.get (randomId (.replicate 32 1)) = some img ∧
      s.store.cmdCommit treeArchiver
        ⟨randomId (.replicate 32 1), Branch.single (str ".wh.motd") []⟩ (str "derived")
        (randomId (.replicate 32 3)) (randomId (.replicate 32 4)) 0 none = (.ok new, store') ∧
      s.store.mount 2 img (Branch.single (str ".wh.motd") []) = .ret (.ok own) ∧
      store'.mount 2 new Branch.empty = .ret (.ok committed) ∧
      shown aufs own [str "motd"] = none ∧
      shown aufs committed [str "motd"] = some (.file (str "hello")) ∧
      ¬SameTree aufs committed own := by
  have hreach := motdRun_reachable rfl
  refine ⟨_, _, _, _, _, _, hreach, rfl, rfl, rfl, rfl, rfl, rfl, fun hsame => ?_⟩
  have hmotd := hsame [str "motd"]
  cases hmotd

end Docker

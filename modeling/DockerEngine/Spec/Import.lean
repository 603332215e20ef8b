import DockerEngine.Native.Import
import DockerEngine.Spec.Commit

/-!
# Images stay as they are, and an import shows what was archived

A layer directory is never written again and an image keeps its parent, so whatever is done to a
store afterwards, an image has the same layers. A commit can bring deleted files back
(`Spec/Commit.lean`). An archive of the whole mount cannot: it has no whiteouts.

- `layers_forever`: the layers of an image, over all further runs
- `import_flattens`: `docker tar` and `docker import` together
-/

namespace Docker

open Go UnionMount

variable {β : Type}

/-! ## What every operation keeps -/

/-- The images and the layers of the first store are in the second one. -/
structure Store.Keeps {α : Type u} (store store' : Store α) : Prop where
  root : store'.layers.root = store.layers.root
  stat : ∀ path d, store.layers.stat path = some d → store'.layers.stat path = some d
  images : ∃ more, store'.images = store.images ++ more

namespace Store.Keeps

variable {α : Type u} {store store' store'' : Store α}

theorem refl (store : Store α) : store.Keeps store :=
  ⟨rfl, fun _ _ h => h, [], (List.append_nil _).symm⟩

theorem trans (h : store.Keeps store') (h' : store'.Keeps store'') : store.Keeps store'' where
  root := h'.root.trans h.root
  stat path d hd := h'.stat path d (h.stat path d hd)
  images := by
    obtain ⟨more, hmore⟩ := h.images
    obtain ⟨more', hmore'⟩ := h'.images
    exact ⟨more ++ more', by rw [hmore', hmore, List.append_assoc]⟩

/-- Operations on other tables. -/
theorem of_frame (himages : store'.images = store.images)
    (hlayers : store'.layers = store.layers) : store.Keeps store' where
  root := by rw [hlayers]
  stat path d hd := by rw [hlayers]; exact hd
  images := ⟨[], by rw [himages, List.append_nil]⟩

theorem create {id tmpName pth comment : GoString} {created : Int} {data : α}
    {parent : Option Image} {fault : Option (CreateFault α)} {res : Except GoString Image}
    (h : store.create id tmpName created data parent pth comment fault = (res, store')) :
    store.Keeps store' := by
  obtain ⟨hroot, hstat, ⟨himages, -⟩ | ⟨himages, -⟩⟩ := create_cases h
  · exact ⟨hroot, hstat, [], by rw [himages, List.append_nil]⟩
  · exact ⟨hroot, hstat, _, himages⟩

end Store.Keeps

theorem StoreRun.step_keeps {α : Type u} {s s' : StoreRun α} {op : StoreOp α}
    (hstep : s.step op = some s') : s.store.Keeps s'.store := by
  cases op with
  | create idSum tmpSum created data parent pth comment fault =>
    simp only [StoreRun.step] at hstep
    split at hstep
    · cases hstep
    · split at hstep
      · split at hstep
        · next hcreate =>
          cases hstep
          exact .create hcreate
        · next hcreate =>
          cases hstep
          exact .create hcreate
      · cases hstep
  | get id =>
    simp only [StoreRun.step] at hstep
    split at hstep <;> cases hstep <;> exact .refl _
  | copy k pth err =>
    obtain ⟨img, -, rfl⟩ := Option.map_eq_some_iff.mp hstep
    obtain ⟨himages, hlayers⟩ := copy_frame s.store img pth err
    exact .of_frame himages hlayers
  | mountpoint k root rw err =>
    obtain ⟨img, -, rfl⟩ := Option.map_eq_some_iff.mp hstep
    obtain ⟨himages, hlayers⟩ := mountpoint_frame s.store img root rw err
    exact .of_frame himages hlayers
  | addTag imageId tagName err =>
    cases hstep
    obtain ⟨himages, hlayers⟩ := addTag_frame s.store imageId tagName err
    exact .of_frame himages hlayers

theorem StoreRun.run_keeps {α : Type u} {s s' : StoreRun α} {ops : List (StoreOp α)}
    (hrun : (storeSystem α).run s ops = some s') : s.store.Keeps s'.store :=
  (storeSystem α).run_invariant (P := fun t => s.store.Keeps t.store)
    (fun _ _ _ h hstep => h.trans (StoreRun.step_keeps hstep)) (.refl _) hrun

/-! ## The layers of an image -/

/-- An image that is in a store has the same layers in every store that keeps it. -/
theorem StoreRun.Inv.layers_keep {α : Type u} {s s' : StoreRun α} (hs : s.Inv) (hs' : s'.Inv)
    (hkeeps : s.store.Keeps s'.store) {img : Image} (himg : img ∈ s.store.images) :
    ∃ chain : List Image, (∀ i ∈ chain, i ∈ s.store.images) ∧
      ∀ fuel, s'.store.images.length ≤ fuel →
        s.store.layersOf fuel img = .ret (s.store.layerPaths chain, none) ∧
          s'.store.layersOf fuel img = .ret (s'.store.layerPaths chain, none) := by
  obtain ⟨more, hmore⟩ := hkeeps.images
  obtain ⟨chain, hchain, hsub, hlayers⟩ := hs.layersOf himg
  have hmem : ∀ i ∈ chain, i ∈ s.store.images := fun i hi => List.mem_reverse.mp (hsub.subset hi)
  have hmem' : ∀ i ∈ chain, i ∈ s'.store.images := by
    intro i hi
    rw [hmore]
    exact List.mem_append_left _ (hmem i hi)
  have hchain' : Lineage Image.id Image.parentKey s'.store.images img chain := by
    rw [hmore]
    exact hchain.append more
  have hle := hsub.length_le
  rw [List.length_reverse] at hle
  refine ⟨chain, hmem, fun fuel hfuel => ?_⟩
  have hlength : s.store.images.length ≤ fuel := by
    rw [hmore, List.length_append] at hfuel
    omega
  exact ⟨hlayers fuel hlength, hs'.layersLoop img hchain' hmem' (hle.trans hlength)⟩

/-- It is mounted with the same branches. -/
theorem StoreRun.Inv.mount_keeps {s s' : StoreRun (Branch GoString β)} (hs : s.Inv) (hs' : s'.Inv)
    (hkeeps : s.store.Keeps s'.store) {img : Image} (himg : img ∈ s.store.images)
    (rw : Branch GoString β) :
    ∃ branches, ∀ fuel, s'.store.images.length ≤ fuel →
      s.store.mount fuel img rw = .ret (.ok branches) ∧
        s'.store.mount fuel img rw = .ret (.ok branches) := by
  obtain ⟨chain, hmem, hlayers⟩ := hs.layers_keep hs' hkeeps himg
  refine ⟨(.rw, rw) :: s.store.layerBranches chain, fun fuel hfuel => ?_⟩
  obtain ⟨hbefore, hafter⟩ := hlayers fuel hfuel
  refine ⟨mount_of_layersOf hbefore rw, ?_⟩
  rw [mount_of_layersOf hafter rw,
    layerBranches_eq hkeeps.root hkeeps.stat fun i hi => hs.layered i (hmem i hi)]

/-- Whatever is done to a store later, `layers` lists the same directories for an image of it, and
    they hold the same: these are the branches that `Mount` puts behind the read-write one. -/
theorem layers_forever {α : Type u} {s s' : StoreRun α} (h : (storeSystem α).Reachable s)
    {ops : List (StoreOp α)} (hrun : (storeSystem α).run s ops = some s') {img : Image}
    (himg : img ∈ s.store.images) :
    ∃ layers, (∀ fuel, s'.store.images.length ≤ fuel →
        s.store.layersOf fuel img = .ret (layers, none) ∧
          s'.store.layersOf fuel img = .ret (layers, none)) ∧
      ∀ layer ∈ layers, ∃ d, s.store.layers.stat layer = some d ∧
        s'.store.layers.stat layer = some d := by
  have hs := StoreRun.Inv.of_reachable h
  have hs' : s'.Inv := .of_reachable (h.run ops hrun)
  have hkeeps := StoreRun.run_keeps hrun
  obtain ⟨chain, hmem, hlayers⟩ := hs.layers_keep hs' hkeeps himg
  have hpaths : s'.store.layerPaths chain = s.store.layerPaths chain := by
    simp only [Store.layerPaths, LayerStore.layerPath, hkeeps.root]
  rw [hpaths] at hlayers
  refine ⟨s.store.layerPaths chain, hlayers, fun layer hlayer => ?_⟩
  obtain ⟨i, hi, rfl⟩ := List.mem_map.mp hlayer
  obtain ⟨d, hd⟩ := Option.isSome_iff_exists.mp (hs.layered i (hmem i hi))
  exact ⟨d, hd, hkeeps.stat _ d hd⟩

/-- An image of one layer, while another one is made on top of it and a third one fails. -/
theorem layers_forever_layered :
    ∃ (s s' : StoreRun (Branch GoString GoString)) (img : Image),
      motdRun = some s ∧ (storeSystem _).run s
        [.create (.replicate 32 3) (.replicate 32 4) 0 (.single (str "etc") (str "x")) (some 0)
          (str "top") [] none,
        .create (.replicate 32 5) (.replicate 32 6) 0 .empty (some 1) (str "lost") []
          (some (.commit (str "disk full") true))] = some s' ∧
      s'.store.images.length = 3 ∧
      ∃ layers, s'.store.layersOf 3 img = .ret (layers, none) ∧ layers.length = 1 ∧
        ∀ layer ∈ layers, (s'.store.layers.stat layer).isSome := by
  obtain ⟨s, s', img, hs, hrun, hlength, himg, hown⟩ :
      ∃ (s s' : StoreRun (Branch GoString GoString)) (img : Image),
        motdRun = some s ∧ (storeSystem _).run s
          [.create (.replicate 32 3) (.replicate 32 4) 0 (.single (str "etc") (str "x")) (some 0)
            (str "top") [] none,
          .create (.replicate 32 5) (.replicate 32 6) 0 .empty (some 1) (str "lost") []
            (some (.commit (str "disk full") true))] = some s' ∧
        s'.store.images.length = 3 ∧ img ∈ s.store.images ∧
        ∃ own, s.store.layersOf 3 img = .ret (own, none) ∧ own.length = 1 :=
    ⟨_, _, _, rfl, rfl, rfl, List.mem_singleton.mpr rfl, _, rfl, rfl⟩
  obtain ⟨own, hown, hone⟩ := hown
  obtain ⟨layers, hlayers, hstat⟩ := layers_forever (motdRun_reachable hs) hrun himg
  obtain ⟨hbefore, hafter⟩ := hlayers 3 (by omega)
  rw [hown] at hbefore
  cases hbefore
  refine ⟨s, s', img, hs, hrun, hlength, own, hafter, hone, fun layer hlayer => ?_⟩
  obtain ⟨d, -, hd⟩ := hstat layer hlayer
  rw [hd]
  rfl

/-! ## An import -/

/-- The read-write branch is always there. -/
theorem mount_ne_nil {store : Store (Branch GoString β)} {fuel : Nat} {image : Image}
    {rw : Branch GoString β} {branches : List (UnionMount.Flag × Branch GoString β)}
    (h : store.mount fuel image rw = .ret (.ok branches)) : branches ≠ [] := by
  unfold Store.mount at h
  split at h
  · cases h
    exact List.cons_ne_nil _ _
  · cases h
  · cases h
  · cases h

/-- The store after an import: the new image is the last row and has no parent, and its one layer
    is what the archive unpacks to. -/
theorem import_lineage {s : StoreRun (Branch GoString β)} (hs : s.Inv)
    {archiver : Archiver (Branch GoString β)} {archive : archiver.Archive}
    {tree : Branch GoString β} {new : Image} {store' : Store (Branch GoString β)}
    {name tmpName : GoString} {sum : Vector UInt8 32} {created : Int}
    {fault : Option (CreateFault (Branch GoString β))}
    (huntar : archiver.untar archive = .ok tree)
    (himport : s.store.cmdImport archiver archive name (randomId sum) tmpName created fault =
      (.ok new, store')) :
    new.parent = [] ∧
      (∀ fuel rw, store'.images.length ≤ fuel →
        store'.mount fuel new rw = .ret (.ok [(.rw, rw), (.ro, tree)])) ∧
      ∀ drawn, StoreRun.Inv ⟨store', drawn, s.obtained ++ [new]⟩ ∧ new ∈ store'.images := by
  unfold Store.cmdImport at himport
  split at himport
  · cases himport
  rw [huntar] at himport
  have hnoparent : ∀ p, (none : Option Image) = some p → p ∈ s.store.images :=
    fun _ hp => nomatch hp
  have hs' := hs.create hnoparent himport []
  obtain ⟨hroot, -, ⟨-, err, herr⟩ | ⟨himages, -, -, hsome, hres⟩⟩ := create_cases himport
  · cases herr
  have hnew := hres new rfl
  have hparent : new.parent = [] := by
    rw [hnew]
    rfl
  have hmem : new ∈ store'.images := by
    rw [himages, hnew]
    exact List.mem_append_right _ List.mem_cons_self
  have hchain : Lineage Image.id Image.parentKey store'.images new [new] :=
    .root (if_pos hparent)
  refine ⟨hparent, fun fuel rw hfuel => ?_, fun drawn => ⟨hs.create hnoparent himport drawn, hmem⟩⟩
  have hpos := List.length_pos_of_mem hmem
  have hlayers := hs'.layersLoop new hchain (fun i hi => List.mem_singleton.mp hi ▸ hmem)
    (Nat.lt_of_lt_of_le hpos hfuel)
  have htree : store'.layers.tree (store'.layers.layerPath new.id) = tree := by
    have hpath : store'.layers.layerPath new.id = s.store.layers.layerPath (randomId sum) := by
      rw [LayerStore.layerPath, LayerStore.layerPath, hroot, hnew]
      rfl
    rw [hpath, LayerStore.tree, hsome]
    rfl
  rw [mount_of_layersOf hlayers rw]
  show Outcome.ret (Except.ok [_, (_, store'.layers.tree (store'.layers.layerPath new.id))]) = _
  rw [htree]

/-- A container is archived with `docker tar` and an image is made of the archive with
    `docker import`, and tar and untar reproduce what the root of the container shows. Then the
    image has no parent, and mounted on an empty read-write branch, at once or after anything else
    that is done to the store, it shows the tree of the container's own mount. -/
theorem import_flattens {s : StoreRun (Branch GoString β)}
    (h : (storeSystem (Branch GoString β)).Reachable s)
    {archiver : Archiver (Branch GoString β)} {container : CommitSource β} {fuel : Nat}
    {archive : archiver.Archive} {new : Image} {sum : Vector UInt8 32} {created : Int}
    {name tmpName : GoString} {fault : Option (CreateFault (Branch GoString β))}
    {store' : Store (Branch GoString β)}
    (harchiver : ∀ tree, archiver.untar (archiver.tar tree) = .ok tree)
    (htar : s.store.cmdTar archiver fuel container none = .ret (.ok archive))
    (himport : s.store.cmdImport archiver archive name (randomId sum) tmpName created fault =
      (.ok new, store')) :
    new.parent = [] ∧ ∃ img own, s.store.get container.image = some img ∧
      s.store.mount fuel img container.rw = .ret (.ok own) ∧
      ∀ ops s', (storeSystem _).run
          ⟨store', s.drawn ++ [randomId sum, tmpName], s.obtained ++ [new]⟩ ops = some s' →
        ∃ imported, (∀ fuel', s'.store.images.length ≤ fuel' →
            s'.store.mount fuel' new Branch.empty = .ret (.ok imported)) ∧
          SameTree aufs imported own := by
  have hs := StoreRun.Inv.of_reachable h
  unfold Store.cmdTar at htar
  split at htar
  · cases htar
  next img himg =>
  split at htar
  · cases htar
  · next own hown =>
    cases htar
    obtain ⟨hparent, hmount, hinv⟩ := import_lineage hs (harchiver _) himport
    refine ⟨hparent, img, own, himg, hown, fun ops s' hrun => ?_⟩
    obtain ⟨hs₁, hnew⟩ := hinv (s.drawn ++ [randomId sum, tmpName])
    have hs' : s'.Inv := (storeSystem _).run_invariant (P := StoreRun.Inv)
      (fun _ _ _ ht hstep => ht.step hstep) hs₁ hrun
    obtain ⟨branches, hbranches⟩ :=
      hs₁.mount_keeps hs' (StoreRun.run_keeps hrun) hnew Branch.empty
    refine ⟨branches, fun fuel' hfuel' => (hbranches fuel' hfuel').2, ?_⟩
    -- with enough fuel for both stores the branches are those of the import
    have hboth := hbranches (max s'.store.images.length store'.images.length) (Nat.le_max_left _ _)
    have hfirst := hboth.1.symm.trans (hmount _ Branch.empty (Nat.le_max_right _ _))
    cases hfirst
    exact sameTree_flatten (mount_ne_nil hown) .rw .ro rfl
  · cases htar
  · cases htar

/-- A container that deleted `motd`, which a commit would bring back: the imported image does
    not show the file. -/
theorem import_flattens_deleted :
    ∃ (s : StoreRun (Branch GoString GoString)) (archive : Branch GoString GoString) (new : Image)
      (store' : Store (Branch GoString GoString))
      (imported : List (UnionMount.Flag × Branch GoString GoString)),
      motdRun = some s ∧
      s.store.cmdTar treeArchiver 1
        ⟨randomId (.replicate 32 1), Branch.single (str ".wh.motd") []⟩ none = .ret (.ok archive) ∧
      s.store.cmdImport treeArchiver archive (str "flat") (randomId (.replicate 32 3))
        (randomId (.replicate 32 4)) 0 none = (.ok new, store') ∧
      store'.mount 2 new Branch.empty = .ret (.ok imported) ∧
      shown aufs imported [str "motd"] = none := by
  obtain ⟨s, archive, new, store', hs, htar, himport, hlength⟩ :
      ∃ (s : StoreRun (Branch GoString GoString)) (archive : Branch GoString GoString)
        (new : Image) (store' : Store (Branch GoString GoString)),
        motdRun = some s ∧
        s.store.cmdTar treeArchiver 1
          ⟨randomId (.replicate 32 1), Branch.single (str ".wh.motd") []⟩ none =
            .ret (.ok archive) ∧
        s.store.cmdImport treeArchiver archive (str "flat") (randomId (.replicate 32 3))
          (randomId (.replicate 32 4)) 0 none = (.ok new, store') ∧ store'.images.length = 2 :=
    ⟨_, _, _, _, rfl, rfl, rfl, rfl⟩
  obtain ⟨-, img, own, himg, hown, hlater⟩ :=
    import_flattens (motdRun_reachable hs) (fun _ => rfl) htar himport
  obtain ⟨imported, hmount, hsame⟩ := hlater [] _ rfl
  refine ⟨s, archive, new, store', imported, hs, htar, himport, hmount 2 (by rw [hlength]), ?_⟩
  rw [hsame]
  cases hs
  cases himg
  cases hown
  rfl

end Docker

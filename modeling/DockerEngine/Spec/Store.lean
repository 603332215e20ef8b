import DockerEngine.Native.Store

/-!
# The image store keeps its lineages whole

Rows are only ever added, and `Create` adds the row of an image after its layer. So in
every reachable store the images are a table with parent links in the sense of
`Ancestral`, each with its layer, and the walk of `layers` along the links ends at an
image without a parent.

- `create_cases`: what one `Create` can do, failing at any point
- `layers_complete`: the invariant and the walk, in every reachable store
-/

namespace Docker

open Go

variable {α : Type u}

/-! ## The layer store -/

section

variable {store store' : LayerStore α} {id tmpName : GoString}

theorem LayerStore.stat_mkdir_of_some {path path' : GoString} {data data' : α}
    (h : store.stat path = some data) : (store.mkdir path' data').stat path = some data := by
  obtain ⟨d, hd, rfl⟩ := Option.map_eq_some_iff.mp h
  rw [stat, mkdir, List.find?_append, hd]
  rfl

theorem LayerStore.stat_leave_of_some {path path' : GoString} {data : α} {stale : Option α}
    (h : store.stat path = some data) : (store.leave path' stale).stat path = some data := by
  cases stale with
  | none => exact h
  | some d => exact stat_mkdir_of_some h

theorem LayerStore.root_leave {path : GoString} {stale : Option α} :
    (store.leave path stale).root = store.root := by
  cases stale <;> rfl

theorem LayerStore.stat_mkdir_self {path : GoString} {data : α} (h : store.stat path = none) :
    (store.mkdir path data).stat path = some data := by
  rw [stat, mkdir, List.find?_append, Option.map_eq_none_iff.mp h]
  simp

/-- `addLayer` failed and lost no directory, or it made the layer. -/
theorem addLayer_cases {data : α} {fault : Option (LayerFault α)} {res : Except GoString GoString}
    (h : store.addLayer id tmpName data fault = (res, store')) :
    store'.root = store.root ∧
    (∀ path d, store.stat path = some d → store'.stat path = some d) ∧
    ((∃ err, res = .error err) ∨
     (fault = none ∧ res = .ok (store.layerPath id) ∧ store.stat (store.layerPath id) = none ∧
      store'.stat (store.layerPath id) = some data)) := by
  unfold LayerStore.addLayer at h
  split at h
  · cases h
    exact ⟨rfl, fun _ _ hd => hd, .inl ⟨_, rfl⟩⟩
  next hhas =>
  simp only at h
  split at h
  · cases h
    exact ⟨rfl, fun _ _ hd => hd, .inl ⟨_, rfl⟩⟩
  split at h
  · cases h
    exact ⟨rfl, fun _ _ hd => hd, .inl ⟨_, rfl⟩⟩
  · cases h
    exact ⟨LayerStore.root_leave, fun _ _ => LayerStore.stat_leave_of_some, .inl ⟨_, rfl⟩⟩
  · cases h
    exact ⟨LayerStore.root_leave, fun _ _ => LayerStore.stat_leave_of_some, .inl ⟨_, rfl⟩⟩
  -- no fault: the directory is made, and it was not there before
  · have hnone : store.stat (store.layerPath id) = none := by
      rw [LayerStore.has] at hhas
      simpa using hhas
    cases h
    exact ⟨rfl, fun _ _ => LayerStore.stat_mkdir_of_some,
      .inr ⟨rfl, rfl, hnone, LayerStore.stat_mkdir_self hnone⟩⟩

end

/-! ## Create -/

/-- The image a `Create` makes. -/
def newImage (id : GoString) (parent : Option Image) (comment : GoString) (created : Int) : Image :=
  ⟨id, (parent.map Image.id).getD [], comment, created⟩

/-- `create` left the tables alone, or it added an image that was not there together with
    its path, after making its layer. It returns the image only in the second case. -/
theorem create_cases {store store' : Store α} {id tmpName pth comment : GoString} {created : Int}
    {data : α} {parent : Option Image} {fault : Option (CreateFault α)}
    {res : Except GoString Image}
    (h : store.create id tmpName created data parent pth comment fault = (res, store')) :
    store'.layers.root = store.layers.root ∧
    (∀ path d, store.layers.stat path = some d → store'.layers.stat path = some d) ∧
    ((store'.images = store.images ∧ ∃ err, res = .error err) ∨
     (store'.images = store.images ++ [newImage id parent comment created] ∧
      store.get id = none ∧
      store.layers.stat (store.layers.layerPath id) = none ∧
      store'.layers.stat (store.layers.layerPath id) = some data ∧
      ∀ img, res = .ok img → img = newImage id parent comment created)) := by
  unfold Store.create at h
  simp only at h
  rcases hadd : store.layers.addLayer id tmpName data (fault.bind CreateFault.layerFault) with
    ⟨added, layers⟩
  obtain ⟨hroot, hkeep, hcase⟩ := addLayer_cases hadd
  rw [hadd] at h
  cases added with
  | error err =>
    cases h
    exact ⟨hroot, hkeep, .inl ⟨rfl, _, rfl⟩⟩
  | ok layer =>
    obtain ⟨err, herr⟩ | ⟨-, -, hnone, hsome⟩ := hcase
    · simp at herr
    simp only at h
    split at h
    · cases h; exact ⟨hroot, hkeep, .inl ⟨rfl, _, rfl⟩⟩
    · cases h; exact ⟨hroot, hkeep, .inl ⟨rfl, _, rfl⟩⟩
    split at h
    · cases h; exact ⟨hroot, hkeep, .inl ⟨rfl, _, rfl⟩⟩
    next hnew =>
    have hget : store.get id = none := Option.not_isSome_iff_eq_none.mp hnew
    split at h
    · cases h; exact ⟨hroot, hkeep, .inl ⟨rfl, _, rfl⟩⟩
    split at h
    · cases h; exact ⟨hroot, hkeep, .inl ⟨rfl, _, rfl⟩⟩
    -- a commit that fails may have written the rows
    split at h
    · next err written _ _ _ =>
      cases h
      cases written with
      | false => exact ⟨hroot, hkeep, .inl ⟨rfl, _, rfl⟩⟩
      | true => exact ⟨hroot, hkeep, .inr ⟨rfl, hget, hnone, hsome, fun _ h => nomatch h⟩⟩
    · cases h
      refine ⟨hroot, hkeep, .inr ⟨rfl, hget, hnone, hsome, fun img himg => ?_⟩⟩
      cases himg
      rfl

/-! ## The other operations leave images and layers alone -/

theorem copy_frame (store : Store α) (image : Image) (pth : GoString) (err : Option GoString) :
    (store.copy image pth err).2.images = store.images ∧
    (store.copy image pth err).2.layers = store.layers := by
  unfold Store.copy
  split
  · exact ⟨rfl, rfl⟩
  · split <;> exact ⟨rfl, rfl⟩

theorem mountpoint_frame (store : Store α) (image : Image) (root rw : GoString)
    (err : Option GoString) :
    (store.mountpoint image root rw err).2.images = store.images ∧
    (store.mountpoint image root rw err).2.layers = store.layers := by
  unfold Store.mountpoint
  simp only
  split
  · exact ⟨rfl, rfl⟩
  · split <;> exact ⟨rfl, rfl⟩

theorem addTag_frame (store : Store α) (imageId tagName : GoString) (err : Option GoString) :
    (store.addTag imageId tagName err).2.images = store.images ∧
    (store.addTag imageId tagName err).2.layers = store.layers := by
  unfold Store.addTag
  split
  · exact ⟨rfl, rfl⟩
  · split
    · exact ⟨rfl, rfl⟩
    · split <;> exact ⟨rfl, rfl⟩

/-! ## The invariant -/

/-- Parents are registered before their children, every image has a random name and a
    layer, and callers have registered images only. -/
structure StoreRun.Inv (s : StoreRun α) : Prop where
  ancestral : Ancestral Image.id Image.parentKey s.store.images
  named : ∀ img ∈ s.store.images, ∃ sum, img.id = randomId sum
  layered : ∀ img ∈ s.store.images, s.store.layers.has img.id = true
  registered : ∀ img ∈ s.obtained, img ∈ s.store.images

theorem StoreRun.Inv.empty (root : GoString) :
    (⟨Store.empty root, [], []⟩ : StoreRun α).Inv :=
  ⟨Ancestral.nil, fun _ h => absurd h List.not_mem_nil, fun _ h => absurd h List.not_mem_nil,
    fun _ h => absurd h List.not_mem_nil⟩

/-- A step that changes neither images nor layers. -/
theorem StoreRun.Inv.frame {s s' : StoreRun α} (hs : s.Inv)
    (himages : s'.store.images = s.store.images) (hlayers : s'.store.layers = s.store.layers)
    (hobtained : ∀ img ∈ s'.obtained, img ∈ s.store.images) : s'.Inv := by
  refine ⟨?_, ?_, ?_, ?_⟩
  · rw [himages]; exact hs.ancestral
  · rw [himages]; exact hs.named
  · rw [himages, hlayers]; exact hs.layered
  · rw [himages]; exact hobtained

/-- The parent key of a new image is the id of the parent that was passed. -/
theorem parentKey_newImage {id comment k : GoString} {parent : Option Image} {created : Int}
    (h : (newImage id parent comment created).parentKey = some k) :
    ∃ p, parent = some p ∧ p.id = k := by
  cases parent with
  | none => cases h
  | some p =>
    unfold Image.parentKey at h
    split at h
    · simp at h
    · exact ⟨p, rfl, Option.some.inj h⟩

theorem StoreRun.Inv.create {s : StoreRun α} (hs : s.Inv) {store' : Store α}
    {sum : Vector UInt8 32} {tmpName pth comment : GoString} {created : Int} {data : α}
    {parent : Option Image} (hparent : ∀ p, parent = some p → p ∈ s.store.images)
    {fault : Option (CreateFault α)} {res : Except GoString Image}
    (h : s.store.create (randomId sum) tmpName created data parent pth comment fault =
      (res, store')) (drawn : List GoString) :
    (⟨store', drawn, s.obtained ++ res.toOption.toList⟩ : StoreRun α).Inv := by
  obtain ⟨hroot, hkeep, ⟨himages, err, rfl⟩ | ⟨himages, hget, hnone, hsome, hres⟩⟩ := create_cases h
  · -- the tables are what they were, and the layers only grew
    have hlayered : ∀ img ∈ s.store.images, store'.layers.has img.id = true := by
      intro img himg
      obtain ⟨d, hd⟩ := Option.isSome_iff_exists.mp (hs.layered img himg)
      rw [LayerStore.has, LayerStore.layerPath, hroot]
      exact Option.isSome_iff_exists.mpr ⟨d, hkeep _ d hd⟩
    refine ⟨?_, ?_, ?_, ?_⟩
    · show Ancestral _ _ store'.images
      rw [himages]; exact hs.ancestral
    · show ∀ img ∈ store'.images, _
      rw [himages]; exact hs.named
    · show ∀ img ∈ store'.images, _
      rw [himages]; exact hlayered
    · show ∀ img ∈ s.obtained ++ [], img ∈ store'.images
      rw [himages, List.append_nil]; exact hs.registered
  -- a new image: its id is fresh because the insertion found no row with it
  · have hfresh : randomId sum ∉ s.store.images.map Image.id := by
      intro hmem
      obtain ⟨img, himg, hid⟩ := List.mem_map.mp hmem
      have hlookup := lookupRow_of_mem hs.ancestral.distinct himg
      rw [hid] at hlookup
      rw [Store.get, hlookup] at hget
      simp at hget
    refine ⟨?_, ?_, ?_, ?_⟩
    · show Ancestral _ _ store'.images
      rw [himages]
      refine hs.ancestral.append hfresh fun k hk => ?_
      obtain ⟨p, hp, hid⟩ := parentKey_newImage hk
      exact ⟨p, hparent p hp, hid⟩
    · show ∀ img ∈ store'.images, _
      rw [himages]
      intro img himg
      rcases List.mem_append.mp himg with himg | himg
      · exact hs.named img himg
      · rw [List.mem_singleton.mp himg]
        exact ⟨sum, rfl⟩
    · show ∀ img ∈ store'.images, _
      rw [himages]
      intro img himg
      rw [LayerStore.has, LayerStore.layerPath, hroot]
      rcases List.mem_append.mp himg with himg | himg
      · obtain ⟨d, hd⟩ := Option.isSome_iff_exists.mp (hs.layered img himg)
        exact Option.isSome_iff_exists.mpr ⟨d, hkeep _ d hd⟩
      · rw [List.mem_singleton.mp himg]
        exact Option.isSome_iff_exists.mpr ⟨data, hsome⟩
    · show ∀ img ∈ s.obtained ++ res.toOption.toList, img ∈ store'.images
      rw [himages]
      intro img himg
      rcases List.mem_append.mp himg with himg | himg
      · exact List.mem_append_left _ (hs.registered img himg)
      · cases res with
        -- the caller gets the image only when it was inserted
        | error err => exact absurd himg List.not_mem_nil
        | ok img' =>
          rw [List.mem_singleton.mp himg, hres img' rfl]
          exact List.mem_append_right _ List.mem_cons_self

theorem StoreRun.Inv.step {s s' : StoreRun α} {op : StoreOp α} (hs : s.Inv)
    (hstep : s.step op = some s') : s'.Inv := by
  cases op with
  | create idSum tmpSum created data parent pth comment fault =>
    simp only [StoreRun.step] at hstep
    split at hstep
    · simp at hstep
    next parent' hparent =>
    -- the parent was obtained from this store
    have hparent' : ∀ p, parent' = some p → p ∈ s.store.images := by
      rintro p rfl
      cases parent with
      | none => cases hparent
      | some k =>
        obtain ⟨q, hq, heq⟩ := Option.map_eq_some_iff.mp hparent
        cases heq
        exact hs.registered _ (List.mem_of_getElem? hq)
    split at hstep
    · split at hstep
      · next img store hcreate =>
        cases hstep
        exact hs.create hparent' hcreate _
      · next err store hcreate =>
        cases hstep
        have hs' := hs.create hparent' hcreate (s.drawn ++ [randomId idSum, randomId tmpSum])
        have hnil : s.obtained ++ (Except.error (α := Image) err).toOption.toList = s.obtained :=
          List.append_nil s.obtained
        rwa [hnil] at hs'
    · simp at hstep
  | get id =>
    simp only [StoreRun.step] at hstep
    split at hstep
    · next img hget =>
      cases hstep
      refine hs.frame rfl rfl fun i hi => ?_
      rcases List.mem_append.mp hi with hi | hi
      · exact hs.registered i hi
      · rw [List.mem_singleton.mp hi]
        exact (lookupRow_eq_some hget).1
    · cases hstep
      exact hs
  | copy k pth err =>
    obtain ⟨img, -, rfl⟩ := Option.map_eq_some_iff.mp hstep
    -- a copy adds a path only
    obtain ⟨himages, hlayers⟩ := copy_frame s.store img pth err
    exact hs.frame himages hlayers hs.registered
  | mountpoint k root rw err =>
    obtain ⟨img, -, rfl⟩ := Option.map_eq_some_iff.mp hstep
    obtain ⟨himages, hlayers⟩ := mountpoint_frame s.store img root rw err
    exact hs.frame himages hlayers hs.registered
  | addTag imageId tagName err =>
    cases hstep
    obtain ⟨himages, hlayers⟩ := addTag_frame s.store imageId tagName err
    exact hs.frame himages hlayers hs.registered

theorem StoreRun.Inv.of_reachable {s : StoreRun α} (h : (storeSystem α).Reachable s) : s.Inv := by
  refine System.ReachableVia.invariant h (fun s₀ h₀ => ?_) (fun _ _ _ hs _ hstep => hs.step hstep)
  obtain ⟨root, rfl⟩ := h₀
  exact StoreRun.Inv.empty root

/-! ## The walk -/

/-- The paths of the layers of a list of images. -/
def Store.layerPaths (store : Store α) (chain : List Image) : List GoString :=
  chain.map fun img => store.layers.layerPath img.id

theorem layerPath_ne_nil (layers : LayerStore α) (sum : Vector UInt8 32) :
    layers.layerPath (randomId sum) ≠ [] := by
  obtain ⟨pre, hpre⟩ := pathJoin_child layers.root
  rw [LayerStore.layerPath, hpre _ (randomId_plain sum)]
  intro h
  exact randomId_ne_nil sum (List.append_eq_nil_iff.mp h).2

/-- No image has the empty id, which stands for no parent. -/
theorem StoreRun.Inv.get_nil {s : StoreRun α} (hs : s.Inv) : s.store.get [] = none := by
  refine lookupRow_eq_none fun hmem => ?_
  obtain ⟨img, himg, hid⟩ := List.mem_map.mp hmem
  obtain ⟨sum, hsum⟩ := hs.named img himg
  exact randomId_ne_nil sum (hsum ▸ hid)

/-- Along a lineage the loop of `layers` collects the layer of each image. -/
theorem StoreRun.Inv.layersLoop {s : StoreRun α} (hs : s.Inv) (image : Image) {img : Image}
    {chain : List Image} (hchain : Lineage Image.id Image.parentKey s.store.images img chain)
    (hmem : ∀ i ∈ chain, i ∈ s.store.images) {fuel : Nat} (hfuel : chain.length ≤ fuel) :
    s.store.layersLoop image fuel (some img) = .ret (s.store.layerPaths chain, none) := by
  have hlayer : ∀ i ∈ s.store.images,
      s.store.layers.get i.id = s.store.layers.layerPath i.id ∧ s.store.layers.get i.id ≠ [] := by
    intro i hi
    obtain ⟨sum, hsum⟩ := hs.named i hi
    have hget : s.store.layers.get i.id = s.store.layers.layerPath i.id := if_pos (hs.layered i hi)
    rw [hget]
    exact ⟨rfl, hsum ▸ layerPath_ne_nil s.store.layers sum⟩
  induction hchain generalizing fuel with
  | @root r hroot =>
    obtain ⟨hget, hne⟩ := hlayer r (hmem r List.mem_cons_self)
    -- an image without a parent ends the loop
    have hparent : r.parent = [] := by
      by_contra hp
      rw [Image.parentKey, if_neg hp] at hroot
      simp at hroot
    cases fuel with
    | zero => exact absurd hfuel (by simp)
    | succ fuel =>
      rw [Store.layersLoop, if_pos hne, hparent, hs.get_nil, hget]
      cases fuel <;> rfl
  | @child r p k chain hk hp _ ih =>
    obtain ⟨hget, hne⟩ := hlayer r (hmem r List.mem_cons_self)
    have hparent : r.parent = k := by
      unfold Image.parentKey at hk
      split at hk
      · simp at hk
      · exact Option.some.inj hk
    cases fuel with
    | zero => exact absurd hfuel (by simp)
    | succ fuel =>
      rw [List.length_cons] at hfuel
      have hlen : chain.length ≤ fuel := by omega
      have hrest := ih (fun i hi => hmem i (List.mem_cons_of_mem _ hi)) hlen
      rw [Store.layersLoop, if_pos hne, hparent, show s.store.get k = some p from hp, hrest, hget]
      rfl

/-- Different images have different layer paths. -/
theorem StoreRun.Inv.layerPaths_nodup {s : StoreRun α} (hs : s.Inv) {chain : List Image}
    (hsub : chain.Sublist s.store.images.reverse) : (s.store.layerPaths chain).Nodup := by
  have hids : (chain.map Image.id).Nodup := by
    refine List.Nodup.sublist (hsub.map Image.id) ?_
    rw [List.map_reverse, List.nodup_reverse]
    exact hs.ancestral.distinct
  have hplain : ∀ id ∈ chain.map Image.id, PlainName id := by
    intro id hid
    obtain ⟨img, himg, rfl⟩ := List.mem_map.mp hid
    obtain ⟨sum, hsum⟩ := hs.named img (List.mem_reverse.mp (hsub.subset himg))
    exact hsum ▸ randomId_plain sum
  have hpaths : s.store.layerPaths chain =
      (chain.map Image.id).map s.store.layers.layerPath := by
    rw [Store.layerPaths, List.map_map]
    rfl
  rw [hpaths]
  exact hids.map_on fun id hid id' hid' heq =>
    pathJoin_injective s.store.layers.root (hplain id hid) (hplain id' hid') heq

/-- A registered image has a lineage, and `layers` returns the paths of its layers. -/
theorem StoreRun.Inv.layersOf {s : StoreRun α} (hs : s.Inv) {img : Image}
    (himg : img ∈ s.store.images) :
    ∃ chain, Lineage Image.id Image.parentKey s.store.images img chain ∧
      chain.Sublist s.store.images.reverse ∧
      ∀ fuel, s.store.images.length ≤ fuel →
        s.store.layersOf fuel img = .ret (s.store.layerPaths chain, none) := by
  obtain ⟨chain, hchain, hsub⟩ := hs.ancestral.exists_lineage himg
  refine ⟨chain, hchain, hsub, fun fuel hfuel => ?_⟩
  have hlen := hsub.length_le
  rw [List.length_reverse] at hlen
  exact hs.layersLoop img hchain (fun i hi => List.mem_reverse.mp (hsub.subset hi)) (by omega)

/-! ## Every reachable store -/

/-- In every store reached by any operations, failing anywhere: the parent of a registered
    image is empty or was registered earlier, and its layer directory exists. So `layers`
    on a registered image ends without an error, with the paths of the layers of the image
    and of its ancestors in order up to one without a parent, and no path comes twice. -/
theorem layers_complete {s : StoreRun α} (h : (storeSystem α).Reachable s) :
    (∀ l₁ img l₂, s.store.images = l₁ ++ img :: l₂ →
      (img.parent = [] ∨ ∃ p ∈ l₁, p.id = img.parent) ∧ s.store.layers.has img.id = true) ∧
    ∀ img ∈ s.store.images, ∃ chain,
      Lineage Image.id Image.parentKey s.store.images img chain ∧
      (s.store.layerPaths chain).Nodup ∧
      ∀ fuel, s.store.images.length ≤ fuel →
        s.store.layersOf fuel img = .ret (s.store.layerPaths chain, none) := by
  have hs := StoreRun.Inv.of_reachable h
  constructor
  · intro l₁ img l₂ heq
    have himg : img ∈ s.store.images := by
      rw [heq]
      exact List.mem_append_right _ List.mem_cons_self
    refine ⟨?_, hs.layered img himg⟩
    by_cases hp : img.parent = []
    · exact .inl hp
    · exact .inr (hs.ancestral.earlier l₁ img l₂ heq img.parent (if_neg hp))
  · intro img himg
    obtain ⟨chain, hchain, hsub, hlayers⟩ := hs.layersOf himg
    exact ⟨chain, hchain, hs.layerPaths_nodup hsub, hlayers⟩

/-- Two images, the second one on top of the first, and a `Create` whose transaction fails
    after its layer was made. -/
theorem layers_complete_pair :
    ∃ s : StoreRun Unit, (storeSystem Unit).Reachable s ∧ s.store.images.length = 2 ∧
      s.store.layers.dirs.length = 3 ∧
      ∀ img ∈ s.store.images, ∃ chain,
        Lineage Image.id Image.parentKey s.store.images img chain ∧
        s.store.layersOf 2 img = .ret (s.store.layerPaths chain, none) := by
  have hinit : (storeSystem Unit).Reachable ⟨Store.empty (str "/docker/layers"), [], []⟩ :=
    .init ⟨str "/docker/layers", rfl⟩
  have hreach := hinit.run [
    .create (.replicate 32 1) (.replicate 32 2) 0 () none (str "base") [] none,
    .create (.replicate 32 3) (.replicate 32 4) 0 () (some 0) (str "lost") []
      (some (.commit (str "disk full") false)),
    .create (.replicate 32 5) (.replicate 32 6) 0 () (some 0) (str "top") [] none,
    .copy 1 (str "copy") none, .addTag (randomId (.replicate 32 1)) (str "latest") none,
    .mountpoint 1 (str "/c/rootfs") (str "/c/rw") none] rfl
  refine ⟨_, hreach, rfl, rfl, fun img himg => ?_⟩
  obtain ⟨chain, hchain, -, hlayers⟩ := (layers_complete hreach).2 img himg
  exact ⟨chain, hchain, hlayers 2 (Nat.le_refl 2)⟩

end Docker

import DockerEngine.Native.Rows
import DockerEngine.Spec.Names

/-!
# The rows of a store refer to rows

No table of the store has a foreign key. Images are never removed, though, and the images that
callers have got hold of have rows, so what is inserted for them refers to a row. Only `Register`
can be given an image whose row is not written, without telling.

- `tables_closed`: the references and the keys of all tables, over all runs
- `tag_forever`: a tag names the same image for ever
-/

namespace Docker

open Go

variable {α : Type u} {store store' : Store α}

namespace Store

/-! ## What an operation writes -/

theorem create_others (store : Store α) (id tmpName pth comment : GoString) (created : Int)
    (data : α) (parent : Option Image) (fault : Option (CreateFault α)) :
    (store.create id tmpName created data parent pth comment fault).2.mountpoints =
        store.mountpoints ∧
      (store.create id tmpName created data parent pth comment fault).2.tags = store.tags := by
  unfold create
  simp only
  split
  · exact ⟨rfl, rfl⟩
  · split
    · exact ⟨rfl, rfl⟩
    · exact ⟨rfl, rfl⟩
    split
    · exact ⟨rfl, rfl⟩
    split
    · exact ⟨rfl, rfl⟩
    split
    · exact ⟨rfl, rfl⟩
    split
    · split <;> exact ⟨rfl, rfl⟩
    · exact ⟨rfl, rfl⟩

theorem mountpoint_tables (store : Store α) (image : Image) (root rw : GoString)
    (err : Option GoString) :
    (store.mountpoint image root rw err).2 = store ∨
    ∃ mp : Mountpoint, mp.image = image.id ∧ mp.root ∉ store.mountpoints.map Mountpoint.root ∧
      (store.mountpoint image root rw err).2 =
        { store with mountpoints := store.mountpoints ++ [mp] } := by
  unfold mountpoint
  simp only
  split
  · exact .inl rfl
  · split
    · exact .inl rfl
    · next hroot => exact .inr ⟨_, rfl, hroot, rfl⟩

theorem deregister_images (store : Store α) (mp : Mountpoint) (mounted : Bool)
    (err : Option GoString) : (store.deregister mp mounted err).2.images = store.images := by
  unfold deregister
  split
  · rfl
  · split <;> rfl

theorem addTag_tables (store : Store α) (imageId tagName : GoString) (err : Option GoString) :
    ((store.addTag imageId tagName err).2 = store ∧ (store.addTag imageId tagName err).1 ≠ none) ∨
    (store.get imageId).isSome ∧ tagName ∉ store.tags.map Tag.tagName ∧
      (store.addTag imageId tagName err).2 =
        { store with tags := store.tags ++ [⟨tagName, imageId⟩] } := by
  unfold addTag
  split
  · exact .inl ⟨rfl, by simp⟩
  · next img himg =>
    split
    · exact .inl ⟨rfl, by simp⟩
    · split
      · exact .inl ⟨rfl, by simp⟩
      · next htag => exact .inr ⟨by rw [himg]; rfl, htag, rfl⟩

/-! ## Images stay -/

theorem get_append {images : List Image} (h : store'.images = store.images ++ images)
    {id : GoString} {img : Image} (hget : store.get id = some img) : store'.get id = some img := by
  rw [get, h]
  exact lookupRow_append hget images

theorem isSome_get_append {images : List Image} (h : store'.images = store.images ++ images)
    {id : GoString} (hget : (store.get id).isSome) : (store'.get id).isSome := by
  obtain ⟨img, himg⟩ := Option.isSome_iff_exists.mp hget
  rw [get_append h himg]
  rfl

theorem isSome_get_of_mem {img : Image} (h : img ∈ store.images) : (store.get img.id).isSome := by
  rw [get, lookupRow, List.find?_isSome]
  exact ⟨img, h, decide_eq_true rfl⟩

theorem id_notMem_of_get {id : GoString} (h : store.get id = none) :
    id ∉ store.images.map Image.id := by
  intro hmem
  obtain ⟨img, himg, rfl⟩ := List.mem_map.mp hmem
  have hsome := isSome_get_of_mem himg
  rw [h] at hsome
  exact absurd hsome (by simp)

/-! ## Closed tables -/

/-- Every reference is to a row, parents come before their children, and keys are unique. -/
structure Closed (store : Store α) : Prop where
  images : Ancestral Image.id Image.parentKey store.images
  paths : ∀ row ∈ store.paths, (store.get row.image).isSome
  mountpoints : ∀ mp ∈ store.mountpoints, (store.get mp.image).isSome
  tags : ∀ tag ∈ store.tags, (store.get tag.image).isSome
  pathKeys : store.paths.Nodup
  rootKeys : (store.mountpoints.map Mountpoint.root).Nodup
  tagKeys : (store.tags.map Tag.tagName).Nodup

/-- The references of an image that is to be inserted. -/
def HasParent (store : Store α) (img : Image) : Prop :=
  img.parent = [] ∨ (store.get img.parent).isSome

theorem HasParent.exists {img : Image} (h : store.HasParent img) (k : GoString)
    (hk : img.parentKey = some k) : ∃ p ∈ store.images, p.id = k := by
  rw [Image.parentKey] at hk
  split at hk
  · simp at hk
  · next hparent =>
    cases hk
    exact exists_of_get (h.resolve_left hparent)

namespace Closed

/-- One row more, or none, in the tables of images and paths. -/
theorem insert (h : store.Closed) {images : List Image} {paths : List PathRow}
    (himages : store'.images = store.images ++ images)
    (hpaths : store'.paths = store.paths ++ paths)
    (hmountpoints : store'.mountpoints = store.mountpoints) (htags : store'.tags = store.tags)
    (hancestral : Ancestral Image.id Image.parentKey (store.images ++ images))
    (hnew : ∀ row ∈ paths, (store'.get row.image).isSome) (hkeys : (store.paths ++ paths).Nodup) :
    store'.Closed where
  images := by rw [himages]; exact hancestral
  paths := by
    intro row hrow
    rw [hpaths] at hrow
    rcases List.mem_append.mp hrow with hrow | hrow
    · exact isSome_get_append himages (h.paths row hrow)
    · exact hnew row hrow
  mountpoints := by
    rw [hmountpoints]
    exact fun mp hmp => isSome_get_append himages (h.mountpoints mp hmp)
  tags := by
    rw [htags]
    exact fun tag htag => isSome_get_append himages (h.tags tag htag)
  pathKeys := by rw [hpaths]; exact hkeys
  rootKeys := by rw [hmountpoints]; exact h.rootKeys
  tagKeys := by rw [htags]; exact h.tagKeys

theorem nodup_concat {β : Type v} {l : List β} (h : l.Nodup) {b : β} (hb : b ∉ l) :
    (l ++ [b]).Nodup := by
  rw [List.nodup_append']
  exact ⟨h, List.nodup_singleton b, fun c hc hmem => hb (List.mem_singleton.mp hmem ▸ hc)⟩

theorem create (h : store.Closed) {id tmpName pth comment : GoString} {created : Int} {data : α}
    {parent : Option Image} {fault : Option (CreateFault α)}
    (hparent : ∀ p, parent = some p → (store.get p.id).isSome) :
    (store.create id tmpName created data parent pth comment fault).2.Closed := by
  obtain ⟨hmountpoints, htags⟩ :=
    create_others store id tmpName pth comment created data parent fault
  rcases hcreate : store.create id tmpName created data parent pth comment fault with ⟨res, store'⟩
  rw [hcreate] at hmountpoints htags
  obtain ⟨himages, hpaths, -⟩ | ⟨himages, hpaths, hget, hpath, -⟩ := create_tables hcreate
  · -- no row at all
    have himages' : store'.images = store.images ++ [] := by rw [himages, List.append_nil]
    have hpaths' : store'.paths = store.paths ++ [] := by rw [hpaths, List.append_nil]
    apply h.insert himages' hpaths' hmountpoints htags
    · rw [List.append_nil]
      exact h.images
    · exact fun row hrow => absurd hrow List.not_mem_nil
    · rw [List.append_nil]
      exact h.pathKeys
  · have hhas : store.HasParent (newImage id parent comment created) := by
      cases parent with
      | none => exact .inl rfl
      | some p => exact .inr (hparent p rfl)
    apply h.insert himages hpaths hmountpoints htags
    · exact h.images.append (id_notMem_of_get hget) hhas.exists
    · intro row hrow
      rw [List.mem_singleton.mp hrow]
      show (store'.get (newImage id parent comment created).id).isSome
      apply isSome_get_of_mem
      rw [himages]
      simp
    · exact nodup_concat h.pathKeys hpath

theorem copy (h : store.Closed) {image : Image} {pth : GoString} {err : Option GoString}
    (hget : (store.get image.id).isSome) : (store.copy image pth err).2.Closed := by
  unfold Store.copy
  split
  · exact h
  · split
    · exact h
    · next hpath =>
      refine { h with paths := ?_, pathKeys := nodup_concat h.pathKeys hpath }
      intro row hrow
      rcases List.mem_append.mp hrow with hrow | hrow
      · exact h.paths row hrow
      · rw [List.mem_singleton.mp hrow]
        exact hget

theorem insertAccepted (h : store.Closed) {image : Image} {pth : GoString} {errs : RegisterErrs}
    (himage : errs.insertImage = none) (hparent : store.HasParent image) :
    (store.insertAccepted image pth errs).Closed ∧
      ((store.insertAccepted image pth errs).get image.id).isSome := by
  have hstored : ((store.insertAccepted image pth errs).get image.id).isSome := by
    by_cases htaken : (store.get image.id).isSome
    · exact isSome_get_append rfl htaken
    · apply isSome_get_of_mem
      simp [Store.insertAccepted, rejectsImage, himage, htaken]
  have himages : (store.insertAccepted image pth errs).images =
      store.images ++ if store.rejectsImage image errs then [] else [image] := rfl
  have hpaths : (store.insertAccepted image pth errs).paths =
      store.paths ++ if store.rejectsPath ⟨pth, image.id⟩ errs then [] else [⟨pth, image.id⟩] := rfl
  refine ⟨h.insert himages hpaths rfl rfl ?_ ?_ ?_, hstored⟩
  · split
    · simpa using h.images
    · next hreject =>
      have hget : store.get image.id = none := by
        simpa [rejectsImage, himage] using hreject
      exact h.images.append (id_notMem_of_get hget) hparent.exists
  · intro row hrow
    split at hrow
    · simp at hrow
    · rw [List.mem_singleton.mp hrow]
      exact hstored
  · split
    · simpa using h.pathKeys
    · next hreject =>
      have hpath : (⟨pth, image.id⟩ : PathRow) ∉ store.paths := by
        intro hmem
        simp [rejectsPath, hmem] at hreject
      exact nodup_concat h.pathKeys hpath

theorem mountpoint (h : store.Closed) {image : Image} {root rw : GoString} {err : Option GoString}
    (hget : (store.get image.id).isSome) : (store.mountpoint image root rw err).2.Closed := by
  obtain heq | ⟨mp, himage, hroot, heq⟩ := mountpoint_tables store image root rw err
  · rw [heq]
    exact h
  · rw [heq]
    refine { h with mountpoints := ?_, rootKeys := ?_ }
    · intro row hrow
      rcases List.mem_append.mp hrow with hrow | hrow
      · exact h.mountpoints row hrow
      · rw [List.mem_singleton.mp hrow, himage]
        exact hget
    · rw [List.map_append]
      exact nodup_concat h.rootKeys hroot

theorem deregister (h : store.Closed) (mp : Mountpoint) (mounted : Bool) (err : Option GoString) :
    (store.deregister mp mounted err).2.Closed := by
  unfold Store.deregister
  split
  · exact h
  · split
    · exact h
    · refine { h with mountpoints := ?_, rootKeys := ?_ }
      · exact fun row hrow => h.mountpoints row (List.mem_filter.mp hrow).1
      · exact h.rootKeys.sublist (List.filter_sublist.map _)

theorem addTag (h : store.Closed) (imageId tagName : GoString) (err : Option GoString) :
    (store.addTag imageId tagName err).2.Closed := by
  obtain ⟨heq, -⟩ | ⟨hget, htag, heq⟩ := addTag_tables store imageId tagName err
  · rw [heq]
    exact h
  · rw [heq]
    refine { h with tags := ?_, tagKeys := ?_ }
    · intro tag hmem
      rcases List.mem_append.mp hmem with hmem | hmem
      · exact h.tags tag hmem
      · rw [List.mem_singleton.mp hmem]
        exact hget
    · rw [List.map_append]
      exact nodup_concat h.tagKeys htag

end Closed

end Store

/-! ## All runs -/

namespace TableRun

/-- `Register` is given an image whose parent is there, and the database does not reject the image
    (unless its id is taken). -/
def Sound (s : TableRun α) : TableOp α → Prop
  | .register image _ errs => errs.insertImage = none ∧ s.store.HasParent image
  | _ => True

instance (s : TableRun α) : (op : TableOp α) → Decidable (Sound s op)
  | .register image _ errs => inferInstanceAs (Decidable
      (errs.insertImage = none ∧ (image.parent = [] ∨ (s.store.get image.parent).isSome)))
  | .create .. | .get _ | .getByTag _ | .images | .copy .. | .mountpoint .. | .deregister ..
  | .addTag .. => .isTrue trivial

/-- The tables are closed, and the images that callers have are among the rows. -/
structure Closed (s : TableRun α) : Prop where
  store : s.store.Closed
  obtained : ∀ img ∈ s.obtained, (s.store.get img.id).isSome

namespace Closed

variable {s s' : TableRun α}

/-- The tables change and no image is lost, and callers get more images that are there. -/
theorem grow (h : s.Closed) (hstore : store'.Closed)
    (hstay : ∀ id, (s.store.get id).isSome → (store'.get id).isSome) {more : List Image}
    (hmore : ∀ img ∈ more, (store'.get img.id).isSome) :
    Closed ⟨store', s.obtained ++ more⟩ where
  store := hstore
  obtained := by
    intro img himg
    rcases List.mem_append.mp himg with himg | himg
    · exact hstay img.id (h.obtained img himg)
    · exact hmore img himg

/-- The tables change, and callers get nothing. -/
theorem keep (h : s.Closed) (hstore : store'.Closed)
    (hstay : ∀ id, (s.store.get id).isSome → (store'.get id).isSome) :
    Closed ⟨store', s.obtained⟩ :=
  ⟨hstore, fun img himg => hstay img.id (h.obtained img himg)⟩

/-- Callers get images that are there. -/
theorem obtain (h : s.Closed) {more : List Image} (hmore : ∀ img ∈ more, img ∈ s.store.images) :
    Closed { s with obtained := s.obtained ++ more } :=
  h.grow h.store (fun _ hid => hid) fun img himg => Store.isSome_get_of_mem (hmore img himg)

theorem getElem? (h : s.Closed) {k : Nat} {img : Image} (hk : s.obtained[k]? = some img) :
    (s.store.get img.id).isSome :=
  h.obtained img (List.mem_of_getElem? hk)

theorem create (h : s.Closed) {id tmpName pth comment : GoString} {created : Int} {data : α}
    {parent : Option Image} {fault : Option (CreateFault α)}
    (hparent : ∀ p, parent = some p → (s.store.get p.id).isSome) :
    (s.after (s.store.create id tmpName created data parent pth comment fault)).Closed := by
  have hclosed : (s.store.create id tmpName created data parent pth comment fault).2.Closed :=
    h.store.create hparent
  rcases hcreate : s.store.create id tmpName created data parent pth comment fault with
    ⟨res, store'⟩
  rw [hcreate] at hclosed
  obtain ⟨himages, -, err, rfl⟩ | ⟨himages, -, -, -, himg⟩ := Store.create_tables hcreate
  · apply h.keep hclosed
    intro id hid
    rw [Store.get, himages]
    exact hid
  · have hstay : ∀ id, (s.store.get id).isSome → (store'.get id).isSome :=
      fun id => Store.isSome_get_append himages
    cases res with
    | error err => exact h.keep hclosed hstay
    | ok img =>
      apply h.grow hclosed hstay
      intro other hother
      rw [List.mem_singleton.mp hother]
      apply Store.isSome_get_of_mem
      rw [himages, himg img rfl]
      simp

theorem step {op : TableOp α} (h : s.Closed) (hop : Sound s op) (hstep : s.step op = some s') :
    s'.Closed := by
  cases op with
  | create id tmpName created data parent pth comment fault =>
    obtain ⟨parent', hparent, rfl⟩ := Option.map_eq_some_iff.mp hstep
    apply h.create
    rintro p rfl
    cases parent with
    | none => cases hparent
    | some k =>
      obtain ⟨p', hk, hp⟩ := Option.map_eq_some_iff.mp hparent
      cases hp
      exact h.getElem? hk
  | register image pth errs =>
    obtain ⟨hnone, hhas⟩ := hop
    have hreg : (s.store.insertAccepted image pth errs).Closed ∧
        ((s.store.insertAccepted image pth errs).get image.id).isSome :=
      h.store.insertAccepted hnone hhas
    have hstay : ∀ id, (s.store.get id).isSome →
        ((s.store.insertAccepted image pth errs).get id).isSome :=
      fun id => Store.isSome_get_append rfl
    simp only [TableRun.step] at hstep
    rcases hres : s.store.register image pth errs with ⟨res, store'⟩
    rw [hres] at hstep
    obtain ⟨rfl, herr⟩ | rfl := Store.register_tables hres
    · -- nothing is written, and the error is returned
      cases res with
      | none => exact absurd rfl herr
      | some err => cases hstep; exact h
    · cases res with
      | some err =>
        cases hstep
        exact h.keep hreg.1 hstay
      | none =>
        cases hstep
        apply h.grow hreg.1 hstay
        intro img himg
        rw [List.mem_singleton.mp himg]
        exact hreg.2
  | get id =>
    cases hstep
    apply h.obtain
    intro img himg
    exact (lookupRow_eq_some (Option.mem_toList.mp himg)).1
  | getByTag tagName =>
    cases hstep
    unfold Store.getByTag
    split
    · exact h
    · split
      · exact h
      · next img hget =>
        apply h.obtain
        intro other hother
        rw [List.mem_singleton.mp hother]
        exact (lookupRow_eq_some hget).1
  | images =>
    cases hstep
    exact h.obtain fun img himg => himg
  | copy k pth err =>
    obtain ⟨img, hk, rfl⟩ := Option.map_eq_some_iff.mp hstep
    apply h.keep (h.store.copy (h.getElem? hk))
    intro id hid
    rw [Store.get, (copy_frame s.store img pth err).1]
    exact hid
  | mountpoint k root rw err =>
    obtain ⟨img, hk, rfl⟩ := Option.map_eq_some_iff.mp hstep
    apply h.keep (h.store.mountpoint (h.getElem? hk))
    intro id hid
    rw [Store.get, (mountpoint_frame s.store img root rw err).1]
    exact hid
  | deregister mp mounted err =>
    cases hstep
    apply h.keep (h.store.deregister mp mounted err)
    intro id hid
    rw [Store.get, Store.deregister_images]
    exact hid
  | addTag imageId tagName err =>
    cases hstep
    apply h.keep (h.store.addTag imageId tagName err)
    intro id hid
    rw [Store.get, (addTag_frame s.store imageId tagName err).1]
    exact hid

end Closed

end TableRun

/-- Over all runs in which `Register` is not used for images that the database rejects or whose
    parents are unknown: every path, mountpoint, tag and parent refers to the row of an image, no
    key is taken twice, and the images that callers have got hold of are still there. -/
theorem tables_closed {s : TableRun α} (h : (tableSystem α).ReachableVia TableRun.Sound s) :
    s.Closed := by
  apply h.invariant
  · rintro s ⟨root, rfl⟩
    refine ⟨⟨.nil, ?_, ?_, ?_, List.nodup_nil, List.nodup_nil, List.nodup_nil⟩, ?_⟩
    · exact fun row hrow => absurd hrow List.not_mem_nil
    · exact fun mp hmp => absurd hmp List.not_mem_nil
    · exact fun tag htag => absurd htag List.not_mem_nil
    · exact fun img himg => absurd himg List.not_mem_nil
  · exact fun s op s' hs hop hstep => hs.step hop hstep

/-- The base image, one made on it, and an image that is registered on top of both. -/
def registeredRun : List (TableOp Unit) := [
  .create (str "a") (str "t") 0 () none (str "base") [] none,
  .create (str "b") (str "u") 1 () (some 0) (str "app/") [] none,
  .register ⟨str "c", str "b", [], 2⟩ (str "app") .none,
  .copy 2 (str "copy") none,
  .addTag (str "c") (str "latest") none]

theorem tables_closed_registered :
    ∃ s, (tableSystem Unit).runVia TableRun.Sound ⟨Store.empty (str "/l"), []⟩ registeredRun =
      some s ∧ s.store.paths.length = 4 ∧ s.Closed := by
  obtain ⟨s, hrun, hlength⟩ : ∃ s, (tableSystem Unit).runVia TableRun.Sound
      ⟨Store.empty (str "/l"), []⟩ registeredRun = some s ∧ s.store.paths.length = 4 :=
    ⟨_, rfl, rfl⟩
  have hinit : (tableSystem Unit).ReachableVia TableRun.Sound ⟨Store.empty (str "/l"), []⟩ :=
    .init ⟨str "/l", rfl⟩
  exact ⟨s, hrun, hlength, tables_closed (hinit.runVia registeredRun hrun)⟩

/-! ## Tags -/

namespace TableRun

variable {s s' : TableRun α}

/-- What a call does to the table of images, and to the one of tags: rows are added. -/
theorem step_grows {op : TableOp α} (hstep : s.step op = some s') :
    (∃ images, s'.store.images = s.store.images ++ images) ∧
      ∃ tags, s'.store.tags = s.store.tags ++ tags := by
  have hsame : ∀ {store : Store α}, s'.store = store → store.images = s.store.images →
      store.tags = s.store.tags → (∃ images, s'.store.images = s.store.images ++ images) ∧
        ∃ tags, s'.store.tags = s.store.tags ++ tags := by
    rintro _ rfl himages htags
    exact ⟨⟨[], by rw [himages, List.append_nil]⟩, [], by rw [htags, List.append_nil]⟩
  cases op with
  | create id tmpName created data parent pth comment fault =>
    obtain ⟨parent', -, rfl⟩ := Option.map_eq_some_iff.mp hstep
    have hothers := Store.create_others s.store id tmpName pth comment created data parent' fault
    rcases hcreate : s.store.create id tmpName created data parent' pth comment fault with
      ⟨res, store'⟩
    rw [hcreate] at hothers hsame
    have hafter : (s.after (res, store')).store = store' := by cases res <;> rfl
    obtain ⟨himages, -⟩ | ⟨himages, -⟩ := Store.create_tables hcreate
    · exact hsame hafter himages hothers.2
    · rw [hafter]
      exact ⟨⟨_, himages⟩, [], by rw [hothers.2, List.append_nil]⟩
  | register image pth errs =>
    simp only [TableRun.step] at hstep
    rcases hres : s.store.register image pth errs with ⟨res, store'⟩
    rw [hres] at hstep
    have hstore : s'.store = store' := by cases res <;> cases hstep <;> rfl
    obtain ⟨heq, -⟩ | heq := Store.register_tables hres
    · exact hsame hstore (by rw [heq]) (by rw [heq])
    · rw [hstore, heq]
      exact ⟨⟨_, rfl⟩, [], (List.append_nil _).symm⟩
  | get id => cases hstep; exact hsame rfl rfl rfl
  | getByTag tagName =>
    cases hstep
    apply hsame _ rfl rfl
    cases s.store.getByTag tagName <;> rfl
  | images => cases hstep; exact hsame rfl rfl rfl
  | copy k pth err =>
    obtain ⟨img, -, rfl⟩ := Option.map_eq_some_iff.mp hstep
    apply hsame rfl (copy_frame s.store img pth err).1
    unfold Store.copy
    split
    · rfl
    · split <;> rfl
  | mountpoint k root rw err =>
    obtain ⟨img, -, rfl⟩ := Option.map_eq_some_iff.mp hstep
    apply hsame rfl (mountpoint_frame s.store img root rw err).1
    obtain heq | ⟨mp, -, -, heq⟩ := Store.mountpoint_tables s.store img root rw err <;> rw [heq]
  | deregister mp mounted err =>
    cases hstep
    apply hsame rfl (Store.deregister_images s.store mp mounted err)
    unfold Store.deregister
    split
    · rfl
    · split <;> rfl
  | addTag imageId tagName err =>
    cases hstep
    show (∃ images, (s.store.addTag imageId tagName err).2.images = _) ∧
      ∃ tags, (s.store.addTag imageId tagName err).2.tags = _
    obtain ⟨heq, -⟩ | ⟨-, -, heq⟩ := Store.addTag_tables s.store imageId tagName err
    · rw [heq]
      exact ⟨⟨[], (List.append_nil _).symm⟩, [], (List.append_nil _).symm⟩
    · rw [heq]
      exact ⟨⟨[], (List.append_nil _).symm⟩, _, rfl⟩

end TableRun

theorem Store.getByTag_of_rows {tagName : GoString} {t : Tag} {img : Image}
    (htag : lookupRow Tag.tagName store.tags tagName = some t)
    (himg : store.get t.image = some img) : store.getByTag tagName = .ok img := by
  unfold getByTag
  rw [htag]
  simp only [himg]

namespace TableRun

variable {s s' : TableRun α}

/-- What a tag resolves to stays the same. -/
theorem getByTag_step {op : TableOp α} {tagName : GoString} {img : Image}
    (hget : s.store.getByTag tagName = .ok img) (hstep : s.step op = some s') :
    s'.store.getByTag tagName = .ok img := by
  obtain ⟨⟨images, himages⟩, tags, htags⟩ := step_grows hstep
  unfold Store.getByTag at hget
  split at hget
  · cases hget
  · next tag htag =>
    split at hget
    · cases hget
    · next img' himg =>
      cases hget
      apply Store.getByTag_of_rows
      · rw [htags, lookupRow_append htag tags]
      · exact Store.get_append himages himg

end TableRun

/-- When a tag has been added, it resolves to the image it was added for, after any further
    calls, and adding it again fails: no call moves a tag or takes it away. -/
theorem tag_forever {s : TableRun α} {imageId tagName : GoString} {err : Option GoString}
    (hadd : (s.store.addTag imageId tagName err).1 = none) :
    ∃ img, s.store.get imageId = some img ∧
      ∀ ops s', (tableSystem α).run ⟨(s.store.addTag imageId tagName err).2, s.obtained⟩ ops =
          some s' →
        s'.store.getByTag tagName = .ok img ∧
          ∀ other err', (s'.store.addTag other tagName err').1 ≠ none := by
  obtain ⟨-, hne⟩ | ⟨hget, htag, heq⟩ := Store.addTag_tables s.store imageId tagName err
  · exact absurd hadd hne
  obtain ⟨img, himg⟩ := Option.isSome_iff_exists.mp hget
  refine ⟨img, himg, fun ops s' hrun => ?_⟩
  have hfirst : (s.store.addTag imageId tagName err).2.getByTag tagName = .ok img := by
    rw [heq]
    apply Store.getByTag_of_rows (t := ⟨tagName, imageId⟩)
    · show lookupRow Tag.tagName (s.store.tags ++ [⟨tagName, imageId⟩]) tagName = _
      have hnone := lookupRow_eq_none htag
      rw [lookupRow] at hnone
      rw [lookupRow, List.find?_append, hnone]
      simp
    · exact himg
  have hlater : s'.store.getByTag tagName = .ok img :=
    (tableSystem α).run_invariant (P := fun s => s.store.getByTag tagName = .ok img)
      (fun s op s' hs hstep => TableRun.getByTag_step hs hstep) hfirst hrun
  refine ⟨hlater, fun other err' hagain => ?_⟩
  obtain ⟨-, hne⟩ | ⟨-, hfree, -⟩ := Store.addTag_tables s'.store other tagName err'
  · exact hne hagain
  · -- the tag is in the table, or it would not resolve
    unfold Store.getByTag at hlater
    rw [lookupRow_eq_none hfree] at hlater
    cases hlater

/-- A store with one image. -/
def taggedRun : TableRun Unit :=
  ⟨{ Store.empty (str "/l") with images := [⟨str "a", [], [], 0⟩] }, []⟩

theorem tag_forever_latest :
    ∃ img, taggedRun.store.get (str "a") = some img ∧
      ∀ ops s', (tableSystem Unit).run
          ⟨(taggedRun.store.addTag (str "a") (str "latest") none).2, taggedRun.obtained⟩ ops =
            some s' →
        s'.store.getByTag (str "latest") = .ok img ∧
          ∀ other err', (s'.store.addTag other (str "latest") err').1 ≠ none :=
  tag_forever rfl

end Docker

import DockerEngine.Native.Names
import DockerEngine.Spec.Register
import Mathlib.Data.List.Dedup

/-!
# Finding images by their names

`List` and `Find` clean the path they are asked for. `Create` writes a clean path; `Copy` and
`Register` write the path as it is, so an image gets names under which it cannot be found.

`Find` takes the image with the greatest `Created`, a time in whole seconds. Of two images that
were created in the same second it may take the older one.

- `names_listed`: which names can be found again
- `find_latest`: when `Find` returns the image that was just created
-/

namespace Docker

open Go

variable {α : Type u} {store store' : Store α}

namespace Store

/-! ## The queries -/

theorem mem_pathNames {name : GoString} :
    name ∈ store.pathNames ↔ ∃ row ∈ store.paths, row.path = name := by
  rw [pathNames, List.mem_mergeSort, List.mem_dedup, List.mem_map]

theorem mem_named {pth : GoString} {img : Image} :
    img ∈ store.named pth ↔ img ∈ store.images ∧ ⟨pth, img.id⟩ ∈ store.paths := by
  rw [named, List.mem_flatMap]
  constructor
  · rintro ⟨other, hother, hmem⟩
    obtain ⟨row, hrow, rfl⟩ := List.mem_map.mp hmem
    rw [List.mem_filter, decide_eq_true_eq] at hrow
    obtain ⟨hrow, rfl, hid⟩ := hrow
    rw [← hid]
    exact ⟨hother, hrow⟩
  · rintro ⟨himg, hrow⟩
    exact ⟨img, himg, List.mem_map.mpr ⟨⟨pth, img.id⟩, by simp [hrow], rfl⟩⟩

theorem mem_newest {images : List Image} {img : Image} :
    img ∈ newest images ↔ img ∈ images ∧ ∀ other ∈ images, other.created ≤ img.created := by
  simp [newest]

/-- Of images there are always some that were created last. -/
theorem newest_ne_nil {images : List Image} (h : images ≠ []) : newest images ≠ [] := by
  obtain ⟨img, hmax⟩ : ∃ img, img ∈ images ∧ ∀ other ∈ images, other.created ≤ img.created := by
    induction images with
    | nil => exact absurd rfl h
    | cons first rest ih =>
      by_cases hrest : rest = []
      · subst hrest
        exact ⟨first, by simp, by simp⟩
      -- the newest of the others, or the first one
      obtain ⟨img, himg, hmax⟩ := ih hrest
      by_cases hle : first.created ≤ img.created
      · refine ⟨img, List.mem_cons_of_mem _ himg, fun other hother => ?_⟩
        rcases List.mem_cons.mp hother with rfl | hother
        · exact hle
        · exact hmax other hother
      · refine ⟨first, List.mem_cons_self, fun other hother => ?_⟩
        rcases List.mem_cons.mp hother with rfl | hother
        · exact Int.le_refl _
        · have hother := hmax other hother
          omega
  exact List.ne_nil_of_mem (mem_newest.mpr hmax)

/-- Whatever the database takes, it takes something. -/
theorem find_ne_none {pth : GoString} {tie : Nat} (h : store.list pth ≠ []) :
    store.find pth tie ≠ none := by
  unfold find
  simp only
  split
  · simp
  · have hlen := List.length_pos_iff.mpr (newest_ne_nil h)
    rw [Ne, List.getElem?_eq_none_iff, Nat.not_le]
    exact Nat.mod_lt _ hlen

/-- An image can be found by a name. -/
structure Listed (store : Store α) (img : Image) (pth : GoString) : Prop where
  list : img ∈ store.list pth
  find : ∀ tie, store.find pth tie ≠ none

theorem listed_iff {img : Image} {pth : GoString} :
    store.Listed img pth ↔ img ∈ store.images ∧ ⟨clean pth, img.id⟩ ∈ store.paths := by
  rw [← mem_named]
  constructor
  · exact fun h => h.list
  · exact fun h => ⟨h, fun tie => find_ne_none (List.ne_nil_of_mem h)⟩

/-! ## What is written -/

/-- `Create` fails and leaves the tables, or both rows were new and are written. -/
theorem create_tables {id tmpName pth comment : GoString} {created : Int} {data : α}
    {parent : Option Image} {fault : Option (CreateFault α)} {res : Except GoString Image}
    (h : store.create id tmpName created data parent pth comment fault = (res, store')) :
    (store'.images = store.images ∧ store'.paths = store.paths ∧ ∃ err, res = .error err) ∨
    (store'.images = store.images ++ [newImage id parent comment created] ∧
      store'.paths = store.paths ++ [⟨clean pth, id⟩] ∧
      store.get id = none ∧ ⟨clean pth, id⟩ ∉ store.paths ∧
      ∀ img, res = .ok img → img = newImage id parent comment created) := by
  unfold create at h
  simp only at h
  rcases hadd : store.layers.addLayer id tmpName data (fault.bind CreateFault.layerFault) with
    ⟨added, layers⟩
  rw [hadd] at h
  cases added with
  | error err =>
    cases h
    exact .inl ⟨rfl, rfl, _, rfl⟩
  | ok layer =>
    simp only at h
    -- the transaction does not begin, or the database refuses the image
    split at h
    · cases h; exact .inl ⟨rfl, rfl, _, rfl⟩
    · cases h; exact .inl ⟨rfl, rfl, _, rfl⟩
    -- the id is taken
    split at h
    · cases h; exact .inl ⟨rfl, rfl, _, rfl⟩
    next hnew =>
    have hget : store.get id = none := Option.not_isSome_iff_eq_none.mp hnew
    -- the database refuses the path, or the path is taken
    split at h
    · cases h; exact .inl ⟨rfl, rfl, _, rfl⟩
    split at h
    · cases h; exact .inl ⟨rfl, rfl, _, rfl⟩
    next hpath =>
    -- a commit that fails may have written both rows
    split at h
    · next err written _ _ _ =>
      cases h
      cases written with
      | false => exact .inl ⟨rfl, rfl, _, rfl⟩
      | true => exact .inr ⟨rfl, rfl, hget, hpath, fun _ h => nomatch h⟩
    · cases h
      refine .inr ⟨rfl, rfl, hget, hpath, fun img himg => ?_⟩
      cases himg
      rfl

/-- `Copy` fails and does nothing, or the row was new and is written. -/
theorem copy_tables {image : Image} {pth : GoString} {err : Option GoString}
    {res : Except GoString Image} (h : store.copy image pth err = (res, store')) :
    (store' = store ∧ ∃ err, res = .error err) ∨
    (store' = { store with paths := store.paths ++ [⟨pth, image.id⟩] } ∧ res = .ok image) := by
  unfold copy at h
  split at h
  · cases h
    exact .inl ⟨rfl, _, rfl⟩
  · split at h
    · cases h
      exact .inl ⟨rfl, _, rfl⟩
    · cases h
      exact .inr ⟨rfl, rfl⟩

/-- `Register` does nothing, or writes what was not rejected. -/
theorem register_tables {image : Image} {pth : GoString} {errs : RegisterErrs}
    {res : Option GoString} (h : store.register image pth errs = (res, store')) :
    (store' = store ∧ res ≠ none) ∨ store' = store.insertAccepted image pth errs := by
  unfold register at h
  split at h
  · cases h
    exact .inl ⟨rfl, by simp⟩
  · split at h
    · -- a commit that fails has written everything or nothing
      cases h
      split
      · exact .inr rfl
      · exact .inl ⟨rfl, by simp⟩
    · cases h
      exact .inr rfl

/-! ## One name -/

/-- What `Create` has named can be found. -/
theorem create_listed {id tmpName pth comment : GoString} {created : Int} {data : α}
    {parent : Option Image} {fault : Option (CreateFault α)} {img : Image}
    (h : store.create id tmpName created data parent pth comment fault = (.ok img, store')) :
    store'.Listed img pth := by
  obtain ⟨-, -, err, herr⟩ | ⟨himages, hpaths, -, -, himg⟩ := create_tables h
  · simp at herr
  · obtain rfl := himg img rfl
    apply listed_iff.mpr
    rw [himages, hpaths]
    exact ⟨by simp, by simp [newImage]⟩

/-- The row that is found is there already, or it is the one that is written. -/
theorem clean_mem_iff {paths : List PathRow} {pth id : GoString} :
    (⟨clean pth, id⟩ : PathRow) ∈ paths ++ [⟨pth, id⟩] ↔
      clean pth = pth ∨ ⟨clean pth, id⟩ ∈ paths := by
  rw [List.mem_append, List.mem_singleton, PathRow.mk.injEq, or_comm]
  simp

theorem copy_listed {image img : Image} {pth : GoString} {err : Option GoString}
    (h : store.copy image pth err = (.ok img, store')) :
    store'.Listed image pth ↔
      image ∈ store.images ∧ (clean pth = pth ∨ ⟨clean pth, image.id⟩ ∈ store.paths) := by
  obtain ⟨-, err, herr⟩ | ⟨rfl, -⟩ := copy_tables h
  · simp at herr
  · rw [listed_iff, clean_mem_iff]

/-- A `Register` that returns nil: its two insertions may have been rejected. -/
theorem register_listed {image : Image} {pth : GoString} {errs : RegisterErrs}
    (h : store.register image pth errs = (none, store')) :
    store'.Listed image pth ↔
      (image ∈ store.images ∨ store.rejectsImage image errs = false) ∧
      (clean pth = pth ∧ store.rejectsPath ⟨pth, image.id⟩ errs = false ∨
        ⟨clean pth, image.id⟩ ∈ store.paths) := by
  obtain ⟨-, herr⟩ | rfl := register_tables h
  · exact absurd rfl herr
  · rw [listed_iff]
    apply and_congr
    · cases himage : store.rejectsImage image errs <;> simp [insertAccepted, himage]
    · cases hpath : store.rejectsPath ⟨pth, image.id⟩ errs
      · simp [insertAccepted, hpath, or_comm]
      · simp [insertAccepted, hpath]

/-! ## All names -/

/-- Paths are written clean, or for images that have the clean name already, and for images that
    are there. -/
def NamesClean (s : ClockedStore α) : NameOp α → Prop
  | .tick _ | .create .. => True
  | .copy image pth _ =>
    (clean pth = pth ∨ ⟨clean pth, image.id⟩ ∈ s.store.paths) ∧
      (s.store.get image.id).isSome = true
  | .register image pth errs =>
    (clean pth = pth ∨ ⟨clean pth, image.id⟩ ∈ s.store.paths) ∧
      (errs.insertImage = none ∨ (s.store.get image.id).isSome = true)

/-- Every row has its clean form in the table, and belongs to an image. -/
def RowsNamed (store : Store α) : Prop :=
  ∀ row ∈ store.paths, ⟨clean row.path, row.image⟩ ∈ store.paths ∧
    ∃ img ∈ store.images, img.id = row.image

theorem exists_of_get {id : GoString} (h : (store.get id).isSome = true) :
    ∃ img ∈ store.images, img.id = id := by
  obtain ⟨img, himg⟩ := Option.isSome_iff_exists.mp h
  exact ⟨img, lookupRow_eq_some himg⟩

/-- More images, and more rows for them. -/
theorem RowsNamed.add (h : store.RowsNamed) {rows : List PathRow}
    (himages : ∀ img ∈ store.images, img ∈ store'.images)
    (hpaths : store'.paths = store.paths ++ rows)
    (hrows : ∀ row ∈ rows, (clean row.path = row.path ∨ ⟨clean row.path, row.image⟩ ∈ store.paths) ∧
      ∃ img ∈ store'.images, img.id = row.image) : store'.RowsNamed := by
  intro row hrow
  rw [hpaths] at hrow ⊢
  rcases List.mem_append.mp hrow with hold | hnew
  · obtain ⟨hclean, img, himg, hid⟩ := h row hold
    exact ⟨List.mem_append_left _ hclean, img, himages img himg, hid⟩
  · obtain ⟨hclean | hclean, himg⟩ := hrows row hnew
    · exact ⟨hclean.symm ▸ hrow, himg⟩
    · exact ⟨List.mem_append_left _ hclean, himg⟩

theorem RowsNamed.insertAccepted (h : store.RowsNamed) {image : Image} {pth : GoString}
    {errs : RegisterErrs} (hclean : clean pth = pth ∨ ⟨clean pth, image.id⟩ ∈ store.paths)
    (hid : errs.insertImage = none ∨ (store.get image.id).isSome = true) :
    (store.insertAccepted image pth errs).RowsNamed := by
  have hkeep : ∀ img ∈ store.images, img ∈ (store.insertAccepted image pth errs).images :=
    fun img himg => List.mem_append_left _ himg
  refine h.add hkeep rfl ?_
  intro row hrow
  split at hrow
  · simp at hrow
  rw [List.mem_singleton] at hrow
  subst hrow
  refine ⟨hclean, ?_⟩
  -- the image is there already, or it is inserted as well
  by_cases htaken : (store.get image.id).isSome = true
  · obtain ⟨img, himg, hid⟩ := exists_of_get htaken
    exact ⟨img, hkeep img himg, hid⟩
  · have hacc : store.rejectsImage image errs = false := by
      simp [rejectsImage, htaken, hid.resolve_right htaken]
    exact ⟨image, by simp [Store.insertAccepted, hacc], rfl⟩

theorem RowsNamed.step {s s' : ClockedStore α} {op : NameOp α} (h : s.store.RowsNamed)
    (hok : NamesClean s op) (hstep : s.step op = some s') : s'.store.RowsNamed := by
  cases op with
  | tick nanoseconds =>
    cases hstep
    exact h
  | create id tmpName data parent pth comment fault =>
    cases hstep
    rcases hcreate : s.store.create id tmpName s.unix data parent pth comment fault with
      ⟨res, store'⟩
    show store'.RowsNamed
    obtain ⟨himages, hpaths, -⟩ | ⟨himages, hpaths, -⟩ := create_tables hcreate
    · have hnone : store'.paths = s.store.paths ++ [] := by rw [hpaths, List.append_nil]
      refine h.add ?_ hnone (by simp)
      rw [himages]
      exact fun img himg => himg
    · -- the new row has a clean path and the id of the new image
      refine h.add ?_ hpaths ?_
      · rw [himages]
        exact fun img himg => List.mem_append_left _ himg
      intro row hrow
      rw [List.mem_singleton] at hrow
      subst hrow
      exact ⟨.inl (clean_clean pth), _, by rw [himages]; exact List.mem_concat_self, rfl⟩
  | copy image pth err =>
    cases hstep
    rcases hcopy : s.store.copy image pth err with ⟨res, store'⟩
    show store'.RowsNamed
    obtain ⟨rfl, -⟩ | ⟨rfl, -⟩ := copy_tables hcopy
    · exact h
    · refine h.add (fun img himg => himg) rfl ?_
      intro row hrow
      rw [List.mem_singleton] at hrow
      subst hrow
      exact ⟨hok.1, exists_of_get hok.2⟩
  | register image pth errs =>
    cases hstep
    rcases hregister : s.store.register image pth errs with ⟨res, store'⟩
    show store'.RowsNamed
    obtain ⟨rfl, -⟩ | rfl := register_tables hregister
    · exact h
    · exact h.insertAccepted hok.1 hok.2

theorem RowsNamed.of_reachable {s : ClockedStore α}
    (h : (nameSystem α).ReachableVia NamesClean s) : s.store.RowsNamed := by
  apply h.invariant
  · rintro _ ⟨root, now, rfl⟩ row hrow
    exact absurd hrow List.not_mem_nil
  · exact fun s op s' hs hok hstep => hs.step hok hstep

/-- The images that have a name are listed and shown under it. -/
theorem RowsNamed.shown (h : store.RowsNamed) {name : GoString} (hname : name ∈ store.pathNames) :
    store.list name ≠ [] ∧ ∀ limit, ∃ img, (name, img) ∈ store.cmdImages [] limit := by
  obtain ⟨row, hrow, rfl⟩ := mem_pathNames.mp hname
  obtain ⟨hclean, img, himg, hid⟩ := h row hrow
  have hmem : img ∈ store.list row.path := by
    rw [list, mem_named, hid]
    exact ⟨himg, hclean⟩
  have hne := List.ne_nil_of_mem hmem
  refine ⟨hne, fun limit => ?_⟩
  -- the first one is shown with every limit
  obtain ⟨first, rest, hlist⟩ := List.exists_cons_of_ne_nil hne
  refine ⟨first, List.mem_flatMap.mpr ⟨row.path, hname, ?_⟩⟩
  rw [if_neg (by simp), hlist]
  by_cases hlimit : 0 < limit
  · obtain ⟨n, hn⟩ : ∃ n, limit.toNat = n + 1 := ⟨limit.toNat - 1, by omega⟩
    simp [hlimit, hn]
  · simp [hlimit]

theorem list_of_mem_cmdImages {nameFilter name : GoString} {limit : Int} {img : Image}
    (h : (name, img) ∈ store.cmdImages nameFilter limit) : img ∈ store.list name := by
  obtain ⟨other, -, hmem⟩ := List.mem_flatMap.mp h
  split at hmem
  · simp at hmem
  obtain ⟨shown, hshown, heq⟩ := List.mem_map.mp hmem
  cases heq
  split at hshown
  · exact List.mem_of_mem_take hshown
  · exact hshown

/-- An image that was named by `Create` is listed under its name. One that was named by `Copy` or
    `Register` is if and only if it has a row and the name is clean, or the image already
    had the clean name; and if all names are written so, for images that are there, all of them
    are listed. -/
theorem names_listed :
    (∀ (store store' : Store α) id tmpName created data parent pth comment fault img,
      store.create id tmpName created data parent pth comment fault = (.ok img, store') →
      store'.Listed img pth) ∧
    (∀ (store store' : Store α) image pth err img,
      store.copy image pth err = (.ok img, store') →
      (store'.Listed image pth ↔
        image ∈ store.images ∧ (clean pth = pth ∨ ⟨clean pth, image.id⟩ ∈ store.paths))) ∧
    (∀ (store store' : Store α) image pth errs,
      store.register image pth errs = (none, store') →
      (store'.Listed image pth ↔
        (image ∈ store.images ∨ store.rejectsImage image errs = false) ∧
        (clean pth = pth ∧ store.rejectsPath ⟨pth, image.id⟩ errs = false ∨
          ⟨clean pth, image.id⟩ ∈ store.paths))) ∧
    ∀ s, (nameSystem α).ReachableVia NamesClean s → ∀ name ∈ s.store.pathNames,
      s.store.list name ≠ [] ∧ ∀ limit, ∃ img, (name, img) ∈ s.store.cmdImages [] limit := by
  refine ⟨?_, ?_, ?_, ?_⟩
  · intro _ _ _ _ _ _ _ _ _ _ _ h
    exact create_listed h
  · intro _ _ _ _ _ _ h
    exact copy_listed h
  · intro _ _ _ _ _ h
    exact register_listed h
  · intro s h name hname
    exact (RowsNamed.of_reachable h).shown hname

/-- A store with one image, whose name is `base`. -/
def oneImage (created : Int) : Store Unit :=
  { Store.empty (str "/l") with
    images := [⟨str "id", [], [], created⟩]
    paths := [⟨str "base", str "id"⟩] }

/-- A copy with the name `a/b`. -/
theorem names_listed_copy :
    ((oneImage 0).copy ⟨str "id", [], [], 0⟩ (str "a/b") none).2.Listed ⟨str "id", [], [], 0⟩
      (str "a/b") := by
  have hcopy : (oneImage 0).copy ⟨str "id", [], [], 0⟩ (str "a/b") none =
      (.ok ⟨str "id", [], [], 0⟩, ((oneImage 0).copy ⟨str "id", [], [], 0⟩ (str "a/b") none).2) :=
    rfl
  exact (names_listed.2.1 _ _ _ _ _ _ hcopy).mpr ⟨by decide, .inl (by decide)⟩

/-- A copy with the name `a//b` is not found under it, and `CmdImages` does not show it. -/
theorem copy_unlisted :
    let image : Image := ⟨str "id", [], [], 0⟩
    let copied := (oneImage 0).copy image (str "a//b") none
    copied.1 = .ok image ∧ str "a//b" ∈ copied.2.pathNames ∧ copied.2.list (str "a//b") = [] ∧
      (∀ tie, copied.2.find (str "a//b") tie = none) ∧
      (∀ limit img, (str "a//b", img) ∉ copied.2.cmdImages [] limit) ∧
      ¬copied.2.Listed image (str "a//b") := by
  intro image copied
  have hname : str "a//b" ∈ copied.2.pathNames :=
    mem_pathNames.mpr ⟨⟨str "a//b", str "id"⟩, by decide, rfl⟩
  refine ⟨rfl, hname, rfl, fun _ => rfl, ?_, ?_⟩
  · intro limit img hmem
    exact absurd (list_of_mem_cmdImages hmem) List.not_mem_nil
  · intro h
    exact h.find 0 rfl

/-! ## The latest image -/

/-- The clock is not behind any image. -/
def InThePast (s : ClockedStore α) : Prop := ∀ img ∈ s.store.images, img.created ≤ s.unix

/-- Steps other than `Register`, which inserts images with times of its own. -/
def NotRegister : ClockedStore α → NameOp α → Prop
  | _, .register .. => False
  | _, _ => True

theorem InThePast.step {s s' : ClockedStore α} {op : NameOp α} (h : InThePast s)
    (hok : NotRegister s op) (hstep : s.step op = some s') : InThePast s' := by
  cases op with
  | tick nanoseconds =>
    cases hstep
    intro img himg
    have hle := h img himg
    show img.created ≤ ((s.now + nanoseconds) / 1000000000 : Nat)
    rw [ClockedStore.unix] at hle
    omega
  | create id tmpName data parent pth comment fault =>
    cases hstep
    rcases hcreate : s.store.create id tmpName s.unix data parent pth comment fault with
      ⟨res, store'⟩
    show ∀ img ∈ store'.images, img.created ≤ s.unix
    obtain ⟨himages, -⟩ | ⟨himages, -⟩ := create_tables hcreate
    · rw [himages]
      exact h
    · intro img himg
      rw [himages] at himg
      rcases List.mem_append.mp himg with himg | himg
      · exact h img himg
      · rw [List.mem_singleton] at himg
        rw [himg]
        exact Int.le_refl _
  | copy image pth err =>
    cases hstep
    show ∀ img ∈ (s.store.copy image pth err).2.images, img.created ≤ s.unix
    rw [(copy_frame s.store image pth err).1]
    exact h
  | register image pth errs => exact hok.elim

theorem InThePast.of_reachable {s : ClockedStore α}
    (h : (nameSystem α).ReachableVia NotRegister s) : InThePast s := by
  apply h.invariant
  · rintro _ ⟨root, now, rfl⟩ img himg
    exact absurd himg List.not_mem_nil
  · exact fun s op s' hs hok hstep => hs.step hok hstep

/-- The image that is created was not there. -/
theorem create_notMem {id tmpName pth comment : GoString} {created : Int} {data : α}
    {parent : Option Image} {fault : Option (CreateFault α)} {img : Image}
    (h : store.create id tmpName created data parent pth comment fault = (.ok img, store')) :
    img ∉ store.images := by
  obtain ⟨-, -, err, herr⟩ | ⟨-, -, hget, -, himg⟩ := create_tables h
  · simp at herr
  · obtain rfl := himg img rfl
    intro hmem
    have hne := List.find?_eq_none.mp hget _ hmem
    simp [newImage] at hne

/-- What a name refers to after a `Create`: what it referred to before, and the new image. -/
theorem mem_named_create {id tmpName pth comment : GoString} {created : Int} {data : α}
    {parent : Option Image} {fault : Option (CreateFault α)} {img other : Image}
    (h : store.create id tmpName created data parent pth comment fault = (.ok img, store')) :
    other ∈ store'.list pth ↔ other ∈ store.list pth ∨ other = img := by
  obtain ⟨-, -, err, herr⟩ | ⟨himages, hpaths, hget, hrow, himg⟩ := create_tables h
  · simp at herr
  obtain rfl := himg img rfl
  rw [list, list, mem_named, mem_named, himages, hpaths, List.mem_append, List.mem_singleton,
    List.mem_append, List.mem_singleton, PathRow.mk.injEq]
  constructor
  · rintro ⟨hother | rfl, hold | ⟨-, hid⟩⟩
    · exact .inl ⟨hother, hold⟩
    · -- the id was not taken
      have hne := List.find?_eq_none.mp hget other hother
      simp [hid] at hne
    · exact absurd hold hrow
    · exact .inr rfl
  · rintro (⟨hother, hold⟩ | rfl)
    · exact ⟨.inl hother, .inl hold⟩
    · exact ⟨.inr rfl, .inr ⟨rfl, rfl⟩⟩

/-- A list that is read at every position modulo its length gives nothing but `a`. -/
theorem getElem?_mod_eq_iff {images : List Image} (hne : images ≠ []) {img : Image} :
    (∀ tie, images[tie % images.length]? = some img) ↔ ∀ other ∈ images, other = img := by
  have hpos := List.length_pos_iff.mpr hne
  constructor
  · intro h other hother
    obtain ⟨i, hi, rfl⟩ := List.getElem_of_mem hother
    have hget := h i
    rw [Nat.mod_eq_of_lt hi, List.getElem?_eq_getElem hi] at hget
    exact Option.some.inj hget
  · intro h tie
    have hlt := Nat.mod_lt tie hpos
    rw [List.getElem?_eq_getElem hlt, h _ (List.getElem_mem hlt)]

/-- Right after a `Create` whose name is clean and no id, `Find` returns the new image if and only
    if no image that had the name was created in the same second. -/
theorem find_latest {s : ClockedStore α} (h : (nameSystem α).ReachableVia NotRegister s)
    {id tmpName pth comment : GoString} {data : α} {parent : Option Image}
    {fault : Option (CreateFault α)} {img : Image} {store' : Store α}
    (hcreate : s.store.create id tmpName s.unix data parent pth comment fault = (.ok img, store'))
    (hclean : clean pth = pth) (hid : store'.get pth = none) :
    (∀ tie, store'.find pth tie = some img) ↔ ∀ old ∈ s.store.list pth, old.created ≠ s.unix := by
  have hmem : ∀ other, other ∈ store'.named pth ↔ other ∈ s.store.list pth ∨ other = img := by
    intro other
    rw [← mem_named_create hcreate, list, hclean]
  have hpast : ∀ old ∈ s.store.list pth, old.created ≤ s.unix := fun old hold =>
    InThePast.of_reachable h old (mem_named.mp hold).1
  have hcreated : img.created = s.unix := by
    obtain ⟨-, -, err, herr⟩ | ⟨-, -, -, -, himg⟩ := create_tables hcreate
    · simp at herr
    · rw [himg img rfl]
      rfl
  -- no image is from the future, so the new one is among the newest
  have hnew : img ∈ newest (store'.named pth) := by
    apply mem_newest.mpr
    refine ⟨(hmem img).mpr (.inr rfl), fun other hother => ?_⟩
    rcases (hmem other).mp hother with hold | rfl
    · rw [hcreated]
      exact hpast other hold
    · exact Int.le_refl _
  have hfind : ∀ tie, store'.find pth tie =
      (newest (store'.named pth))[tie % (newest (store'.named pth)).length]? := by
    intro tie
    simp only [find, hclean, hid]
  simp only [hfind]
  rw [getElem?_mod_eq_iff (List.ne_nil_of_mem hnew)]
  constructor
  · -- an old image of this second is among the newest, and is not the new one
    intro hall old hold heq
    have holdNew : old ∈ newest (store'.named pth) := by
      apply mem_newest.mpr
      refine ⟨(hmem old).mpr (.inl hold), fun other hother => ?_⟩
      rw [heq, ← hcreated]
      exact (mem_newest.mp hnew).2 other hother
    obtain rfl := hall old holdNew
    exact create_notMem hcreate (mem_named.mp hold).1
  · intro hne other hother
    obtain ⟨hother, hmax⟩ := mem_newest.mp hother
    rcases (hmem other).mp hother with hold | rfl
    · -- the new image is newer
      have hle := hmax img ((hmem img).mpr (.inr rfl))
      have hlt := hne other hold
      have hge := hpast other hold
      omega
    · rfl

/-- `Create` of an image with the name `app`. -/
def createApp (id : GoString) : NameOp Unit := .create id (str "tmp") () none (str "app") [] none

/-- The store with the first one, created at the time 0. -/
def appStore : Store Unit where
  images := [⟨str "a", [], [], 0⟩]
  paths := [⟨str "app", str "a"⟩]
  mountpoints := []
  tags := []
  layers := ⟨str "/l", [(str "/l/a", ())]⟩

theorem appStore_reachable : (nameSystem Unit).ReachableVia NotRegister ⟨appStore, 0⟩ := by
  have hinit : (nameSystem Unit).ReachableVia NotRegister ⟨Store.empty (str "/l"), 0⟩ :=
    .init ⟨_, _, rfl⟩
  exact hinit.step (e := createApp (str "a")) trivial rfl

/-- The second image with the name `app` is created two seconds after the first. -/
theorem find_latest_later :
    ∃ store' : Store Unit,
      appStore.create (str "b") (str "tmp") 2 () none (str "app") [] none =
        (.ok ⟨str "b", [], [], 2⟩, store') ∧
      ∀ tie, store'.find (str "app") tie = some ⟨str "b", [], [], 2⟩ := by
  have hs : (nameSystem Unit).ReachableVia NotRegister ⟨appStore, 2000000000⟩ :=
    appStore_reachable.step (e := NameOp.tick 2000000000) trivial rfl
  obtain ⟨store', hcreate⟩ : ∃ store' : Store Unit,
      appStore.create (str "b") (str "tmp") 2 () none (str "app") [] none =
        (.ok ⟨str "b", [], [], 2⟩, store') := ⟨_, rfl⟩
  refine ⟨store', hcreate, (find_latest hs hcreate (by decide) ?_).mpr (by decide)⟩
  cases hcreate
  rfl

/-- Two images with the name `app` are created in the same second, and the database may take the
    first. -/
theorem find_stale :
    (nameSystem Unit).ReachableVia NotRegister ⟨appStore, 0⟩ ∧
    ∃ store' : Store Unit,
      appStore.create (str "b") (str "tmp") 0 () none (str "app") [] none =
        (.ok ⟨str "b", [], [], 0⟩, store') ∧
      store'.get (str "app") = none ∧
      store'.find (str "app") 0 = some ⟨str "a", [], [], 0⟩ :=
  ⟨appStore_reachable, _, rfl, rfl, rfl⟩

end Store

end Docker

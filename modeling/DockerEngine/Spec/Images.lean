import DockerEngine.Native.Images
import DockerEngine.Go.Sort
import DockerEngine.ForStd.List
import DockerEngine.Spec.Rows

/-!
# What `images` shows

The names come from the table of paths as they were written there, and each of them is cleaned
before it is looked up again.

- `images_shows`: what is in a listing, over all runs of a store; when it is the table of paths;
  and what `Find` returns for a name that it shows
-/

namespace Docker

open Go

variable {α : Type u}

namespace Store

variable {store : Store α}

/-! ## The images of one name -/

/-- Without a row that is there twice, an image is listed once. -/
theorem named_eq_filter (hpaths : store.paths.Nodup) (pth : GoString) :
    store.named pth = store.images.filter fun img => ⟨pth, img.id⟩ ∈ store.paths := by
  have hone : ∀ img : Image,
      (store.paths.filter fun row => row.path = pth ∧ row.image = img.id).map (fun _ => img) =
        if ⟨pth, img.id⟩ ∈ store.paths then [img] else [] := by
    intro img
    have hsame : (fun row : PathRow => decide (row.path = pth ∧ row.image = img.id)) =
        fun row => row == ⟨pth, img.id⟩ := by
      funext row
      rw [Bool.beq_eq_decide_eq, decide_eq_decide]
      exact ⟨fun ⟨hp, hi⟩ => by rw [← hp, ← hi], fun h => by rw [h]; exact ⟨rfl, rfl⟩⟩
    rw [hsame, List.filter_beq, hpaths.count, List.map_replicate]
    split <;> rfl
  rw [named, funext hone]
  induction store.images with
  | nil => rfl
  | cons img images ih =>
    rw [List.flatMap_cons, List.filter_cons, ih]
    split <;> simp_all

theorem pathNames_nodup (store : Store α) : store.pathNames.Nodup :=
  (List.mergeSort_perm _ _).nodup_iff.mpr (List.nodup_dedup _)

theorem pathNames_sorted (store : Store α) : store.pathNames.Pairwise (· ≤ ·) :=
  pairwise_le_mergeSort _

/-! ## A listing -/

/-- The rows of a name have the name. -/
theorem fst_of_shown {nameFilter name : GoString} {limit : Int} {row : GoString × Image}
    (h : row ∈ if nameFilter ≠ [] ∧ nameFilter ≠ name then []
      else (if 0 < limit then (store.list name).take limit.toNat else store.list name).map
        fun img => (name, img)) : row.1 = name := by
  split at h
  · cases h
  · obtain ⟨img, -, rfl⟩ := List.mem_map.mp h
    rfl

/-- What is shown of a name: the images that `List` has for it, or the first of them. -/
theorem filter_cmdImages {nameFilter name : GoString} (limit : Int)
    (hfilter : nameFilter = [] ∨ nameFilter = name) (hname : name ∈ store.pathNames) :
    (store.cmdImages nameFilter limit).filter (fun row => row.1 = name) =
      (if 0 < limit then (store.list name).take limit.toNat else store.list name).map
        fun img => (name, img) := by
  rw [cmdImages, List.filter_flatMap_key store.pathNames_nodup ?_ hname]
  · rw [if_neg]
    rintro ⟨hne, hother⟩
    exact hfilter.elim hne hother
  · exact fun other _ row hrow => fst_of_shown hrow

/-- What is in a listing. -/
theorem mem_cmdImages {nameFilter : GoString} {limit : Int} {row : GoString × Image} :
    row ∈ store.cmdImages nameFilter limit ↔
      row.1 ∈ store.pathNames ∧ (nameFilter = [] ∨ nameFilter = row.1) ∧
        row.2 ∈ (if 0 < limit then (store.list row.1).take limit.toNat
          else store.list row.1) := by
  constructor
  · intro hrow
    obtain ⟨name, hname, hmem⟩ := List.mem_flatMap.mp hrow
    split at hmem
    · cases hmem
    · next hfilter =>
      obtain ⟨img, himg, rfl⟩ := List.mem_map.mp hmem
      rw [not_and_or, not_not, not_not] at hfilter
      exact ⟨hname, hfilter, himg⟩
  · rintro ⟨hname, hfilter, himg⟩
    have hmem : row ∈ (store.cmdImages nameFilter limit).filter fun other => other.1 = row.1 := by
      rw [filter_cmdImages limit hfilter hname]
      exact List.mem_map.mpr ⟨row.2, himg, rfl⟩
    exact (List.mem_filter.mp hmem).1

/-- A listing is in the order of the names. -/
theorem cmdImages_sorted (nameFilter : GoString) (limit : Int) :
    (store.cmdImages nameFilter limit).Pairwise fun row other => row.1 ≤ other.1 := by
  rw [cmdImages, List.pairwise_flatMap]
  constructor
  · intro name _
    apply List.pairwise_of_forall_mem_list
    intro row hrow other hother
    rw [fst_of_shown hrow, fst_of_shown hother]
    exact List.le_refl name
  · refine store.pathNames_sorted.imp fun {name name'} hle row hrow other hother => ?_
    rw [fst_of_shown hrow, fst_of_shown hother]
    exact hle

/-- The row of the table of paths that a row of a listing stands for. -/
def shownPath (row : GoString × Image) : PathRow := ⟨row.1, row.2.id⟩

/-- No row is listed twice. -/
theorem cmdImages_nodup (hpaths : store.paths.Nodup)
    (hids : (store.images.map Image.id).Nodup) (nameFilter : GoString) (limit : Int) :
    ((store.cmdImages nameFilter limit).map shownPath).Nodup := by
  rw [cmdImages, List.map_flatMap, List.nodup_flatMap]
  constructor
  · intro name _
    split
    · exact List.nodup_nil
    · have hlist : ((store.list name).map Image.id).Nodup := by
        rw [list, named_eq_filter hpaths]
        exact hids.sublist (List.filter_sublist.map _)
      have hshown : ((if 0 < limit then (store.list name).take limit.toNat
          else store.list name).map Image.id).Nodup := by
        split
        · exact hlist.sublist ((List.take_sublist _ _).map _)
        · exact hlist
      have hrows := hshown.map (f := fun id => PathRow.mk name id) fun _ _ h => by cases h; rfl
      rw [List.map_map] at hrows ⊢
      exact hrows
  · refine store.pathNames_nodup.imp fun {name name'} hne => ?_
    intro path hpath hpath'
    obtain ⟨row, hrow, rfl⟩ := List.mem_map.mp hpath
    obtain ⟨other, hother, heq⟩ := List.mem_map.mp hpath'
    have hsame : other.1 = row.1 := congrArg PathRow.path heq
    rw [fst_of_shown hrow, fst_of_shown hother] at hsame
    exact hne hsame.symm

/-- The rows that are listed without a limit, when every row of the table of paths has its
    image. -/
theorem mem_shownPaths (hclosed : ∀ row ∈ store.paths, (store.get row.image).isSome)
    {name id : GoString} :
    ⟨name, id⟩ ∈ (store.cmdImages [] 0).map shownPath ↔
      name ∈ store.pathNames ∧ ⟨clean name, id⟩ ∈ store.paths := by
  rw [List.mem_map]
  constructor
  · rintro ⟨row, hrow, heq⟩
    cases heq
    obtain ⟨hname, -, himg⟩ := mem_cmdImages.mp hrow
    exact ⟨hname, (mem_named.mp himg).2⟩
  · rintro ⟨hname, hpath⟩
    obtain ⟨img, himg, rfl⟩ := exists_of_get (hclosed _ hpath)
    exact ⟨(name, img), mem_cmdImages.mpr ⟨hname, .inl rfl, mem_named.mpr ⟨himg, hpath⟩⟩, rfl⟩

/-- The listing is the table of paths if and only if every name has the images that its clean
    form has. -/
theorem shownPaths_perm_iff (h : store.Closed) :
    ((store.cmdImages [] 0).map shownPath).Perm store.paths ↔
      ∀ name ∈ store.pathNames, ∀ id,
        ⟨name, id⟩ ∈ store.paths ↔ ⟨clean name, id⟩ ∈ store.paths := by
  rw [List.perm_ext_iff_of_nodup (cmdImages_nodup h.pathKeys h.images.distinct [] 0) h.pathKeys]
  constructor
  · intro hsame name hname id
    rw [← hsame, mem_shownPaths h.paths]
    exact and_iff_right hname
  · rintro hnames ⟨name, id⟩
    rw [mem_shownPaths h.paths]
    constructor
    · rintro ⟨hname, hpath⟩
      exact (hnames name hname id).mpr hpath
    · intro hpath
      have hname := mem_pathNames.mpr ⟨⟨name, id⟩, hpath, rfl⟩
      exact ⟨hname, (hnames name hname id).mp hpath⟩

/-- For a name that is listed, `Find` returns the image with this id, or one that is listed under
    the name and is as new as any other. -/
theorem find_of_shown {nameFilter : GoString} {limit : Int} {row : GoString × Image}
    (hrow : row ∈ store.cmdImages nameFilter limit) (tie : Nat) :
    ∃ img, store.find row.1 tie = some img ∧
      (img.id = clean row.1 ∨
        ((row.1, img) ∈ store.cmdImages [] 0 ∧ row.2.created ≤ img.created)) := by
  have hlist := list_of_mem_cmdImages hrow
  have hne : store.find row.1 tie ≠ none := find_ne_none (List.ne_nil_of_mem hlist)
  obtain ⟨img, hfind⟩ := Option.ne_none_iff_exists'.mp hne
  refine ⟨img, hfind, ?_⟩
  unfold find at hfind
  simp only at hfind
  split at hfind
  · next other hget =>
    cases hfind
    exact .inl (lookupRow_eq_some hget).2
  · obtain ⟨hnamed, hnewest⟩ := mem_newest.mp (List.mem_of_getElem? hfind)
    exact .inr ⟨mem_cmdImages.mpr ⟨(mem_cmdImages.mp hrow).1, .inl rfl, hnamed⟩,
      hnewest row.2 hlist⟩

end Store

/-- Whatever the flags, `images` shows the names in their order, each with images whose rows in
    the table of paths have its clean form, none twice: all of them, or with `-l` as many as the
    limit allows. For a name that it shows, `Find` returns the image that has this id, or one
    that is shown without flags and is as new as any other of this name. Without flags it shows
    the table of paths if and only if every name has the images of its clean form. -/
theorem images_shows {s : TableRun α} (h : (tableSystem α).ReachableVia TableRun.Sound s)
    (view : ImagesView) :
    (∀ args cmd, imagesFlags.parse args = .ok cmd → cmd.args.length ≤ 1 →
      ∃ shown : List (GoString × Image),
        cmdImages view s.store args = .ok (some
          (if cmd.boolValue (str "q") false then shown.flatMap fun row => row.2.id ++ [newline]
          else view.tabwriter (Restore.table (imagesHeader :: shown.map (imagesFields view))))) ∧
        shown.Pairwise (fun row other => row.1 ≤ other.1) ∧
        (shown.map Store.shownPath).Nodup ∧
        (∀ row ∈ shown, (cmd.arg 0 = [] ∨ cmd.arg 0 = row.1) ∧ row.2 ∈ s.store.images ∧
          ⟨clean row.1, row.2.id⟩ ∈ s.store.paths) ∧
        (∀ name ∈ s.store.pathNames, (cmd.arg 0 = [] ∨ cmd.arg 0 = name) →
          (shown.filter fun row => row.1 = name).length =
            if 0 < cmd.intValue (str "l") 0 then
              min (cmd.intValue (str "l") 0).toNat (s.store.list name).length
            else (s.store.list name).length) ∧
        ∀ row ∈ shown, ∀ tie, ∃ img, s.store.find row.1 tie = some img ∧
          (img.id = clean row.1 ∨
            ((row.1, img) ∈ s.store.cmdImages [] 0 ∧ row.2.created ≤ img.created))) ∧
    (((s.store.cmdImages [] 0).map Store.shownPath).Perm s.store.paths ↔
      ∀ name ∈ s.store.pathNames, ∀ id,
        ⟨name, id⟩ ∈ s.store.paths ↔ ⟨clean name, id⟩ ∈ s.store.paths) := by
  have hclosed := (tables_closed h).store
  refine ⟨fun args cmd hcmd hargs => ?_, Store.shownPaths_perm_iff hclosed⟩
  have hfilter : (if cmd.args.length = 1 then cmd.arg 0 else []) = cmd.arg 0 := by
    split
    · rfl
    · next hne =>
      have hnil : cmd.args = [] := List.length_eq_zero_iff.mp (by omega)
      rw [Parsed.arg, hnil]
      rfl
  refine ⟨s.store.cmdImages (cmd.arg 0) (cmd.intValue (str "l") 0), ?_,
    Store.cmdImages_sorted _ _,
    Store.cmdImages_nodup hclosed.pathKeys hclosed.images.distinct _ _, ?_, ?_, ?_⟩
  · unfold cmdImages
    rw [hcmd]
    simp only [if_neg (Nat.not_lt.mpr hargs), hfilter]
  · intro row hrow
    exact ⟨(Store.mem_cmdImages.mp hrow).2.1,
      Store.mem_named.mp (Store.list_of_mem_cmdImages hrow)⟩
  · intro name hname hshown
    rw [Store.filter_cmdImages _ hshown hname, List.length_map]
    split
    · exact List.length_take
    · rfl
  · exact fun row hrow tie => Store.find_of_shown hrow tie

def plainImagesView : ImagesView := ⟨0, fun _ => [], fun text => text⟩

/-- Of two images with the name `app` the listing is limited to one. -/
theorem images_shows_limited :
    ∃ s, (tableSystem Unit).runVia TableRun.Sound ⟨Store.empty (str "/l"), []⟩ registeredRun =
      some s ∧
      ((s.store.cmdImages [] 0).map Store.shownPath).Perm s.store.paths ∧
      ∃ shown : List (GoString × Image),
        cmdImages plainImagesView s.store [str "-q", str "-l", str "1", str "app"] =
          .ok (some (shown.flatMap fun row => row.2.id ++ [newline])) ∧
        (shown.filter fun row => row.1 = str "app").length = 1 := by
  obtain ⟨s, hrun, hclean, hname, htwo⟩ : ∃ s, (tableSystem Unit).runVia TableRun.Sound
      ⟨Store.empty (str "/l"), []⟩ registeredRun = some s ∧
      (∀ row ∈ s.store.paths, clean row.path = row.path) ∧
      (∃ row ∈ s.store.paths, row.path = str "app") ∧ (s.store.list (str "app")).length = 2 :=
    ⟨_, rfl, by decide, by decide, by decide⟩
  have hinit : (tableSystem Unit).ReachableVia TableRun.Sound ⟨Store.empty (str "/l"), []⟩ :=
    .init ⟨str "/l", rfl⟩
  obtain ⟨hshown, hperm⟩ := images_shows (hinit.runVia registeredRun hrun) plainImagesView
  refine ⟨s, hrun, hperm.mpr fun name hname id => ?_, ?_⟩
  · obtain ⟨row, hrow, rfl⟩ := Store.mem_pathNames.mp hname
    rw [hclean row hrow]
  · obtain ⟨shown, htext, -, -, -, hcount, -⟩ :=
      hshown [str "-q", str "-l", str "1", str "app"] _ rfl (by decide)
    refine ⟨shown, htext, ?_⟩
    rw [hcount (str "app") (Store.mem_pathNames.mpr hname) (.inr rfl), htwo]
    rfl

end Docker

import DockerEngine.Native.Seeding
import DockerEngine.ForStd.List

/-!
# A seed is inserted once, or in part for ever

Every server that finds the collection empty inserts the whole file, and the database refuses a
document whose `_id` is taken. So of the servers that race one gets its first document in, and the
others fail at theirs. If that one's command ends early, the documents that it has inserted keep
every later server from inserting the rest.

- `intercalate_splitDetails`, `splitDetails_notMem`: the paragraphs of the details
- `Database.Inv`: the collection is what one server has inserted so far
- `Database.Frozen`: nobody can insert any more
- `seeded_once`: what the collection is in all runs from an empty database, and when it can still
  become the whole file
-/

namespace Seeding

open Js

/-! ## Paragraphs -/

theorem splitDetails_ne_nil (text : JsString) : splitDetails text ≠ [] := by
  fun_cases splitDetails text <;> simp_all

/-- The paragraphs, with the separator put back between them, are the text. -/
theorem intercalate_splitDetails (text : JsString) :
    [10, 10].intercalate (splitDetails text) = text := by
  fun_induction splitDetails text with
  | case1 => rfl
  | case2 c => rfl
  | case3 c c' text h ih =>
    obtain ⟨rfl, rfl⟩ := h
    obtain ⟨part, parts, hparts⟩ := List.exists_cons_of_ne_nil (splitDetails_ne_nil text)
    rw [hparts] at ih ⊢
    simp only [List.intercalate_cons_cons, List.nil_append, ih, List.cons_append]
  | case4 c c' text h hnil => exact absurd hnil (splitDetails_ne_nil _)
  | case5 c c' text h part parts hparts ih =>
    rw [hparts] at ih
    cases parts with
    | nil =>
      simp only [List.intercalate_singleton] at ih ⊢
      rw [ih]
    | cons next parts =>
      simp only [List.intercalate_cons_cons, List.cons_append] at ih ⊢
      rw [ih]

/-- The first paragraph begins the text. -/
theorem prefix_of_splitDetails {text part : JsString} {parts : List JsString}
    (h : splitDetails text = part :: parts) : part <+: text := by
  have htext := intercalate_splitDetails text
  rw [h] at htext
  cases parts with
  | nil =>
    rw [List.intercalate_singleton] at htext
    exact htext ▸ List.prefix_rfl
  | cons next parts =>
    rw [List.intercalate_cons_cons] at htext
    exact ⟨_, by rw [← htext, List.append_assoc]⟩

/-- No paragraph has the separator in it. -/
theorem splitDetails_notMem (text : JsString) :
    ∀ part ∈ splitDetails text, ¬[10, 10] <:+: part := by
  fun_induction splitDetails text with
  | case1 => simp
  | case2 c =>
    intro part hpart hinfix
    rw [List.mem_singleton.mp hpart] at hinfix
    have hlength := hinfix.length_le
    simp at hlength
  | case3 c c' text h ih =>
    intro part hpart
    rcases List.mem_cons.mp hpart with rfl | hpart
    · simp
    · exact ih part hpart
  | case4 c c' text h hnil => exact absurd hnil (splitDetails_ne_nil _)
  | case5 c c' text h part parts hparts ih =>
    rw [hparts] at ih
    intro q hq hinfix
    rcases List.mem_cons.mp hq with rfl | hq
    · rcases List.infix_cons_iff.mp hinfix with hprefix | hinfix
      -- it would begin at the first unit, and the text is cut there
      · obtain ⟨hc, htail⟩ := List.cons_prefix_cons.mp hprefix
        have htext := htail.trans (prefix_of_splitDetails hparts)
        exact h ⟨hc.symm, (List.cons_prefix_cons.mp htext).1.symm⟩
      · exact ih part List.mem_cons_self hinfix
    · exact ih q (List.mem_cons_of_mem _ hq) hinfix

/-! ## The documents of the file -/

theorem SeedFile.ids_models (file : SeedFile) :
    file.timelineItemModels.map TimelineItem.id = List.range' 1 64 := by
  rw [timelineItemModels, List.map_map, ← file.ids]
  rfl

theorem SeedFile.length_models (file : SeedFile) : file.timelineItemModels.length = 64 := by
  rw [← List.length_map (f := TimelineItem.id), file.ids_models, List.length_range']

theorem SeedFile.models_ne_nil (file : SeedFile) : file.timelineItemModels ≠ [] := by
  intro hnil
  have hlength := file.length_models
  rw [hnil] at hlength
  simp at hlength

/-- The number of a document is not among those of the documents before it. -/
theorem SeedFile.id_notMem (file : SeedFile) {before after : List TimelineItem}
    {item : TimelineItem} (h : before ++ item :: after = file.timelineItemModels) :
    item.id ∉ before.map TimelineItem.id := by
  have hnodup : (file.timelineItemModels.map TimelineItem.id).Nodup := by
    rw [file.ids_models]
    exact List.nodup_range'
  rw [← h, List.map_append, List.map_cons] at hnodup
  intro hmem
  exact (List.nodup_append.mp hnodup).2.2 _ hmem _ List.mem_cons_self rfl

namespace Database

variable {file : SeedFile} {s s' : Database} {op : Op}

/-! ## What a step does -/

/-- What a step does. -/
inductive Moves (file : SeedFile) (s : Database) : Op → Database → Prop
  | start : Moves file s .start { s with servers := s.servers ++ [.connecting] }
  /-- an operation of `initialize` ends with an error, or the port is taken -/
  | failed {op : Op} {k : Nat} {stage : Stage} {err : String}
    (hk : s.servers[k]? = some stage) :
    Moves file s op (s.goto k (.failed err))
  | connect {k : Nat} (hk : s.servers[k]? = some .connecting) :
    Moves file s (.connect k none) (s.goto k .counting)
  | countNone {k : Nat} (hk : s.servers[k]? = some .counting) (hnil : s.collection = []) :
    Moves file s (.count k none) (s.goto k (.inserting file.timelineItemModels))
  | countSome {k : Nat} (hk : s.servers[k]? = some .counting) (hne : s.collection ≠ []) :
    Moves file s (.count k none) (s.goto k .initialized)
  | done {k : Nat} (hk : s.servers[k]? = some (.inserting [])) :
    Moves file s (.insert k) (s.goto k .initialized)
  | insert {k : Nat} {item : TimelineItem} {rest : List TimelineItem}
    (hk : s.servers[k]? = some (.inserting (item :: rest)))
    (hid : item.id ∉ s.collection.map TimelineItem.id) :
    Moves file s (.insert k)
      { s.goto k (.inserting rest) with collection := s.collection ++ [item] }
  | listen {k : Nat} (hk : s.servers[k]? = some .initialized) :
    Moves file s (.listen k none) (s.goto k .listening)

theorem step_cases (h : s.step file op = some s') : Moves file s op s' := by
  cases op with
  | start =>
    cases h
    exact .start
  | connect k err =>
    simp only [step] at h
    split at h
    · next hk =>
      cases err with
      | some err =>
        cases h
        exact .failed hk
      | none =>
        cases h
        exact .connect hk
    · cases h
  | count k err =>
    simp only [step] at h
    split at h
    · next hk =>
      cases err with
      | some err =>
        cases h
        exact .failed hk
      | none =>
        simp only at h
        split at h
        · next hlength =>
          cases h
          exact .countNone hk (List.length_eq_zero_iff.mp hlength)
        · next hlength =>
          cases h
          exact .countSome hk fun hnil => hlength (List.length_eq_zero_iff.mpr hnil)
    · cases h
  | insert k =>
    simp only [step] at h
    split at h
    · next hk =>
      cases h
      exact .done hk
    · next item rest hk =>
      split at h
      · cases h
        exact .failed hk
      · next hid =>
        cases h
        exact .insert hk hid
    · cases h
  | insertError k err =>
    simp only [step] at h
    split at h
    · next hk =>
      cases h
      exact .failed hk
    · cases h
  | listen k err =>
    simp only [step] at h
    split at h
    · next hk =>
      cases err with
      | some err =>
        cases h
        exact .failed hk
      | none =>
        cases h
        exact .listen hk
    · cases h

/-! ## The collection is what one server has inserted -/

/-- Some of the documents have been inserted, and not all are still to be. -/
def midway (file : SeedFile) : Stage → Bool
  | .inserting rest => rest.length < file.timelineItemModels.length
  | _ => false

/-- What a stage says of the collection. -/
def Fits (file : SeedFile) (collection : List TimelineItem) : Stage → Prop
  | .inserting rest =>
    rest = file.timelineItemModels ∨
      (collection ≠ [] ∧ collection ++ rest = file.timelineItemModels)
  | .initialized | .listening => collection ≠ []
  | .connecting | .counting | .failed _ => True

/-- Of the servers that insert, one at most has begun. -/
structure Inv (file : SeedFile) (s : Database) : Prop where
  written : s.collection <+: file.timelineItemModels
  fits : ∀ stage ∈ s.servers, Fits file s.collection stage
  single : s.servers.countP (midway file) ≤ 1

/-- A server goes on to a stage in which it is not midway. -/
theorem Inv.goto (hs : Inv file s) {k : Nat} {stage stage' : Stage}
    (hk : s.servers[k]? = some stage) (hfits : Fits file s.collection stage')
    (hmidway : midway file stage' = false) : Inv file (s.goto k stage') where
  written := hs.written
  fits := by
    intro q hq
    rcases List.mem_or_eq_of_mem_set hq with hq | rfl
    · exact hs.fits q hq
    · exact hfits
  single := by
    have hcount := List.countP_set_add (p := midway file) (b := stage') hk
    have hle := hs.single
    rw [hmidway] at hcount
    simp only [Bool.false_eq_true, if_false] at hcount
    simp only [Database.goto]
    omega

theorem midway_models (file : SeedFile) :
    midway file (.inserting file.timelineItemModels) = false :=
  decide_eq_false (Nat.lt_irrefl _)

/-- A server that has inserted something is midway. -/
theorem midway_of_append {collection rest : List TimelineItem} (hne : collection ≠ [])
    (h : collection ++ rest = file.timelineItemModels) : midway file (.inserting rest) = true := by
  have hlength := congrArg List.length h
  have hpos := List.length_pos_iff.mpr hne
  rw [List.length_append] at hlength
  exact decide_eq_true (by omega)

/-- A server that is not midway may insert all documents, if it inserts. -/
theorem fits_of_not_midway {collection collection' : List TimelineItem} {stage : Stage}
    (h : Fits file collection stage) (hmidway : midway file stage = false)
    (hne : collection' ≠ []) : Fits file collection' stage := by
  cases stage with
  | inserting rest =>
    rcases h with hall | ⟨hne, happend⟩
    · exact .inl hall
    · rw [midway_of_append hne happend] at hmidway
      cases hmidway
  | initialized => exact hne
  | listening => exact hne
  | connecting => trivial
  | counting => trivial
  | failed err => trivial

/-- A document that the database takes is the one that follows those it has. -/
theorem Inv.insert_next (hs : Inv file s) {k : Nat} {item : TimelineItem}
    {rest : List TimelineItem} (hk : s.servers[k]? = some (.inserting (item :: rest)))
    (hid : item.id ∉ s.collection.map TimelineItem.id) :
    s.collection ++ item :: rest = file.timelineItemModels := by
  rcases hs.fits _ (List.mem_of_getElem? hk) with hall | ⟨-, happend⟩
  · -- the first document is refused, once it is there
    cases hcoll : s.collection with
    | nil => exact hall
    | cons first more =>
      have hprefix := hs.written
      rw [hcoll, ← hall] at hprefix
      rw [hcoll, (List.cons_prefix_cons.mp hprefix).1] at hid
      exact absurd List.mem_cons_self hid
  · exact happend

/-- Nobody is midway as long as the collection is empty. -/
theorem Inv.not_midway (hs : Inv file s) (hnil : s.collection = []) :
    ∀ stage ∈ s.servers, midway file stage = false := by
  intro stage hstage
  have hfits := hs.fits stage hstage
  rw [hnil] at hfits
  cases stage with
  | inserting rest =>
    rcases hfits with rfl | ⟨hne, -⟩
    · exact midway_models file
    · exact absurd rfl hne
  | initialized => rfl
  | listening => rfl
  | connecting => rfl
  | counting => rfl
  | failed err => rfl

theorem Inv.insert (hs : Inv file s) {k : Nat} {item : TimelineItem} {rest : List TimelineItem}
    (hk : s.servers[k]? = some (.inserting (item :: rest)))
    (hid : item.id ∉ s.collection.map TimelineItem.id) :
    Inv file { s.goto k (.inserting rest) with collection := s.collection ++ [item] } := by
  have hnext := hs.insert_next hk hid
  have hne : s.collection ++ [item] ≠ [] := List.append_ne_nil_of_right_ne_nil _ (by simp)
  have happend : (s.collection ++ [item]) ++ rest = file.timelineItemModels := by
    rw [List.append_assoc, List.singleton_append, hnext]
  have hcount := List.countP_set_add (p := midway file) (b := .inserting rest) hk
  rw [midway_of_append hne happend, if_pos rfl] at hcount
  -- this server is the one that was midway, or nobody had begun
  have hothers : (∀ stage ∈ s.servers.set k (.inserting rest),
      stage = .inserting rest ∨ midway file stage = false) ∧
      (s.servers.set k (.inserting rest)).countP (midway file) ≤ 1 := by
    by_cases hnil : s.collection = []
    · have hnone := hs.not_midway hnil
      have hzero : s.servers.countP (midway file) = 0 :=
        List.countP_eq_zero.mpr fun stage hstage => Bool.eq_false_iff.mp (hnone stage hstage)
      refine ⟨fun stage hstage => ?_, by omega⟩
      exact (List.mem_or_eq_of_mem_set hstage).symm.imp_right (hnone stage)
    · have hbegun := midway_of_append hnil hnext
      rw [hbegun, if_pos rfl] at hcount
      have hle := hs.single
      exact ⟨fun stage => List.eq_or_not_of_mem_set hs.single hk hbegun, by omega⟩
  constructor
  · exact ⟨rest, happend⟩
  · intro stage hstage
    rcases hothers.1 stage hstage with rfl | hnot
    · exact .inr ⟨hne, happend⟩
    · rcases List.mem_or_eq_of_mem_set hstage with hold | rfl
      · exact fits_of_not_midway (hs.fits stage hold) hnot hne
      · exact .inr ⟨hne, happend⟩
  · exact hothers.2

theorem Inv.step (hs : Inv file s) (h : s.step file op = some s') : Inv file s' := by
  cases step_cases h with
  | start =>
    refine ⟨hs.written, fun stage hstage => ?_, ?_⟩
    · rcases List.mem_append.mp hstage with hold | hnew
      · exact hs.fits stage hold
      · rw [List.mem_singleton.mp hnew]
        trivial
    · rw [List.countP_append]
      exact hs.single
  | failed hk => exact hs.goto hk trivial rfl
  | connect hk => exact hs.goto hk trivial rfl
  | countNone hk hnil => exact hs.goto hk (.inl rfl) (midway_models file)
  | countSome hk hne => exact hs.goto hk hne rfl
  | done hk =>
    refine hs.goto hk ?_ rfl
    rcases hs.fits _ (List.mem_of_getElem? hk) with hall | ⟨hne, -⟩
    · exact absurd hall.symm file.models_ne_nil
    · exact hne
  | insert hk hid => exact hs.insert hk hid
  | listen hk =>
    have hne : s.collection ≠ [] := hs.fits _ (List.mem_of_getElem? hk)
    exact hs.goto hk hne rfl

/-- The invariant holds in all runs. -/
theorem inv_of_reachable (h : (seedSystem file).Reachable s) : Inv file s := by
  refine h.invariant ?_ ?_
  · rintro s rfl
    exact ⟨List.nil_prefix, fun stage hstage => absurd hstage List.not_mem_nil, Nat.zero_le 1⟩
  · intro s op s' hs _ hstep
    exact hs.step hstep

/-! ## Whether the rest can still be inserted -/

/-- The collection is not empty, and nobody is midway. -/
structure Frozen (file : SeedFile) (s : Database) : Prop extends Inv file s where
  nonempty : s.collection ≠ []
  idle : ∀ stage ∈ s.servers, midway file stage = false

/-- In a frozen state a document is refused: its server has all documents before it. -/
theorem Frozen.refused (hs : Frozen file s) {k : Nat} {item : TimelineItem}
    {rest : List TimelineItem} (hk : s.servers[k]? = some (.inserting (item :: rest))) :
    item.id ∈ s.collection.map TimelineItem.id := by
  by_contra hid
  have hbegun := midway_of_append hs.nonempty (hs.insert_next hk hid)
  rw [hs.idle _ (List.mem_of_getElem? hk)] at hbegun
  cases hbegun

theorem Frozen.goto (hs : Frozen file s) {k : Nat} {stage stage' : Stage}
    (hk : s.servers[k]? = some stage) (hfits : Fits file s.collection stage')
    (hmidway : midway file stage' = false) : Frozen file (s.goto k stage') where
  toInv := hs.toInv.goto hk hfits hmidway
  nonempty := hs.nonempty
  idle := by
    intro q hq
    rcases List.mem_or_eq_of_mem_set hq with hq | rfl
    · exact hs.idle q hq
    · exact hmidway

/-- A step in a frozen state leaves the collection as it is. -/
theorem Frozen.step (hs : Frozen file s) (h : s.step file op = some s') :
    Frozen file s' ∧ s'.collection = s.collection := by
  cases step_cases h with
  | start =>
    refine ⟨⟨hs.toInv.step h, hs.nonempty, fun stage hstage => ?_⟩, rfl⟩
    rcases List.mem_append.mp hstage with hold | hnew
    · exact hs.idle stage hold
    · rw [List.mem_singleton.mp hnew]
      rfl
  | failed hk => exact ⟨hs.goto hk trivial rfl, rfl⟩
  | connect hk => exact ⟨hs.goto hk trivial rfl, rfl⟩
  | countNone hk hnil => exact absurd hnil hs.nonempty
  | countSome hk hne => exact ⟨hs.goto hk hne rfl, rfl⟩
  | done hk => exact ⟨hs.goto hk hs.nonempty rfl, rfl⟩
  | insert hk hid => exact absurd (hs.refused hk) hid
  | listen hk => exact ⟨hs.goto hk hs.nonempty rfl, rfl⟩

theorem Frozen.run (hs : Frozen file s) {ops : List Op}
    (h : (seedSystem file).run s ops = some s') : s'.collection = s.collection := by
  have hrun := (seedSystem file).run_invariant
    (P := fun t => Frozen file t ∧ t.collection = s.collection)
    (fun t op t' ht hstep => by
      obtain ⟨hfrozen, hsame⟩ := ht.1.step hstep
      exact ⟨hfrozen, hsame.trans ht.2⟩) ⟨hs, rfl⟩ h
  exact hrun.2

/-- A server that is not disturbed inserts what is left. -/
theorem run_inserting {k : Nat} {rest : List TimelineItem}
    (hk : s.servers[k]? = some (.inserting rest))
    (hnext : s.collection ++ rest = file.timelineItemModels) :
    ∃ ops s', (seedSystem file).run s ops = some s' ∧
      s'.collection = file.timelineItemModels := by
  induction rest generalizing s with
  | nil => exact ⟨[], s, rfl, by rw [← hnext, List.append_nil]⟩
  | cons item rest ih =>
    have hlt := (List.getElem?_eq_some_iff.mp hk).1
    let s₁ : Database := { s.goto k (.inserting rest) with collection := s.collection ++ [item] }
    have hstep : (seedSystem file).step s (.insert k) = some s₁ := by
      simp only [seedSystem, Database.step, hk, if_neg (file.id_notMem hnext)]
      rfl
    have hk₁ : s₁.servers[k]? = some (.inserting rest) := List.getElem?_set_self hlt
    obtain ⟨ops, s', hrun, hall⟩ := ih hk₁ (by simp [s₁, hnext])
    exact ⟨.insert k :: ops, s', by rw [System.run_cons, hstep]; exact hrun, hall⟩

/-- A server that starts on an empty collection can insert the file. -/
theorem run_empty (hnil : s.collection = []) :
    ∃ ops s', (seedSystem file).run s ops = some s' ∧
      s'.collection = file.timelineItemModels := by
  let k := s.servers.length
  let s₁ : Database := { s with servers := s.servers ++ [.inserting file.timelineItemModels] }
  have hrun : (seedSystem file).run s [.start, .connect k none, .count k none] = some s₁ := by
    simp [seedSystem, Database.step, Database.goto, k, s₁, hnil]
  have hk₁ : s₁.servers[k]? = some (.inserting file.timelineItemModels) := by simp [s₁, k]
  have hnext : s₁.collection ++ file.timelineItemModels = file.timelineItemModels := by
    simp [s₁, hnil]
  obtain ⟨ops, s', hrun', hall⟩ := run_inserting hk₁ hnext
  exact ⟨_ ++ ops, s', by rw [System.run_append, hrun]; exact hrun', hall⟩

/-- What a server that is midway has inserted is the collection. -/
theorem Inv.append_of_midway (hs : Inv file s) {stage : Stage} (hmem : stage ∈ s.servers)
    (hmidway : midway file stage = true) :
    ∃ rest, stage = .inserting rest ∧ s.collection ++ rest = file.timelineItemModels := by
  have hfits := hs.fits stage hmem
  cases stage with
  | inserting rest =>
    rcases hfits with rfl | ⟨-, happend⟩
    · rw [midway_models] at hmidway
      cases hmidway
    · exact ⟨rest, rfl, happend⟩
  | initialized => cases hmidway
  | listening => cases hmidway
  | connecting => cases hmidway
  | counting => cases hmidway
  | failed err => cases hmidway

/-- The rest can be inserted if nothing has been, nothing is left, or a server is midway. -/
theorem Inv.can_complete_iff (hs : Inv file s) :
    (∃ ops s', (seedSystem file).run s ops = some s' ∧
      s'.collection = file.timelineItemModels) ↔
    s.collection = [] ∨ s.collection = file.timelineItemModels ∨
      ∃ stage ∈ s.servers, midway file stage = true := by
  constructor
  · rintro ⟨ops, s', hrun, hall⟩
    by_contra hno
    simp only [not_or, not_exists, not_and, Bool.not_eq_true] at hno
    have hfrozen : Frozen file s := ⟨hs, hno.1, hno.2.2⟩
    exact hno.2.1 ((hfrozen.run hrun).symm.trans hall)
  · rintro (hnil | hall | ⟨stage, hmem, hmidway⟩)
    · exact run_empty hnil
    · exact ⟨[], s, rfl, hall⟩
    · obtain ⟨rest, rfl, happend⟩ := hs.append_of_midway hmem hmidway
      obtain ⟨k, hk⟩ := List.getElem?_of_mem hmem
      exact run_inserting hk happend

end Database

/-- In all runs from an empty database, with any number of servers that start at any time: the
    collection is a part of the file from its beginning, each item with the paragraphs of its
    details; a server that listens has a collection that is not empty; one whose command is
    through has inserted the whole file. The file can still be inserted whole if and only if the
    collection is empty or whole or a server is midway; otherwise the collection never changes. -/
theorem seeded_once {file : SeedFile} {s : Database} (h : (seedSystem file).Reachable s) :
    s.collection <+: file.timelineItemModels ∧
    (∀ item ∈ s.collection, ∃ i ∈ file.items, item.id = i.id ∧
      [10, 10].intercalate item.details = i.details ∧
      ∀ part ∈ item.details, ¬[10, 10] <:+: part) ∧
    (.listening ∈ s.servers → s.collection ≠ []) ∧
    (.inserting [] ∈ s.servers → s.collection = file.timelineItemModels) ∧
    ((∃ ops s', (seedSystem file).run s ops = some s' ∧
        s'.collection = file.timelineItemModels) ↔
      s.collection = [] ∨ s.collection = file.timelineItemModels ∨
        ∃ stage ∈ s.servers, Database.midway file stage = true) ∧
    (s.collection ≠ [] → (∀ stage ∈ s.servers, Database.midway file stage = false) →
      ∀ ops s', (seedSystem file).run s ops = some s' → s'.collection = s.collection) := by
  have hs := Database.inv_of_reachable h
  refine ⟨hs.written, fun item hitem => ?_, hs.fits .listening, fun hdone => ?_,
    hs.can_complete_iff, fun hne hidle ops s' hrun => ?_⟩
  · obtain ⟨i, hi, rfl⟩ := List.mem_map.mp (hs.written.subset hitem)
    exact ⟨i, hi, rfl, intercalate_splitDetails i.details, splitDetails_notMem i.details⟩
  · rcases hs.fits _ hdone with hall | ⟨-, happend⟩
    · exact absurd hall.symm file.models_ne_nil
    · rw [← happend, List.append_nil]
  · have hfrozen : Database.Frozen file s := ⟨hs, hne, hidle⟩
    exact hfrozen.run hrun

/-- A file of 64 items of two paragraphs. -/
def twoParagraphs : SeedFile where
  items := (List.range' 1 64).map fun id => ⟨id, js "a\n\nb"⟩
  ids := by rw [List.map_map]; exact List.map_id _

/-- Two servers find the collection empty. One gets a document in, then its command ends; the
    other fails. A third one listens. -/
def raced : List Op :=
  [.start, .start, .connect 0 none, .connect 1 none, .count 0 none, .count 1 none, .insert 0,
    .insert 1, .insertError 0 "not master", .start, .connect 2 none, .count 2 none,
    .listen 2 none]

/-- The third server listens with one item of 64, and no run inserts the others. -/
theorem seeded_once_raced :
    ∃ s, (seedSystem twoParagraphs).run ⟨[], []⟩ raced = some s ∧
      s.servers = [.failed "not master", .failed Database.duplicateKey, .listening] ∧
      s.collection = [⟨1, [js "a", js "b"]⟩] ∧
      ¬∃ ops s', (seedSystem twoParagraphs).run s ops = some s' ∧
        s'.collection = twoParagraphs.timelineItemModels := by
  let s : Database :=
    ⟨[⟨1, [js "a", js "b"]⟩], [.failed "not master", .failed Database.duplicateKey, .listening]⟩
  have hrun : (seedSystem twoParagraphs).run ⟨[], []⟩ raced = some s := rfl
  have hreachable : (seedSystem twoParagraphs).Reachable s := .run (.init rfl) raced hrun
  refine ⟨s, hrun, rfl, rfl, fun hcomplete => ?_⟩
  obtain ⟨-, -, -, -, hiff, -⟩ := seeded_once hreachable
  rcases hiff.mp hcomplete with hnil | hall | ⟨stage, hmem, hmidway⟩
  · cases hnil
  · have hlength := congrArg List.length hall
    rw [twoParagraphs.length_models] at hlength
    simp [s] at hlength
  · have hnone : ∀ stage ∈ s.servers, Database.midway twoParagraphs stage = false := by
      simp [s, Database.midway]
    rw [hnone stage hmem] at hmidway
    cases hmidway

end Seeding

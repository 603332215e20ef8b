import DockerEngine.Native.Register
import DockerEngine.Spec.Transaction

/-!
# What `Register` reports

The errors of the two insertions are dropped, and the transaction goes on: what was not rejected
is committed, and `Register` returns nil.

- `register_store`: what is committed is what `Store.register` says
- `register_reports`: when `Register` tells the truth
-/

namespace Docker

open Go

variable {α : Type u}

/-! ## The transaction -/

namespace TxStore

/-- The transaction begun last, with what it has inserted so far. -/
def withLast (s : TxStore α) (tx : Transaction) : TxStore α :=
  { s with pending := s.pending ++ [tx] }

variable {s : TxStore α} {image : Image} {pth : GoString} {errs : RegisterErrs}

theorem withLast_get (tx : Transaction) :
    (s.withLast tx).pending[s.pending.length]? = some tx := by
  simp [withLast]

/-- The first insertion of a transaction. -/
theorem insertImage_last :
    ((s.withLast ⟨[], []⟩).insertImage s.pending.length image errs.insertImage).2 =
      s.withLast ⟨if s.store.rejectsImage image errs then [] else [image], []⟩ := by
  unfold insertImage Store.rejectsImage
  rw [withLast_get]
  rcases errs.insertImage with - | err
  · -- the database only looks at the key
    by_cases htaken : (s.store.get image.id).isSome = true
    · simp [withLast, htaken]
    · simp [withLast, htaken]
  · simp

/-- The second one. -/
theorem insertPath_last {images : List Image} {path : PathRow} :
    ((s.withLast ⟨images, []⟩).insertPath s.pending.length path errs.insertPath).2 =
      s.withLast ⟨images, if s.store.rejectsPath path errs then [] else [path]⟩ := by
  unfold insertPath Store.rejectsPath
  rw [withLast_get]
  rcases errs.insertPath with - | err
  · by_cases htaken : path ∈ s.store.paths
    · simp [withLast, htaken]
    · simp [withLast, htaken]
  · simp

theorem commit_last (tx : Transaction) (err : Option (GoString × Bool)) :
    (s.withLast tx).commit s.pending.length err =
      match err with
      | some (err, written) => (some err, if written then s.write tx else s)
      | none => (none, s.write tx) := by
  unfold commit
  rw [withLast_get]
  have herase : { s.withLast tx with
      pending := (s.withLast tx).pending.eraseIdx s.pending.length } = s := by
    simp only [withLast, eraseIdx_last]
  cases err with
  | none => simp only [herase]
  | some c =>
    obtain ⟨err, written⟩ := c
    simp only [herase]

/-- A call that can begin its transaction. -/
theorem register_begun (hbegin : errs.begin = none) :
    s.register image pth errs =
      (s.withLast ⟨if s.store.rejectsImage image errs then [] else [image],
        if s.store.rejectsPath ⟨pth, image.id⟩ errs then [] else [⟨pth, image.id⟩]⟩).commit
          s.pending.length errs.commit := by
  have hcalls : s.register image pth errs =
      (((s.withLast ⟨[], []⟩).insertImage s.pending.length image errs.insertImage).2.insertPath
        s.pending.length ⟨pth, image.id⟩ errs.insertPath).2.commit s.pending.length
          errs.commit := by
    unfold register begin
    rw [hbegin]
    rfl
  rw [hcalls, insertImage_last, insertPath_last]

/-- What is committed, and what is returned, is what `Store.register` says. -/
theorem register_store (s : TxStore α) (image : Image) (pth : GoString) (errs : RegisterErrs) :
    ((s.register image pth errs).1, (s.register image pth errs).2.store) =
      s.store.register image pth errs := by
  cases hbegin : errs.begin with
  | some err =>
    unfold register Store.register begin
    rw [hbegin]
  | none =>
    rw [register_begun hbegin, commit_last]
    unfold Store.register
    rw [hbegin]
    rcases errs.commit with - | ⟨err, - | -⟩ <;> rfl

/-! ## What a call reports -/

/-- `Register` returns nil only if both rows are there afterwards, and when an insertion is rejected
    it returns an error and leaves the tables as they were. -/
structure Reports (s : TxStore α) (image : Image) (pth : GoString) (errs : RegisterErrs) :
    Prop where
  stored : (s.register image pth errs).1 = none →
    image ∈ (s.register image pth errs).2.store.images ∧
      ⟨pth, image.id⟩ ∈ (s.register image pth errs).2.store.paths
  rejected : s.store.rejectsImage image errs = true ∨
      s.store.rejectsPath ⟨pth, image.id⟩ errs = true →
    (s.register image pth errs).1 ≠ none ∧
      (s.register image pth errs).2.store.images = s.store.images ∧
      (s.register image pth errs).2.store.paths = s.store.paths

/-- The rows that are accepted change nothing exactly when none is. -/
theorem insertAccepted_tables {store : Store α} :
    ((store.insertAccepted image pth errs).images = store.images ∧
      (store.insertAccepted image pth errs).paths = store.paths) ↔
    store.rejectsImage image errs = true ∧ store.rejectsPath ⟨pth, image.id⟩ errs = true := by
  cases hi : store.rejectsImage image errs <;> cases hp : store.rejectsPath ⟨pth, image.id⟩ errs <;>
    simp [Store.insertAccepted, hi, hp]

/-- Both rows are there when none is rejected. -/
theorem insertAccepted_stored {store : Store α} (hi : store.rejectsImage image errs = false)
    (hp : store.rejectsPath ⟨pth, image.id⟩ errs = false) :
    image ∈ (store.insertAccepted image pth errs).images ∧
      ⟨pth, image.id⟩ ∈ (store.insertAccepted image pth errs).paths := by
  simp [Store.insertAccepted, hi, hp]

/-- `Register` reports what it did if and only if no insertion is rejected, or the transaction
    cannot begin, or its commit fails and does not write one row of it either. -/
theorem register_reports (s : TxStore α) (image : Image) (pth : GoString) (errs : RegisterErrs) :
    s.Reports image pth errs ↔
      errs.begin ≠ none ∨
      (s.store.rejectsImage image errs = false ∧
        s.store.rejectsPath ⟨pth, image.id⟩ errs = false) ∨
      ∃ err written, errs.commit = some (err, written) ∧
        (written = true → s.store.rejectsImage image errs = true ∧
          s.store.rejectsPath ⟨pth, image.id⟩ errs = true) := by
  have hres : (s.register image pth errs).1 = (s.store.register image pth errs).1 :=
    congrArg Prod.fst (register_store s image pth errs)
  have hstore : (s.register image pth errs).2.store = (s.store.register image pth errs).2 :=
    congrArg Prod.snd (register_store s image pth errs)
  have hnone : ¬(s.store.rejectsImage image errs = false ∧
      s.store.rejectsPath ⟨pth, image.id⟩ errs = false) →
      s.store.rejectsImage image errs = true ∨ s.store.rejectsPath ⟨pth, image.id⟩ errs = true := by
    intro hnot
    by_contra hor
    rw [not_or, Bool.not_eq_true, Bool.not_eq_true] at hor
    exact hnot hor
  cases hbegin : errs.begin with
  | some err =>
    -- nothing was done, and the call says so
    have hreg : s.store.register image pth errs = (some err, s.store) := by
      rw [Store.register, hbegin]
    rw [hreg] at hres hstore
    refine iff_of_true ⟨fun h => ?_, fun _ => ⟨?_, ?_, ?_⟩⟩ (.inl (by simp))
    · simp [hres] at h
    · simp [hres]
    · rw [hstore]
    · rw [hstore]
  | none =>
    cases hcommit : errs.commit with
    | none =>
      have hreg : s.store.register image pth errs =
          (none, s.store.insertAccepted image pth errs) := by
        rw [Store.register, hbegin, hcommit]
      rw [hreg] at hres hstore
      constructor
      · intro h
        by_contra hnot
        -- nil is returned, so nothing may have been rejected
        have hrej := hnone fun hacc => hnot (.inr (.inl hacc))
        exact (h.rejected hrej).1 hres
      · rintro (h | ⟨hi, hp⟩ | ⟨err, written, h, -⟩)
        · simp at h
        · refine ⟨fun _ => ?_, fun hrej => ?_⟩
          · rw [hstore]
            exact insertAccepted_stored hi hp
          · simp [hi, hp] at hrej
        · simp at h
    | some c =>
      obtain ⟨err, written⟩ := c
      have hreg : s.store.register image pth errs =
          (some err, if written then s.store.insertAccepted image pth errs else s.store) := by
        rw [Store.register, hbegin, hcommit]
      rw [hreg] at hres hstore
      cases written with
      | false =>
        refine iff_of_true ⟨fun h => ?_, fun _ => ⟨?_, ?_, ?_⟩⟩
          (.inr (.inr ⟨err, false, rfl, by simp⟩))
        · simp [hres] at h
        · simp [hres]
        · rw [hstore]
          rfl
        · rw [hstore]
          rfl
      | true =>
        rw [if_pos rfl] at hstore
        constructor
        · intro h
          by_cases hacc : s.store.rejectsImage image errs = false ∧
              s.store.rejectsPath ⟨pth, image.id⟩ errs = false
          · exact .inr (.inl hacc)
          · obtain ⟨-, himages, hpaths⟩ := h.rejected (hnone hacc)
            rw [hstore] at himages hpaths
            exact .inr (.inr ⟨err, true, rfl, fun _ => insertAccepted_tables.mp ⟨himages, hpaths⟩⟩)
        · intro h
          refine ⟨fun hnil => ?_, fun hrej => ⟨?_, ?_⟩⟩
          · simp [hres] at hnil
          · simp [hres]
          · rw [hstore]
            apply insertAccepted_tables.mpr
            rcases h with h | ⟨hi, hp⟩ | ⟨err', written, heq, hboth⟩
            · simp at h
            · simp [hi, hp] at hrej
            · cases heq
              exact hboth rfl

/-- The id of an image is taken by one with another parent: `Register` returns nil, the image is not
    stored, and its path leads to the other one. -/
theorem register_reports_taken :
    let base : Image := ⟨str "id", [], [], 0⟩
    let image : Image := ⟨str "id", str "other", [], 1⟩
    let s : TxStore Unit := ⟨{ Store.empty (str "/l") with images := [base] }, []⟩
    (s.register image (str "p") .none).1 = none ∧
      (s.register image (str "p") .none).2.store.images = [base] ∧
      (s.register image (str "p") .none).2.store.paths = [⟨str "p", str "id"⟩] ∧
      ¬s.Reports image (str "p") .none := by
  refine ⟨rfl, rfl, rfl, fun h => ?_⟩
  exact (h.rejected (.inl rfl)).1 rfl

end TxStore

end Docker

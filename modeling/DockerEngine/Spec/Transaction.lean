import DockerEngine.Native.Transaction
import DockerEngine.Spec.Store

/-!
# What a failed `Create` of an image leaves behind

`Create` adds the layer first and never takes it back, and it returns the errors of the two
insertions without a rollback.

- `create_store`: what is committed is what `Store.create` says
- `create_restores`: which failed calls leave everything as it was
- `create_leaves`: a path that cannot be inserted
-/

namespace Docker

open Go

variable {α : Type u}

namespace TxStore

/-! ## The transaction -/

theorem eraseIdx_last (ts : List Transaction) (tx : Transaction) :
    (ts ++ [tx]).eraseIdx ts.length = ts := by
  rw [List.eraseIdx_append_of_length_le (Nat.le_refl _), Nat.sub_self]
  simp

/-- What is committed, and what is returned, is what `Store.create` says. -/
theorem create_store (s : TxStore α) (id tmpName : GoString) (created : Int) (data : α)
    (parent : Option Image) (pth comment : GoString) (fault : Option (CreateFault α)) :
    ((s.create id tmpName created data parent pth comment fault).1,
      (s.create id tmpName created data parent pth comment fault).2.store) =
      s.store.create id tmpName created data parent pth comment fault := by
  unfold TxStore.create Store.create
  simp only
  rcases s.store.layers.addLayer id tmpName data (fault.bind CreateFault.layerFault) with
    ⟨res, layers⟩
  cases res with
  | error err => rfl
  | ok layer =>
    -- the operations of the transaction, for each fault and each key that is taken or new
    by_cases hget : (({ s.store with layers } : Store α).get id).isSome = true <;>
      by_cases hpath : (⟨clean pth, id⟩ : PathRow) ∈ s.store.paths <;>
      rcases fault with - | (f | ⟨type, err⟩ | err | err | ⟨err, - | -⟩) <;>
      simp [record, begin, insertImage, insertPath, commit, write, setLayers, Store.insert,
        CreateFault.beginErr, CreateFault.insertImageErr, CreateFault.insertPathErr,
        CreateFault.commitErr, eraseIdx_last, hget, hpath]

/-! ## The layers -/

section

variable {s s' : TxStore α}

theorem begin_store {ε : Type} {err : Option ε} {res : Except ε Nat}
    (h : s.begin err = (res, s')) : s'.store = s.store := by
  cases err <;> cases h <;> rfl

theorem insertImage_store {tx : Nat} {img : Image} {err res : Option GoString}
    (h : s.insertImage tx img err = (res, s')) : s'.store = s.store := by
  unfold insertImage at h
  split at h
  · cases h; rfl
  · cases h; rfl
  · split at h <;> cases h <;> rfl

theorem insertPath_store {tx : Nat} {path : PathRow} {err res : Option GoString}
    (h : s.insertPath tx path err = (res, s')) : s'.store = s.store := by
  unfold insertPath at h
  split at h
  · cases h; rfl
  · cases h; rfl
  · split at h <;> cases h <;> rfl

theorem commit_layers {tx : Nat} {err : Option (GoString × Bool)} {res : Option GoString}
    (h : s.commit tx err = (res, s')) : s'.store.layers = s.store.layers := by
  unfold commit at h
  split at h
  · cases h; rfl
  · rcases err with - | ⟨err, - | -⟩ <;> cases h <;> rfl

/-- The transaction has nothing to do with the layers. -/
theorem record_layers {img : Image} {path : PathRow} {fault : Option (CreateFault α)}
    {res : Except GoString Image} (h : s.record img path fault = (res, s')) :
    s'.store.layers = s.store.layers := by
  unfold record at h
  rcases hbegin : s.begin (fault.bind CreateFault.beginErr) with ⟨err | tx, s₁⟩
  · simp only [hbegin, Prod.mk.injEq] at h
    rw [← h.2, begin_store hbegin]
  rcases himage : s₁.insertImage tx img (fault.bind CreateFault.insertImageErr) with ⟨- | err, s₂⟩
  · rcases hpath : s₂.insertPath tx path (fault.bind CreateFault.insertPathErr) with ⟨- | err, s₃⟩
    · rcases hcommit : s₃.commit tx (fault.bind CreateFault.commitErr) with ⟨- | err, s₄⟩ <;>
      · simp only [hbegin, himage, hpath, hcommit, Prod.mk.injEq] at h
        rw [← h.2, commit_layers hcommit, insertPath_store hpath, insertImage_store himage,
          begin_store hbegin]
    · simp only [hbegin, himage, hpath, Prod.mk.injEq] at h
      rw [← h.2, insertPath_store hpath, insertImage_store himage, begin_store hbegin]
  · simp only [hbegin, himage, Prod.mk.injEq] at h
    rw [← h.2, insertImage_store himage, begin_store hbegin]

end

end TxStore

/-! ## A failed `Create` -/

/-- What is left of the temporary directory when `AddLayer` fails. -/
def LayerFault.stale : LayerFault α → Option α
  | mktemp _ => none
  | untar _ stale | rename _ stale => stale

/-- A layer, or the temporary directory, that cannot be made: `AddLayer` fails before it has
    made a directory, or removes it again. -/
def LayerRefused (layers : LayerStore α) (id tmpName : GoString)
    (fault : Option (CreateFault α)) : Prop :=
  layers.has id = true ∨ layers.stat (layers.tmpPath tmpName) ≠ none ∨
    ∃ f, fault = some (.layer f) ∧ f.stale = none

namespace TxStore

/-- The tables, the layers that can be seen and the open transactions are the same. -/
structure Unchanged (s s' : TxStore α) : Prop where
  images : s'.store.images = s.store.images
  paths : s'.store.paths = s.store.paths
  listed : ∀ path, path ∈ s'.store.layers.list ↔ path ∈ s.store.layers.list
  found : ∀ id, s'.store.layers.get id = s.store.layers.get id
  pending : s'.pending = s.pending

/-- One more directory can be seen. -/
theorem not_unchanged_of_new {s s' : TxStore α} {path : GoString} {data : α}
    (hnew : s.store.layers.stat path = none)
    (hlayers : s'.store.layers = s.store.layers.mkdir path data) : ¬ s.Unchanged s' := by
  intro hsame
  have hstat : s'.store.layers.stat path ≠ none := by
    rw [hlayers, LayerStore.stat_mkdir_self hnew]
    exact Option.some_ne_none data
  have hmem := (hsame.listed path).mp (LayerStore.mem_list.mpr hstat)
  exact LayerStore.mem_list.mp hmem hnew

/-- A `Create` that fails, for any store, archive, parent, path and failure: the tables, the
    layers and the transactions are as before exactly when `AddLayer` failed and left no
    directory behind. -/
theorem create_restores {s s' : TxStore α} {id tmpName pth comment err : GoString} {created : Int}
    {data : α} {parent : Option Image} {fault : Option (CreateFault α)}
    (h : s.create id tmpName created data parent pth comment fault = (.error err, s')) :
    s.Unchanged s' ↔ LayerRefused s.store.layers id tmpName fault := by
  unfold TxStore.create at h
  simp only at h
  have hsame : ∀ layers, layers = s.store.layers → s.Unchanged (s.setLayers layers) := by
    rintro layers rfl
    exact ⟨rfl, rfl, fun _ => Iff.rfl, fun _ => rfl, rfl⟩
  unfold LayerStore.addLayer at h
  by_cases hhas : s.store.layers.has id = true
  · rw [if_pos hhas] at h
    cases h
    exact iff_of_true (hsame _ rfl) (.inl hhas)
  rw [if_neg hhas] at h
  simp only at h
  by_cases htmp : (s.store.layers.stat (s.store.layers.tmpPath tmpName)).isSome = true
  · rw [if_pos htmp] at h
    cases h
    exact iff_of_true (hsame _ rfl) (.inr (.inl (Option.isSome_iff_ne_none.mp htmp)))
  rw [if_neg htmp] at h
  have htmp' : s.store.layers.stat (s.store.layers.tmpPath tmpName) = none := by simpa using htmp
  have hlayer : s.store.layers.stat (s.store.layers.layerPath id) = none := by
    rw [LayerStore.has] at hhas
    simpa using hhas
  -- what was refused is known to be there or not
  have hrefused : ∀ f, fault = some (.layer f) →
      (LayerRefused s.store.layers id tmpName fault ↔ f.stale = none) := by
    rintro f rfl
    simp [LayerRefused, hhas, htmp']
  have hleave : ∀ stale, s.Unchanged
      (s.setLayers (s.store.layers.leave (s.store.layers.tmpPath tmpName) stale)) ↔
        stale = none := by
    intro stale
    cases stale with
    | none => exact iff_of_true (hsame _ rfl) rfl
    | some d => exact iff_of_false (not_unchanged_of_new htmp' rfl) (Option.some_ne_none d)
  -- a layer that was made stays
  have hmade : ∀ {img path}, ((s.setLayers (s.store.layers.mkdir (s.store.layers.layerPath id)
      data)).record img path fault) = (.error err, s') → (∀ f, fault ≠ some (.layer f)) →
      (s.Unchanged s' ↔ LayerRefused s.store.layers id tmpName fault) := by
    intro img path hrec hfault
    refine iff_of_false (not_unchanged_of_new hlayer (record_layers hrec)) ?_
    simp [LayerRefused, hhas, htmp', hfault]
  rcases fault with - | (f | msg | msg | msg | ⟨msg, written⟩)
  · exact hmade h (by simp)
  · rw [hrefused f rfl]
    cases f with
    | mktemp msg =>
      cases h
      exact iff_of_true (hsame _ rfl) rfl
    | untar msg stale =>
      cases h
      exact hleave stale
    | rename msg stale =>
      cases h
      exact hleave stale
  · exact hmade h (by simp)
  · exact hmade h (by simp)
  · exact hmade h (by simp)
  · exact hmade h (by simp)

/-- The archive cannot be unpacked, and the temporary directory is removed. -/
theorem create_restores_untar :
    ∃ s' : TxStore Unit, (TxStore.mk (Store.empty (str "/l")) []).create (str "a") (str "b") 0 ()
        none (str "p") [] (some (.layer (.untar (str "exit status 1") none))) =
      (.error (str "Could not add layer: exit status 1"), s') ∧
      Unchanged ⟨Store.empty (str "/l"), []⟩ s' := by
  obtain ⟨s', hcreate⟩ : ∃ s' : TxStore Unit, (TxStore.mk (Store.empty (str "/l")) []).create
      (str "a") (str "b") 0 () none (str "p") []
      (some (.layer (.untar (str "exit status 1") none))) =
    (.error (str "Could not add layer: exit status 1"), s') := ⟨_, rfl⟩
  exact ⟨s', hcreate, (create_restores hcreate).mpr (.inr (.inr ⟨_, rfl, rfl⟩))⟩

/-- The path cannot be inserted: the image is in no table, but its layer is there, and the
    transaction with its row is still open. -/
theorem create_leaves :
    ∃ s' : TxStore Unit, (TxStore.mk (Store.empty (str "/l")) []).create (str "a") (str "b") 0 ()
        none (str "p") [] (some (.insertPath (str "disk full"))) =
      (.error (str "Could not insert path info: disk full"), s') ∧
      s'.store.images = [] ∧ s'.store.layers.get (str "a") = str "/l/a" ∧
      s'.pending = [⟨[⟨str "a", [], [], 0⟩], []⟩] ∧
      ¬ Unchanged ⟨Store.empty (str "/l"), []⟩ s' := by
  refine ⟨_, rfl, rfl, by decide, rfl, fun hsame => ?_⟩
  have hpending := hsame.pending
  simp at hpending

end TxStore

end Docker

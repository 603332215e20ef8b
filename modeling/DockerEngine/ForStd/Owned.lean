import Mathlib.Data.List.Nodup
import Mathlib.Data.List.Perm.Basic
import Mathlib.Data.List.Perm.Subperm

/-!
# Tables with a key, and the owners of their rows

A program holds a table whose rows are told apart by a key, and owners elsewhere which say which
row is theirs. `Owned` says that rows and owners belong together one by one. It is kept when an
owner and its row are added under a new key, and when all rows of a key go with their owner.
-/

variable {ρ κ ι : Type*}

/-- Each row has an owner, each owner has its row, and no two of them one key. -/
structure Owned (rows : List ρ) (key : ρ → κ) (rowOf : ι → Option ρ) (holds : ι → Prop) :
    Prop where
  keys : (rows.map key).Nodup
  owner : ∀ row ∈ rows, ∃ i, holds i ∧ rowOf i = some row
  row : ∀ i, holds i → ∃ row ∈ rows, rowOf i = some row
  distinct : ∀ i j row row', holds i → holds j → rowOf i = some row → rowOf j = some row' →
    key row = key row' → i = j

namespace Owned

variable {rows : List ρ} {key : ρ → κ} {rowOf rowOf' : ι → Option ρ} {holds holds' : ι → Prop}

/-- An empty table, and no owners. -/
theorem nil (hholds : ∀ i, ¬holds i) : Owned [] key rowOf holds where
  keys := List.nodup_nil
  owner _ h := absurd h List.not_mem_nil
  row i h := absurd h (hholds i)
  distinct i _ _ _ h := absurd h (hholds i)

/-- The owners are the same, with the same rows. -/
theorem congr (h : Owned rows key rowOf holds) (hholds : ∀ i, holds' i ↔ holds i)
    (hrow : ∀ i, holds i → rowOf' i = rowOf i) : Owned rows key rowOf' holds' where
  keys := h.keys
  owner row hmem := by
    obtain ⟨i, hi, heq⟩ := h.owner row hmem
    exact ⟨i, (hholds i).mpr hi, (hrow i hi).trans heq⟩
  row i hi := by
    obtain ⟨row, hmem, heq⟩ := h.row i ((hholds i).mp hi)
    exact ⟨row, hmem, (hrow i ((hholds i).mp hi)).trans heq⟩
  distinct i j row row' hi hj hrowi hrowj := by
    have hi' := (hholds i).mp hi
    have hj' := (hholds j).mp hj
    rw [hrow i hi'] at hrowi
    rw [hrow j hj'] at hrowj
    exact h.distinct i j row row' hi' hj' hrowi hrowj

theorem row_mem (h : Owned rows key rowOf holds) {i : ι} (hi : holds i) {row : ρ}
    (hrow : rowOf i = some row) : row ∈ rows := by
  obtain ⟨row', hmem, heq⟩ := h.row i hi
  rw [hrow] at heq
  cases heq
  exact hmem

/-- A new owner, and its row under a new key. -/
theorem insert (h : Owned rows key rowOf holds) {row : ρ} (i : ι) (hkey : key row ∉ rows.map key)
    (hholds : ∀ j, holds' j ↔ holds j ∨ j = i) (hi : rowOf' i = some row)
    (hrow : ∀ j, holds j → rowOf' j = rowOf j) :
    Owned (rows ++ [row]) key rowOf' holds' := by
  have hold : ∀ j row', holds j → rowOf' j = some row' → row' ∈ rows := fun j row' hj hrowj =>
    h.row_mem hj ((hrow j hj).symm.trans hrowj)
  have hne : ∀ j row', holds j → rowOf' j = some row' → key row' ≠ key row :=
    fun j row' hj hrowj heq => hkey (heq ▸ List.mem_map_of_mem (hold j row' hj hrowj))
  refine ⟨?_, fun row' hmem => ?_, fun j hj => ?_, fun j k row₁ row₂ hj hk hrow₁ hrow₂ heq => ?_⟩
  · have hnodup := h.keys.concat hkey
    rwa [List.concat_eq_append, ← List.map_singleton, ← List.map_append] at hnodup
  · obtain hmem | hmem := List.mem_append.mp hmem
    · obtain ⟨j, hj, heq⟩ := h.owner row' hmem
      exact ⟨j, (hholds j).mpr (.inl hj), (hrow j hj).trans heq⟩
    · obtain rfl := List.mem_singleton.mp hmem
      exact ⟨i, (hholds i).mpr (.inr rfl), hi⟩
  · obtain hj | rfl := (hholds j).mp hj
    · obtain ⟨row', hmem, heq⟩ := h.row j hj
      exact ⟨row', List.mem_append_left _ hmem, (hrow j hj).trans heq⟩
    · exact ⟨row, List.mem_append_right _ (List.mem_singleton_self _), hi⟩
  · obtain hj | rfl := (hholds j).mp hj <;> obtain hk | rfl := (hholds k).mp hk
    · exact h.distinct j k row₁ row₂ hj hk ((hrow j hj).symm.trans hrow₁)
        ((hrow k hk).symm.trans hrow₂) heq
    · rw [hi] at hrow₂
      cases hrow₂
      exact absurd heq (hne j row₁ hj hrow₁)
    · rw [hi] at hrow₁
      cases hrow₁
      exact absurd heq.symm (hne k row₂ hk hrow₂)
    · rfl

/-- Some keys are kept, with the owners that have them. -/
theorem filter (h : Owned rows key rowOf holds) (p : κ → Bool)
    (hholds : ∀ i row, rowOf i = some row → (holds' i ↔ holds i ∧ p (key row) = true))
    (hsome : ∀ i, holds' i → holds i) :
    Owned (rows.filter fun row => p (key row)) key rowOf holds' where
  keys := h.keys.sublist (List.filter_sublist.map _)
  owner row hmem := by
    obtain ⟨hmem, hp⟩ := List.mem_filter.mp hmem
    obtain ⟨i, hi, heq⟩ := h.owner row hmem
    exact ⟨i, (hholds i row heq).mpr ⟨hi, hp⟩, heq⟩
  row i hi := by
    obtain ⟨row, hmem, heq⟩ := h.row i (hsome i hi)
    exact ⟨row, List.mem_filter.mpr ⟨hmem, ((hholds i row heq).mp hi).2⟩, heq⟩
  distinct i j row row' hi hj := h.distinct i j row row' (hsome i hi) (hsome j hj)

/-- The rows of a key go, and with them the owner that has it. -/
theorem delete [DecidableEq κ] (h : Owned rows key rowOf holds) {a : κ} (i : ι)
    (hholds : ∀ j, holds' j ↔ holds j ∧ j ≠ i)
    (hi : ∀ row, rowOf i = some row → key row = a)
    (hall : ∀ j row, holds j → rowOf j = some row → key row = a → j = i) :
    Owned (rows.filter fun row => key row ≠ a) key rowOf holds' := by
  refine h.filter (fun b => decide (b ≠ a)) (fun j row hrow => ?_) fun j hj => ((hholds j).mp hj).1
  rw [hholds, decide_eq_true_eq]
  refine and_congr_right fun hj => not_congr ⟨?_, hall j row hj hrow⟩
  rintro rfl
  exact hi row hrow

/-- The table of listed owners. -/
theorem of_perm {owners : List ι} (hkeys : (rows.map key).Nodup)
    (hperm : rows.Perm (owners.filterMap rowOf)) (hrow : ∀ i ∈ owners, ∃ row, rowOf i = some row)
    (hdistinct : ∀ i ∈ owners, ∀ j ∈ owners, ∀ row row', rowOf i = some row →
      rowOf j = some row' → key row = key row' → i = j) :
    Owned rows key rowOf (· ∈ owners) where
  keys := hkeys
  owner row hmem := List.mem_filterMap.mp (hperm.subset hmem)
  row i hi := by
    obtain ⟨row, heq⟩ := hrow i hi
    exact ⟨row, hperm.symm.subset (List.mem_filterMap.mpr ⟨i, hi, heq⟩), heq⟩
  distinct i j row row' hi hj := hdistinct i hi j hj row row'

/-- The rows, when the owners can be listed. -/
theorem perm (h : Owned rows key rowOf holds) {owners : List ι} (hnodup : owners.Nodup)
    (howners : ∀ i, i ∈ owners ↔ holds i) : rows.Perm (owners.filterMap rowOf) := by
  have hrows : rows.Nodup := h.keys.of_map key
  have hothers : (owners.filterMap rowOf).Nodup := by
    rw [List.Nodup, List.pairwise_filterMap]
    refine List.Pairwise.imp_of_mem ?_ hnodup
    intro i j hi hj hne row hrow row' hrow' heq
    exact hne (h.distinct i j row row' ((howners i).mp hi) ((howners j).mp hj) hrow hrow'
      (heq ▸ rfl))
  rw [List.perm_ext_iff_of_nodup hrows hothers]
  intro row
  rw [List.mem_filterMap]
  constructor
  · intro hmem
    obtain ⟨i, hi, heq⟩ := h.owner row hmem
    exact ⟨i, (howners i).mpr hi, heq⟩
  · rintro ⟨i, hi, heq⟩
    exact h.row_mem ((howners i).mp hi) heq

end Owned

import Mathlib.Data.List.Nodup
import Mathlib.Data.List.Sublists

/-!
# Tables with parent links

A table is a list of rows in the order they were registered. Each row has a key and may
name the key of a parent. If keys are distinct and every parent was registered before
its child, then following the links from any row ends, at a row without a parent, and
never comes to a row twice.

- `Ancestral.append`: registering a row keeps the order
- `Ancestral.exists_lineage`: every row has a lineage, and it runs backwards through the table
-/

section

variable {ρ : Type u} {κ : Type v} [DecidableEq κ] (key : ρ → κ) (parent : ρ → Option κ)

/-- The row with a given key. -/
def lookupRow (rows : List ρ) (k : κ) : Option ρ := rows.find? fun r => key r = k

/-- Keys are distinct, and a parent comes before its children. -/
structure Ancestral (rows : List ρ) : Prop where
  distinct : (rows.map key).Nodup
  earlier : ∀ l₁ r l₂, rows = l₁ ++ r :: l₂ → ∀ k, parent r = some k → ∃ p ∈ l₁, key p = k

/-- `Lineage rows r chain`: `chain` is `r`, its parent, and so on up to a row without one. -/
inductive Lineage (rows : List ρ) : ρ → List ρ → Prop
  | root {r : ρ} : parent r = none → Lineage rows r [r]
  | child {r p : ρ} {k : κ} {chain : List ρ} :
      parent r = some k → lookupRow key rows k = some p → Lineage rows p chain →
      Lineage rows r (r :: chain)

end

section

variable {ρ : Type u} {κ : Type v} {key : ρ → κ} {parent : ρ → Option κ} {rows : List ρ}
  {r p : ρ} {k : κ}

/-! ## Registering a row -/

theorem Ancestral.nil : Ancestral key parent [] :=
  ⟨List.nodup_nil, fun l₁ r l₂ h => by simp at h⟩

theorem Ancestral.append (h : Ancestral key parent rows) (hfresh : key r ∉ rows.map key)
    (hparent : ∀ k, parent r = some k → ∃ p ∈ rows, key p = k) :
    Ancestral key parent (rows ++ [r]) := by
  constructor
  · rw [List.map_append, List.nodup_append']
    refine ⟨h.distinct, List.nodup_singleton _, fun k hk hr => ?_⟩
    rw [List.map_singleton, List.mem_singleton] at hr
    exact hfresh (hr ▸ hk)
  · intro l₁ q l₂ heq k hk
    rcases List.eq_nil_or_concat' l₂ with rfl | ⟨l₃, q', rfl⟩
    · -- the row just registered
      obtain ⟨rfl, hq⟩ := List.append_inj' heq rfl
      cases hq
      exact hparent k hk
    · rw [← List.cons_append, ← List.append_assoc] at heq
      exact h.earlier l₁ q l₃ (List.append_inj' heq rfl).1 k hk

variable [DecidableEq κ]

/-! ## Looking up a row -/

theorem lookupRow_eq_some (h : lookupRow key rows k = some p) : p ∈ rows ∧ key p = k :=
  ⟨List.mem_of_find?_eq_some h, by simpa using List.find?_some h⟩

theorem lookupRow_eq_none (h : k ∉ rows.map key) : lookupRow key rows k = none := by
  refine List.find?_eq_none.mpr fun r hr hk => h ?_
  rw [← of_decide_eq_true hk]
  exact List.mem_map_of_mem hr

theorem lookupRow_of_mem (hdistinct : (rows.map key).Nodup) (hp : p ∈ rows) :
    lookupRow key rows (key p) = some p := by
  induction rows with
  | nil => exact absurd hp List.not_mem_nil
  | cons q rows ih =>
    rw [List.map_cons, List.nodup_cons] at hdistinct
    rcases List.mem_cons.mp hp with rfl | hp
    · simp [lookupRow]
    · -- the first row has another key
      have hne : key q ≠ key p := fun heq => hdistinct.1 (heq ▸ List.mem_map_of_mem hp)
      rw [lookupRow, List.find?_cons_of_neg (by simpa using hne)]
      exact ih hdistinct.2 hp

/-- A row found in a table is found in every longer one. -/
theorem lookupRow_append (h : lookupRow key rows k = some p) (more : List ρ) :
    lookupRow key (rows ++ more) k = some p := by
  rw [lookupRow, List.find?_append, show rows.find? (fun r => key r = k) = some p from h]
  rfl

/-! ## Lineages -/

theorem Lineage.ne_nil {chain : List ρ} (h : Lineage key parent rows r chain) : chain ≠ [] := by
  cases h with
  | root => exact List.cons_ne_nil _ _
  | child => exact List.cons_ne_nil _ _

/-- A longer table has the same lineages. -/
theorem Lineage.append {chain : List ρ} (h : Lineage key parent rows r chain) (more : List ρ) :
    Lineage key parent (rows ++ more) r chain := by
  induction h with
  | root hr => exact .root hr
  | child hk hp _ ih => exact .child hk (lookupRow_append hp more) ih

/-- The lineage of a row runs backwards through the table, from the row on. -/
private theorem exists_lineage_at (h : Ancestral key parent rows) (n : Nat) :
    ∀ l₁ r l₂, l₁.length = n → rows = l₁ ++ r :: l₂ →
      ∃ chain, Lineage key parent rows r chain ∧ chain.Sublist (r :: l₁.reverse) := by
  induction n using Nat.strong_induction_on with
  | _ n ih =>
    intro l₁ r l₂ hlen heq
    cases hparent : parent r with
    | none => exact ⟨[r], .root hparent, List.Sublist.cons_cons r (List.nil_sublist _)⟩
    | some k =>
      -- the parent stands further in front, so its own lineage is there
      obtain ⟨p, hp, hkey⟩ := h.earlier l₁ r l₂ heq k hparent
      obtain ⟨m₁, m₂, rfl⟩ := List.append_of_mem hp
      have hlt : m₁.length < n := by
        rw [List.length_append, List.length_cons] at hlen
        omega
      obtain ⟨chain, hchain, hsub⟩ := ih m₁.length hlt m₁ p (m₂ ++ r :: l₂) rfl
        (by rw [heq, List.append_assoc, List.cons_append])
      have hlookup : lookupRow key rows k = some p := by
        rw [← hkey]
        apply lookupRow_of_mem h.distinct
        rw [heq]
        exact List.mem_append_left _ (List.mem_append_right _ List.mem_cons_self)
      refine ⟨r :: chain, .child hparent hlookup hchain, List.Sublist.cons_cons r ?_⟩
      rw [List.reverse_append, List.reverse_cons, List.append_assoc]
      exact hsub.trans (List.sublist_append_right _ _)

/-- Every row has a lineage. No row comes twice in it, so it is no longer than the table. -/
theorem Ancestral.exists_lineage (h : Ancestral key parent rows) (hr : r ∈ rows) :
    ∃ chain, Lineage key parent rows r chain ∧ chain.Sublist rows.reverse := by
  obtain ⟨l₁, l₂, rfl⟩ := List.append_of_mem hr
  obtain ⟨chain, hchain, hsub⟩ := exists_lineage_at h l₁.length l₁ r l₂ rfl rfl
  refine ⟨chain, hchain, hsub.trans ?_⟩
  rw [List.reverse_append, List.reverse_cons, List.append_assoc]
  exact List.sublist_append_right _ _

end

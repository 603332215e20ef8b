import Mathlib.Data.List.Basic
import Mathlib.Logic.Function.Basic

/-!
# A list of rows that mirrors a map

Two records of the same facts: a partial function `map`, and a list of rows kept in
another place (a kernel table, a log) that is changed by appending a row and by erasing
one. `Mirrors` says that the rows with key `k` are exactly the one `map` holds for `k`:
no row is missing, stale or doubled.
-/

variable {κ : Type u} {ν : Type v} {ρ : Type w} [DecidableEq κ] {key : ρ → κ} {row : κ → ν → ρ}

/-- For every key, the rows with that key are the entry of the map and nothing else. -/
def Mirrors (key : ρ → κ) (row : κ → ν → ρ) (rows : List ρ) (map : κ → Option ν) : Prop :=
  ∀ k, rows.filter (fun r => key r = k) = (map k).toList.map (row k)

namespace Mirrors

variable {rows : List ρ} {map : κ → Option ν} {k : κ} {v : ν}

theorem empty (key : ρ → κ) (row : κ → ν → ρ) : Mirrors key row [] fun _ => none := fun _ => rfl

theorem filter_eq (h : Mirrors key row rows map) (hk : map k = some v) :
    rows.filter (fun r => key r = k) = [row k v] := by
  rw [h k, hk]
  rfl

theorem mem (h : Mirrors key row rows map) (hk : map k = some v) : row k v ∈ rows := by
  have hmem : row k v ∈ rows.filter (fun r => key r = k) := by
    rw [h.filter_eq hk]
    exact List.mem_singleton_self _
  exact List.mem_of_mem_filter hmem

theorem key_ne (h : Mirrors key row rows map) (hk : map k = none) : ∀ r ∈ rows, key r ≠ k := by
  intro r hr hkey
  have hmem : r ∈ rows.filter (fun r => key r = k) := List.mem_filter.mpr ⟨hr, by simpa using hkey⟩
  rw [h k, hk] at hmem
  exact absurd hmem (List.not_mem_nil)

/-- Appending a row for a key the map does not hold, and recording it. -/
theorem append (hkey : ∀ k v, key (row k v) = k) (h : Mirrors key row rows map)
    (hk : map k = none) (v : ν) :
    Mirrors key row (rows ++ [row k v]) (Function.update map k (some v)) := by
  intro k'
  rw [List.filter_append, h k']
  by_cases heq : k' = k
  · subst heq
    simp [hk, hkey]
  · have hne : ¬k = k' := fun e => heq e.symm
    simp [heq, hne, hkey]

/-- Erasing the row of a key, and its record. -/
theorem erase [DecidableEq ρ] (hkey : ∀ k v, key (row k v) = k) (h : Mirrors key row rows map)
    (hk : map k = some v) :
    Mirrors key row (rows.erase (row k v)) (Function.update map k none) := by
  intro k'
  by_cases heq : k' = k
  · subst heq
    rw [← List.erase_filter, h.filter_eq hk]
    simp
  · rw [Function.update_of_ne heq, ← h k']
    rw [← List.erase_filter, List.erase_of_not_mem]
    intro hmem
    have := (List.mem_filter.mp hmem).2
    rw [decide_eq_true_eq, hkey] at this
    exact heq this.symm

end Mirrors

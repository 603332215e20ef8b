import DockerEngine.Go.Str
import Mathlib.Data.List.Sort

/-!
# Sorting (Go's package `sort`)

`sort.Sort` puts the elements in ascending order. It is not stable: of elements that are not
less than one another any one may come first. A `Sorter` is one that may have been used.

- `Sorter.foldl_sort`: a list that is sorted again for each of its elements
- `eq_of_descending`: the order is determined when the keys are different
- `pairwise_le_mergeSort`: names in ascending order
-/

namespace Go

variable {α : Type u}

/-- A `sort.Sort` of elements that are compared by `less`. -/
structure Sorter (less : α → α → Bool) where
  sort : List α → List α
  perm : ∀ xs, (sort xs).Perm xs
  sorted : ∀ xs, (sort xs).Pairwise fun x y => less y x = false

namespace Sorter

/-- Descending order of a key. -/
def descending (key : α → Int) (x y : α) : Bool := key y < key x

variable {key : α → Int} (s : Sorter (descending key))

theorem pairwise_key (xs : List α) : (s.sort xs).Pairwise fun x y => key y ≤ key x := by
  apply (s.sorted xs).imp
  intro x y h
  have hnot : ¬key x < key y := of_decide_eq_false h
  omega

/-- Adding one element after the other, and sorting each time. -/
theorem foldl_sort (xs ys : List α) (hys : ys.Pairwise fun x y => key y ≤ key x) :
    (xs.foldl (fun acc x => s.sort (acc ++ [x])) ys).Perm (ys ++ xs) ∧
      (xs.foldl (fun acc x => s.sort (acc ++ [x])) ys).Pairwise fun x y => key y ≤ key x := by
  induction xs generalizing ys with
  | nil =>
    rw [List.append_nil]
    exact ⟨.refl _, hys⟩
  | cons x xs ih =>
    obtain ⟨hperm, hpairwise⟩ := ih (s.sort (ys ++ [x])) (s.pairwise_key _)
    refine ⟨hperm.trans ?_, hpairwise⟩
    have hadd := (s.perm (ys ++ [x])).append_right xs
    rwa [List.append_assoc] at hadd

end Sorter

/-- Elements with different keys have one descending order. -/
theorem eq_of_descending {key : α → Int} {xs ys : List α} (hperm : xs.Perm ys)
    (hxs : xs.Pairwise fun x y => key y ≤ key x) (hys : ys.Pairwise fun x y => key y ≤ key x)
    (hkeys : (xs.map key).Nodup) : xs = ys := by
  apply hperm.eq_of_pairwise _ hxs hys
  intro x y hx hy hyx hxy
  exact List.inj_on_of_nodup_map hkeys hx (hperm.symm.subset hy) (by omega)

/-- Insertion sort is one. -/
def insertionSort (key : α → Int) : Sorter (Sorter.descending key) where
  sort := List.insertionSort fun x y => key y ≤ key x
  perm := List.perm_insertionSort _
  sorted xs := by
    have : Std.Total fun x y : α => key y ≤ key x := ⟨fun x y => Int.le_total (key y) (key x)⟩
    have : IsTrans α fun x y => key y ≤ key x := ⟨fun _ _ _ h h' => Int.le_trans h' h⟩
    apply (List.pairwise_insertionSort (fun x y => key y ≤ key x) xs).imp
    intro x y h
    exact decide_eq_false (by omega)

/-- Names in ascending order, as `ioutil.ReadDir` and `sort.Strings` put them. -/
theorem pairwise_le_mergeSort (names : List GoString) :
    (names.mergeSort fun a b => decide (a ≤ b)).Pairwise (· ≤ ·) := by
  have htrans : ∀ a b c : GoString, decide (a ≤ b) = true → decide (b ≤ c) = true →
      decide (a ≤ c) = true := by
    intro a b c hab hbc
    rw [decide_eq_true_eq] at *
    exact List.le_trans hab hbc
  have htotal : ∀ a b : GoString, (decide (a ≤ b) || decide (b ≤ a)) = true := by
    intro a b
    simpa using List.le_total a b
  exact (List.pairwise_mergeSort htrans htotal _).imp of_decide_eq_true

end Go

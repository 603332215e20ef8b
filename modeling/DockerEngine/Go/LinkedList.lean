import Mathlib.Data.List.Nodup
import Mathlib.Tactic.Common

/-!
# Linked lists (Go's package `container/list`)

The elements of a list are told apart by their references, not by their values: `remove` takes
the element out that it is given, and leaves one with the same value alone. References are
numbers that are given out in order.

- `removeAll_filter`: what is left when several elements are removed one after the other
- `values_remove`: the values, when one element is removed
-/

namespace Go

variable {α : Type u}

/-- A `list.Element`. -/
structure Element (α : Type u) where
  ref : Nat
  value : α
  deriving DecidableEq, Repr

/-- A `list.List`, with the next reference. -/
structure LinkedList (α : Type u) where
  elements : List (Element α)
  next : Nat
  nodup : (elements.map Element.ref).Nodup
  fresh : ∀ e ∈ elements, e.ref < next

namespace LinkedList

/-- `list.New`. -/
def new : LinkedList α := ⟨[], 0, List.nodup_nil, by simp⟩

def values (l : LinkedList α) : List α := l.elements.map Element.value

def pushBack (l : LinkedList α) (value : α) : LinkedList α where
  elements := l.elements ++ [⟨l.next, value⟩]
  next := l.next + 1
  nodup := by
    rw [List.map_append, List.nodup_append']
    refine ⟨l.nodup, List.nodup_singleton _, fun ref href hnew => ?_⟩
    obtain ⟨e, he, rfl⟩ := List.mem_map.mp href
    have hlt := l.fresh e he
    have heq : e.ref = l.next := by simpa using hnew
    omega
  fresh := by
    intro e he
    rcases List.mem_append.mp he with he | he
    · have hlt := l.fresh e he
      omega
    · rw [List.mem_singleton.mp he]
      exact Nat.lt_succ_self _

def remove (l : LinkedList α) (e : Element α) : LinkedList α where
  elements := l.elements.filter fun other => other.ref ≠ e.ref
  next := l.next
  nodup := l.nodup.sublist (List.filter_sublist.map _)
  fresh other hother := l.fresh other (List.mem_filter.mp hother).1

@[simp] theorem values_pushBack (l : LinkedList α) (value : α) :
    (l.pushBack value).values = l.values ++ [value] := by
  simp [values, pushBack]

/-- An element is found by its reference. -/
theorem eq_of_ref {l : LinkedList α} {e e' : Element α} (he : e ∈ l.elements)
    (he' : e' ∈ l.elements) (href : e.ref = e'.ref) : e = e' :=
  List.inj_on_of_nodup_map l.nodup he he' href

/-- What is left after several elements were removed one after the other. -/
theorem removeAll_elements (failed : List (Element α)) (l : LinkedList α) :
    (failed.foldl remove l).elements =
      l.elements.filter fun e => decide (e.ref ∉ failed.map Element.ref) := by
  induction failed generalizing l with
  | nil => simp
  | cons e failed ih =>
    rw [List.foldl_cons, ih, remove, List.filter_filter]
    apply List.filter_congr
    intro other _
    by_cases heq : other.ref = e.ref
    · simp [heq]
    · simp [heq]

/-- The elements that satisfy `p` are removed one after the other. -/
theorem removeAll_filter (l : LinkedList α) (p : Element α → Bool) :
    ((l.elements.filter p).foldl remove l).elements = l.elements.filter fun e => !p e := by
  rw [removeAll_elements]
  apply List.filter_congr
  intro e he
  -- a reference is among those of the removed elements when its own element is
  have href : e.ref ∈ (l.elements.filter p).map Element.ref ↔ p e = true := by
    constructor
    · intro hmem
      obtain ⟨e', he', heq⟩ := List.mem_map.mp hmem
      have hsub := List.mem_filter.mp he'
      rw [← eq_of_ref hsub.1 he heq]
      exact hsub.2
    · intro hp
      exact List.mem_map_of_mem (List.mem_filter.mpr ⟨he, hp⟩)
  simp only [href]
  cases p e <;> rfl

/-- One element is removed, whose value is that of no other. -/
theorem values_remove [DecidableEq α] {l : LinkedList α} (hvalues : l.values.Nodup)
    {e : Element α} (he : e ∈ l.elements) : (l.remove e).values = l.values.erase e.value := by
  rw [hvalues.erase_eq_filter, values, values, List.filter_map, remove]
  congr 1
  apply List.filter_congr
  intro other hother
  by_cases heq : other = e
  · simp [heq]
  · have href : other.ref ≠ e.ref := fun h => heq (eq_of_ref hother he h)
    have hvalue : other.value ≠ e.value :=
      fun h => heq (List.inj_on_of_nodup_map hvalues hother he h)
    simp [href, hvalue]

end LinkedList

end Go

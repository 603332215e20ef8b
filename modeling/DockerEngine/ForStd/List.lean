import Mathlib.Algebra.GroupWithZero.Nat
import Mathlib.Data.List.Basic
import Mathlib.Data.List.Count
import Mathlib.Data.List.Induction
import Mathlib.Data.List.Nodup

/-!
# Lists indexed by the threads of a system

A pool of threads is a list, a thread is picked by its position and put back with
`List.set` or dropped with `List.eraseIdx`. Counting and membership are easier on
the list cut at that position. A new thread goes to the end, where the positions of the
others stay the same. A list that is searched by a key finds each element when the keys
differ.
-/

namespace List

variable {α : Type u}

/-- Cut a list at a position: the updates at that position act on the middle. -/
theorem exists_cut {l : List α} {i : Nat} {a : α} (h : l[i]? = some a) :
    ∃ l₁ l₂, l = l₁ ++ a :: l₂ ∧ (∀ b, l.set i b = l₁ ++ b :: l₂) ∧ l.eraseIdx i = l₁ ++ l₂ := by
  induction l generalizing i with
  | nil => simp at h
  | cons x xs ih =>
    cases i with
    | zero =>
      simp only [getElem?_cons_zero, Option.some.injEq] at h
      subst h
      exact ⟨[], xs, rfl, fun _ => rfl, rfl⟩
    | succ i =>
      obtain ⟨l₁, l₂, rfl, hset, herase⟩ := ih (by simpa using h)
      exact ⟨x :: l₁, l₂, rfl, fun b => by simp [hset], by simp [herase]⟩

/-- What a list goes on with behind a position: the element at the position, and the rest. -/
theorem drop_eq_cons_iff {l t : List α} {i : Nat} {a : α} :
    l.drop i = a :: t ↔ l[i]? = some a ∧ l.drop (i + 1) = t := by
  constructor
  · intro h
    rw [← head?_drop, ← drop_drop, h]
    exact ⟨rfl, rfl⟩
  · rintro ⟨hget, rfl⟩
    obtain ⟨hi, rfl⟩ := getElem?_eq_some_iff.mp hget
    exact drop_eq_getElem_cons hi

/-- What is found in a list with one more element was there, or is the new one. -/
theorem getElem?_concat_cases {l : List α} {i : Nat} {a b : α} (h : (l ++ [a])[i]? = some b) :
    l[i]? = some b ∨ (i = l.length ∧ b = a) := by
  by_cases hi : i < l.length
  · rw [getElem?_append_left hi] at h
    exact .inl h
  · have hle := Nat.le_of_not_lt hi
    have hlt := (getElem?_eq_some_iff.mp h).1
    rw [length_append, length_singleton] at hlt
    rw [getElem?_append_right hle] at h
    exact .inr ⟨by omega, mem_singleton.mp (mem_of_getElem? h)⟩

/-- What is found in a list is found in the list with one more element. -/
theorem getElem?_concat_of_some {l : List α} {i : Nat} {a b : α} (h : l[i]? = some b) :
    (l ++ [a])[i]? = some b := by
  rw [getElem?_append_left (getElem?_eq_some_iff.mp h).1]
  exact h

/-- What is found in a list with a replaced element is the new one, or was there. -/
theorem getElem?_set_cases {l : List α} {i j : Nat} {a b : α} (h : (l.set i a)[j]? = some b) :
    (j = i ∧ b = a) ∨ (j ≠ i ∧ l[j]? = some b) := by
  by_cases hji : j = i
  · subst hji
    have hlt := (getElem?_eq_some_iff.mp h).1
    rw [length_set] at hlt
    rw [getElem?_set_self hlt] at h
    exact .inl ⟨rfl, (Option.some.inj h).symm⟩
  · rw [getElem?_set_ne (Ne.symm hji)] at h
    exact .inr ⟨hji, h⟩

/-- The elements of a list, one position after the other. -/
theorem filterMap_range_getElem? (l : List α) :
    (range l.length).filterMap (fun i => l[i]?) = l := by
  induction l using reverseRecOn with
  | nil => rfl
  | append_singleton xs x ih =>
    have hxs : (range xs.length).filterMap (fun i => (xs ++ [x])[i]?) = xs := by
      calc (range xs.length).filterMap (fun i => (xs ++ [x])[i]?)
        _ = (range xs.length).filterMap (fun i => xs[i]?) :=
          filterMap_congr fun i hi => getElem?_append_left (mem_range.mp hi)
        _ = xs := ih
    rw [length_append, length_singleton, range_succ, filterMap_append, hxs]
    simp

/-- Replacing an element by one with the same image changes nothing in the images. -/
theorem map_set_of_eq {β : Type v} {f : α → β} {l : List α} {i : Nat} {a b : α}
    (h : l[i]? = some a) (hf : f b = f a) : (l.set i b).map f = l.map f := by
  induction l generalizing i with
  | nil => rfl
  | cons x xs ih =>
    cases i with
    | zero =>
      simp only [getElem?_cons_zero, Option.some.injEq] at h
      rw [set_cons_zero, map_cons, map_cons, hf, h]
    | succ i =>
      rw [getElem?_cons_succ] at h
      rw [set_cons_succ, map_cons, map_cons, ih h]

/-- In a list whose keys differ, an element is found under its key. -/
theorem find?_key_of_mem {β : Type v} [DecidableEq β] {f : α → β} {l : List α}
    (h : (l.map f).Nodup) {a : α} (ha : a ∈ l) : l.find? (fun x => f x = f a) = some a := by
  cases hfind : l.find? fun x => f x = f a with
  | none =>
    have hno := find?_eq_none.mp hfind a ha
    simp at hno
  | some x =>
    have hx := mem_of_find?_eq_some hfind
    have hkey : f x = f a := by simpa using find?_some hfind
    rw [inj_on_of_nodup_map h hx ha hkey]

/-- In an association list whose keys differ, `lookup` finds each entry. -/
theorem lookup_of_mem {β : Type v} [BEq α] [LawfulBEq α] {l : List (α × β)}
    (h : (l.map Prod.fst).Nodup) {k : α} {v : β} (hmem : (k, v) ∈ l) : l.lookup k = some v := by
  obtain ⟨l₁, l₂, rfl⟩ := append_of_mem hmem
  refine lookup_eq_some_iff.mpr ⟨l₁, l₂, rfl, fun entry hentry => ?_⟩
  rw [map_append, nodup_append] at h
  have hne := h.2.2 _ (mem_map_of_mem hentry) k (by simp)
  simpa using Ne.symm hne

section

variable {p : α → Bool} {l : List α} {i : Nat} {a b : α}

/-- Replacing one element moves a count by what the two elements differ in. -/
theorem countP_set_add (h : l[i]? = some a) :
    (l.set i b).countP p + (if p a then 1 else 0) = l.countP p + (if p b then 1 else 0) := by
  obtain ⟨l₁, l₂, rfl, hset, -⟩ := exists_cut h
  simp only [hset, countP_append, countP_cons]
  omega

/-- Replacing one element moves a sum by what the two elements differ in. -/
theorem sum_map_set_add (f : α → Nat) (h : l[i]? = some a) :
    ((l.set i b).map f).sum + f a = (l.map f).sum + f b := by
  obtain ⟨l₁, l₂, rfl, hset, -⟩ := exists_cut h
  simp only [hset, map_append, map_cons, sum_append, sum_cons]
  omega

/-- If at most one element satisfies `p`, two that do are equal. -/
theorem eq_of_countP_le_one (hcount : l.countP p ≤ 1) (ha : a ∈ l) (hb : b ∈ l) (hpa : p a = true)
    (hpb : p b = true) : a = b := by
  rw [countP_eq_length_filter] at hcount
  have ha' : a ∈ l.filter p := mem_filter.mpr ⟨ha, hpa⟩
  have hb' : b ∈ l.filter p := mem_filter.mpr ⟨hb, hpb⟩
  obtain ⟨c, hc⟩ := length_eq_one_iff.mp (Nat.le_antisymm hcount (length_pos_of_mem ha'))
  rw [hc, mem_singleton] at ha' hb'
  rw [ha', hb']

/-- If at most one element satisfies `p` and it is replaced, no other one does. -/
theorem eq_or_not_of_mem_set (hcount : l.countP p ≤ 1) (h : l[i]? = some a) (ha : p a = true)
    {c : α} (hc : c ∈ l.set i b) : c = b ∨ p c = false := by
  obtain ⟨l₁, l₂, rfl, hset, -⟩ := exists_cut h
  simp only [countP_append, countP_cons, ha, if_true] at hcount
  rw [hset] at hc
  -- the one element with `p` is the one that was replaced
  have hnone : ∀ l' : List α, l'.countP p = 0 → c ∈ l' → p c = false := by
    intro l' h0 hmem
    exact Bool.eq_false_iff.mpr (countP_eq_zero.mp h0 c hmem)
  rcases mem_append.mp hc with hc | hc
  · exact .inr (hnone l₁ (by omega) hc)
  rcases mem_cons.mp hc with hc | hc
  · exact .inl hc
  · exact .inr (hnone l₂ (by omega) hc)

end

/-- Where lists are put one behind the other, and their elements have the key of their list, the
    elements with a key are those of its list. -/
theorem filter_flatMap_key {κ : Type v} [DecidableEq κ] {ks : List κ} {f : κ → List α}
    {key : α → κ} (hkeys : ks.Nodup) (hkey : ∀ k ∈ ks, ∀ a ∈ f k, key a = k) {k : κ}
    (hk : k ∈ ks) : (ks.flatMap f).filter (fun a => key a = k) = f k := by
  have hothers : ∀ ks' : List κ, (∀ k' ∈ ks', k' ∈ ks ∧ k' ≠ k) →
      (ks'.flatMap f).filter (fun a => key a = k) = [] := by
    intro ks' hks'
    rw [filter_eq_nil_iff]
    intro a ha
    obtain ⟨k', hk', ha⟩ := mem_flatMap.mp ha
    rw [hkey k' (hks' k' hk').1 a ha, decide_eq_true_eq]
    exact (hks' k' hk').2
  obtain ⟨before, after, rfl⟩ := append_of_mem hk
  obtain ⟨-, hafter, hdisjoint⟩ := nodup_append.mp hkeys
  rw [flatMap_append, flatMap_cons, filter_append, filter_append, hothers before, hothers after,
    nil_append, append_nil, filter_eq_self]
  · intro a ha
    rw [hkey k hk a ha, decide_eq_true_eq]
  · intro k' hk'
    refine ⟨mem_append_right _ (mem_cons_of_mem _ hk'), ?_⟩
    rintro rfl
    exact (nodup_cons.mp hafter).1 hk'
  · intro k' hk'
    exact ⟨mem_append_left _ hk', hdisjoint k' hk' k mem_cons_self⟩

/-- A list is gone through to decide, and not the type of its elements. -/
theorem forall_mem_of_all {p : α → Prop} [DecidablePred p] {l : List α}
    (h : l.all (fun a => decide (p a)) = true) : ∀ a ∈ l, p a := by
  simpa using h

/-- A list whose elements pass is cut off before one that does not. -/
theorem takeWhile_append_of_head {p : α → Bool} {l l' : List α} (h : ∀ a ∈ l, p a = true)
    (h' : l'.head?.any p = false) :
    (l ++ l').takeWhile p = l ∧ (l ++ l').dropWhile p = l' := by
  rw [takeWhile_append_of_pos h, dropWhile_append_of_pos h]
  cases l' with
  | nil => simp
  | cons a l' =>
    have ha : p a = false := h'
    simp [ha]

end List

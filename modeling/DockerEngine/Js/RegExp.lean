import DockerEngine.ForStd.List
import Mathlib.Logic.Relation
import Mathlib.Tactic.Common

/-!
# Regular expressions

A matcher that backtracks, as ECMAScript has it. A position lies between two characters, or at
an end of the text. What a pattern gives at a position are the positions where it can end, in
the order in which the matcher tries them, so that a quantifier takes as much as it can; the
match is the first of them.

- `Pattern.mem_plus`: what a repeated pattern can match
- `Pattern.replaceAll_assertion`: a global `replace` of a pattern that matches the empty text only
-/

namespace RegExp

variable {α : Type u}

inductive Pattern (α : Type u) where
  | empty
  /-- one character of a class -/
  | unit (p : α → Bool)
  | seq (a b : Pattern α)
  /-- `(a)+` -/
  | plus (a : Pattern α)
  /-- `(?=a)` -/
  | ahead (a : Pattern α)
  /-- `(?!a)` -/
  | notAhead (a : Pattern α)
  /-- `\B`, for the characters of words -/
  | notBoundary (word : α → Bool)

namespace Pattern

/-- `a{n}` -/
def times (a : Pattern α) : Nat → Pattern α
  | 0 => empty
  | n + 1 => seq a (a.times n)

/-- At most `n` more rounds of a quantifier, none of which may match the empty text. -/
def rounds (next : Nat → List Nat) : Nat → Nat → List Nat
  | 0, i => [i]
  | n + 1, i => ((next i).filter (· ≠ i)).flatMap (rounds next n) ++ [i]

/-- Where the pattern can end when it begins at position `i`. -/
def ends (s : List α) : Pattern α → Nat → List Nat
  | empty, i => [i]
  | unit p, i => if s[i]?.any p then [i + 1] else []
  | seq a b, i => (a.ends s i).flatMap (b.ends s)
  -- every round goes on, so there are no more rounds than characters
  | plus a, i => (a.ends s i).flatMap (rounds (a.ends s) s.length)
  | ahead a, i => if (a.ends s i).isEmpty then [] else [i]
  | notAhead a, i => if (a.ends s i).isEmpty then [i] else []
  | notBoundary word, i =>
    if (s.take i).getLast?.any word = s[i]?.any word then [i] else []

/-- `exec`: the first match at `lastIndex` or behind it. -/
def exec (r : Pattern α) (s : List α) (lastIndex : Nat) : Option (Nat × Nat) :=
  (List.range' lastIndex (s.length + 1 - lastIndex)).findSome? fun i =>
    (r.ends s i).head?.map fun j => (i, j)

/-- At most `n` matches in turn. The search goes on at the end of a match, or one further when the
    match is empty. -/
def matchesFrom (r : Pattern α) (s : List α) : Nat → Nat → List (Nat × Nat)
  | 0, _ => []
  | n + 1, lastIndex =>
    match r.exec s lastIndex with
    | none => []
    | some (i, j) => (i, j) :: r.matchesFrom s n (if j = i then j + 1 else j)

/-- The text from `next` on, with the matches replaced. -/
def substitute (s text : List α) : Nat → List (Nat × Nat) → List α
  | next, [] => s.drop next
  | next, (i, j) :: found => (s.drop next).take (i - next) ++ text ++ substitute s text j found

/-- `s.replace(/r/g, text)`, for a text without `$`. There is at most one match for each
    position. -/
def replaceAll (r : Pattern α) (s text : List α) : List α :=
  substitute s text 0 (r.matchesFrom s (s.length + 1) 0)

variable {s : List α} {a b r : Pattern α} {i j : Nat}

/-! ## Where a pattern can end -/

@[simp] theorem mem_empty : j ∈ (empty : Pattern α).ends s i ↔ j = i := List.mem_singleton

@[simp] theorem mem_unit {p : α → Bool} :
    j ∈ (unit p).ends s i ↔ s[i]?.any p = true ∧ j = i + 1 := by
  show j ∈ (if s[i]?.any p then [i + 1] else []) ↔ _
  split <;> simp_all

@[simp] theorem mem_seq : j ∈ (seq a b).ends s i ↔ ∃ k, k ∈ a.ends s i ∧ j ∈ b.ends s k :=
  List.mem_flatMap

@[simp] theorem mem_ahead : j ∈ (ahead a).ends s i ↔ (∃ k, k ∈ a.ends s i) ∧ j = i := by
  show j ∈ (if (a.ends s i).isEmpty then [] else [i]) ↔ _
  cases a.ends s i <;> simp

@[simp] theorem mem_notAhead : j ∈ (notAhead a).ends s i ↔ (∀ k, k ∉ a.ends s i) ∧ j = i := by
  show j ∈ (if (a.ends s i).isEmpty then [i] else []) ↔ _
  cases a.ends s i <;> simp [forall_and]

@[simp] theorem mem_notBoundary {word : α → Bool} : j ∈ (notBoundary word).ends s i ↔
    (s.take i).getLast?.any word = s[i]?.any word ∧ j = i := by
  show j ∈ (if (s.take i).getLast?.any word = s[i]?.any word then [i] else []) ↔ _
  split <;> simp_all

/-- A matcher that goes on stays in the text. -/
def Forward (s : List α) (next : Nat → List Nat) : Prop :=
  ∀ i j, j ∈ next i → i ≤ j ∧ j ≤ max i s.length

/-- As many rounds as there are characters are enough: every round but an empty one goes on. -/
theorem mem_rounds {next : Nat → List Nat} (hnext : Forward s next) {n : Nat}
    (hn : s.length ≤ i + n) :
    j ∈ rounds next n i ↔ Relation.ReflTransGen (fun i j => j ∈ next i) i j := by
  constructor
  · intro h
    clear hn
    induction n generalizing i with
    | zero =>
      rw [rounds, List.mem_singleton] at h
      rw [h]
    | succ n ih =>
      rw [rounds, List.mem_append, List.mem_flatMap, List.mem_singleton] at h
      obtain ⟨k, hk, hj⟩ | rfl := h
      · exact .head (List.mem_filter.mp hk).1 (ih hj)
      · exact .refl
  · intro h
    induction h using Relation.ReflTransGen.head_induction_on generalizing n with
    | refl => cases n <;> simp [rounds]
    | @head i k hk _ ih =>
      by_cases hki : k = i
      -- an empty round can be left out
      · subst hki
        exact ih hn
      · obtain ⟨hle, hmax⟩ := hnext i k hk
        obtain ⟨n, rfl⟩ : ∃ m, n = m + 1 := ⟨n - 1, by omega⟩
        rw [rounds, List.mem_append, List.mem_flatMap]
        refine .inl ⟨k, List.mem_filter.mpr ⟨hk, by simpa using hki⟩, ih (by omega)⟩

/-- No pattern looks back, and none ends behind the text. -/
theorem forward_ends (s : List α) (r : Pattern α) : Forward s (r.ends s) := by
  induction r with
  | empty =>
    intro i j h
    rw [mem_empty] at h
    omega
  | unit p =>
    intro i j h
    obtain ⟨hany, rfl⟩ := mem_unit.mp h
    obtain ⟨c, hc, -⟩ := (Option.any_eq_true _ _).mp hany
    have hlt := (List.getElem?_eq_some_iff.mp hc).1
    omega
  | seq a b iha ihb =>
    intro i j h
    obtain ⟨k, hk, hj⟩ := mem_seq.mp h
    have hik := iha i k hk
    have hkj := ihb k j hj
    omega
  | plus a ih =>
    intro i j h
    replace h := List.mem_flatMap.mp h
    obtain ⟨k, hk, hj⟩ := h
    have hik := ih i k hk
    rw [mem_rounds ih (by omega)] at hj
    induction hj with
    | refl => exact hik
    | tail _ hstep ihj =>
      have hjl := ih _ _ hstep
      omega
  | ahead a _ =>
    intro i j h
    have heq := (mem_ahead.mp h).2
    omega
  | notAhead a _ =>
    intro i j h
    have heq := (mem_notAhead.mp h).2
    omega
  | notBoundary word =>
    intro i j h
    have heq := (mem_notBoundary.mp h).2
    omega

/-- One match of the repeated pattern after the other. -/
theorem mem_plus :
    j ∈ (plus a).ends s i ↔ Relation.TransGen (fun i j => j ∈ a.ends s i) i j := by
  rw [Relation.TransGen.head'_iff]
  apply List.mem_flatMap.trans
  exact exists_congr fun k => and_congr_right fun _ => mem_rounds (forward_ends s a) (by omega)

/-- After the first match, the end or another one. -/
theorem mem_plus_iff_exists :
    j ∈ (plus a).ends s i ↔ ∃ k, k ∈ a.ends s i ∧ (j = k ∨ j ∈ (plus a).ends s k) := by
  simp only [mem_plus]
  rw [Relation.TransGen.head'_iff]
  exact exists_congr fun k => and_congr_right fun _ => Relation.reflTransGen_iff_eq_or_transGen

/-! ## Assertions -/

/-- The pattern matches here. -/
def matchesAt (r : Pattern α) (s : List α) (i : Nat) : Bool := !(r.ends s i).isEmpty

theorem matchesAt_iff : r.matchesAt s i = true ↔ ∃ j, j ∈ r.ends s i := by
  simp [matchesAt, List.eq_nil_iff_forall_not_mem]

/-- The pattern matches the empty text only. -/
def IsAssertion (r : Pattern α) : Prop := ∀ s i j, j ∈ r.ends s i → j = i

theorem isAssertion_ahead (a : Pattern α) : (ahead a).IsAssertion := fun _ _ _ h =>
  (mem_ahead.mp h).2

theorem isAssertion_notBoundary (word : α → Bool) : (notBoundary word).IsAssertion :=
  fun _ _ _ h => (mem_notBoundary.mp h).2

theorem IsAssertion.seq (ha : a.IsAssertion) (hb : b.IsAssertion) : (seq a b).IsAssertion := by
  intro s i j h
  obtain ⟨k, hk, hj⟩ := mem_seq.mp h
  exact (hb s k j hj).trans (ha s i k hk)

theorem exec_of_gt (hi : s.length < i) : r.exec s i = none := by
  rw [exec, Nat.sub_eq_zero_of_le hi]
  rfl

/-- The match at the position itself comes before all others. -/
theorem exec_eq (hi : i ≤ s.length) :
    r.exec s i = ((r.ends s i).head?.map fun j => (i, j)).or (r.exec s (i + 1)) := by
  obtain ⟨n, hn⟩ : ∃ n, s.length + 1 - i = n + 1 := ⟨s.length - i, by omega⟩
  have hn' : s.length + 1 - (i + 1) = n := by omega
  rw [exec, exec, hn, hn', List.range'_succ, List.findSome?_cons]
  cases (r.ends s i).head? <;> rfl

theorem exec_of_not_matchesAt (hi : i ≤ s.length) (hnot : r.matchesAt s i = false) :
    r.exec s i = r.exec s (i + 1) := by
  rw [matchesAt, Bool.not_eq_false', List.isEmpty_iff] at hnot
  rw [exec_eq hi, hnot]
  rfl

theorem IsAssertion.exec_of_matchesAt (hr : r.IsAssertion) (hi : i ≤ s.length)
    (hmatch : r.matchesAt s i = true) : r.exec s i = some (i, i) := by
  rw [exec_eq hi]
  cases hends : r.ends s i with
  | nil => simp [matchesAt, hends] at hmatch
  | cons j js =>
    have hj : j = i := hr s i j (hends ▸ List.mem_cons_self)
    simp [hj]

theorem matchesFrom_of_gt (hi : s.length < i) (n : Nat) : r.matchesFrom s n i = [] := by
  cases n with
  | zero => rfl
  | succ n => rw [matchesFrom, exec_of_gt hi]

theorem matchesFrom_of_not_matchesAt (hi : i ≤ s.length) (hnot : r.matchesAt s i = false)
    (n : Nat) : r.matchesFrom s (n + 1) i = r.matchesFrom s (n + 1) (i + 1) := by
  rw [matchesFrom, matchesFrom, exec_of_not_matchesAt hi hnot]

theorem IsAssertion.matchesFrom_of_matchesAt (hr : r.IsAssertion) (hi : i ≤ s.length)
    (hmatch : r.matchesAt s i = true) (n : Nat) :
    r.matchesFrom s (n + 1) i = (i, i) :: r.matchesFrom s n (i + 1) := by
  simp [matchesFrom, hr.exec_of_matchesAt hi hmatch]

/-- The text, with another one before each position at which `here` holds; the first character
    stands behind position `i`. -/
def insertAt (text : List α) (here : Nat → Bool) : Nat → List α → List α
  | i, [] => if here i then text else []
  | i, c :: s => (if here i then text else []) ++ c :: insertAt text here (i + 1) s

/-- A search that goes on at position `i`, after a match that ended at `next`. -/
theorem IsAssertion.substitute_matchesFrom (hr : r.IsAssertion) {text : List α} {n next : Nat}
    (hn : s.length < i + n) (hnext : next ≤ i) (hi : i ≤ s.length) :
    substitute s text next (r.matchesFrom s n i) =
      (s.drop next).take (i - next) ++ insertAt text (r.matchesAt s) i (s.drop i) := by
  -- Induction on the rest of the text
  generalize hrest : s.drop i = rest
  induction rest generalizing i n next with
  | nil =>
    have hlen := List.drop_eq_nil_iff.mp hrest
    obtain ⟨n, rfl⟩ : ∃ m, n = m + 1 := ⟨n - 1, by omega⟩
    cases hmatch : r.matchesAt s i with
    | true =>
      rw [hr.matchesFrom_of_matchesAt hi hmatch, matchesFrom_of_gt (by omega)]
      simp [substitute, insertAt, hmatch, hrest]
    | false =>
      have htake : (s.drop next).take (i - next) = s.drop next :=
        List.take_of_length_le (by rw [List.length_drop]; omega)
      rw [matchesFrom_of_not_matchesAt hi hmatch, matchesFrom_of_gt (by omega), htake]
      simp [substitute, insertAt, hmatch]
  | cons c rest ih =>
    obtain ⟨hget, hdrop⟩ := List.drop_eq_cons_iff.mp hrest
    have hlt := (List.getElem?_eq_some_iff.mp hget).1
    obtain ⟨n, rfl⟩ : ∃ m, n = m + 1 := ⟨n - 1, by omega⟩
    cases hmatch : r.matchesAt s i with
    -- the next match begins at `i + 1`, but the text goes on at `i`
    | true =>
      have hone : (s.drop i).take (i + 1 - i) = [c] := by simp [hrest]
      rw [hr.matchesFrom_of_matchesAt hi hmatch, substitute,
        ih (by omega) (Nat.le_succ i) hlt hdrop, hone, insertAt, if_pos hmatch]
      simp
    | false =>
      have htake : (s.drop next).take (i + 1 - next) = (s.drop next).take (i - next) ++ [c] := by
        rw [Nat.sub_add_comm hnext, List.take_add_one, List.getElem?_drop,
          Nat.add_sub_cancel' hnext, hget]
        rfl
      rw [matchesFrom_of_not_matchesAt hi hmatch, ih (by omega) (by omega) hlt hdrop, htake,
        insertAt, hmatch]
      simp

/-- A `replace` of an assertion puts the text wherever the assertion holds. -/
theorem IsAssertion.replaceAll_eq (hr : r.IsAssertion) (s text : List α) :
    r.replaceAll s text = insertAt text (r.matchesAt s) 0 s := by
  rw [replaceAll, hr.substitute_matchesFrom (by omega) (Nat.le_refl 0) (Nat.zero_le _)]
  rfl

end Pattern

end RegExp

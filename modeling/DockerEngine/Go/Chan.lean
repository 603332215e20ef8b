import DockerEngine.Go.Outcome
import Mathlib.Data.Multiset.AddSub
import Mathlib.Data.Multiset.UnionInter
import Mathlib.Algebra.Order.Group.Multiset
import Mathlib.Tactic.Abel

/-!
# Buffered channels, and pools kept in them

A buffered channel is a first-in first-out queue that never holds more than its
capacity; the bound is a field, so a channel over its capacity cannot be built.
`trySend` and `tryRecv` are the two forms of `select` with a `default` branch,
`send` is the plain send statement when no other goroutine uses the channel.

A channel often serves as a pool: it is filled once, values are taken out of it
and later put back. `Leased P c out` says that the values now in the pool `c` and
the values `out` of it account for the original stock `P`. A value that was taken
from a pool can always be put back.
-/

/-- A buffered channel. -/
structure Chan (α : Type u) where
  cap : Nat
  queue : List α
  bounded : queue.length ≤ cap

namespace Chan

variable {α : Type u}

/-- `make(chan α, cap)`. -/
def make (cap : Nat) : Chan α := ⟨cap, [], Nat.zero_le _⟩

/-- `select { case c <- a: ...; default: ... }`; `none` is the default branch. -/
def trySend (c : Chan α) (a : α) : Option (Chan α) :=
  if h : c.queue.length < c.cap then
    some ⟨c.cap, c.queue ++ [a], by rw [List.length_append]; exact h⟩
  else none

/-- `select { case a := <-c: ...; default: ... }`; `none` is the default branch. -/
def tryRecv (c : Chan α) : Option (α × Chan α) :=
  match h : c.queue with
  | [] => none
  | a :: q => some (a, ⟨c.cap, q, by have := c.bounded; rw [h, List.length_cons] at this; omega⟩)

/-- `c <- a` with no receiver in sight: it blocks for ever on a full channel. -/
def send (c : Chan α) (a : α) : Outcome (Chan α) :=
  match c.trySend a with
  | some c' => .ret c'
  | none => .block

theorem trySend_eq_some {c c' : Chan α} {a : α} (h : c.trySend a = some c') :
    c'.cap = c.cap ∧ c'.queue = c.queue ++ [a] := by
  simp only [trySend] at h
  split at h
  · cases h; exact ⟨rfl, rfl⟩
  · simp at h

theorem trySend_eq_none {c : Chan α} {a : α} :
    c.trySend a = none ↔ c.cap ≤ c.queue.length := by
  simp only [trySend]
  split <;> simp <;> omega

theorem tryRecv_eq_some {c c' : Chan α} {a : α} (h : c.tryRecv = some (a, c')) :
    c'.cap = c.cap ∧ c.queue = a :: c'.queue := by
  simp only [tryRecv] at h
  split at h
  · simp at h
  · next heq =>
    cases h
    exact ⟨rfl, heq⟩

theorem tryRecv_eq_none {c : Chan α} : c.tryRecv = none ↔ c.queue = [] := by
  simp only [tryRecv]
  split <;> simp [*]

theorem send_eq_ret {c c' : Chan α} {a : α} (h : c.send a = .ret c') :
    c'.cap = c.cap ∧ c'.queue = c.queue ++ [a] := by
  simp only [send] at h
  split at h
  · next heq => cases h; exact trySend_eq_some heq
  · simp at h

/-! ## Pools -/

/-- The pool `c` and the values `out` taken from it make up the stock `P`, and the
    channel has room for all of `P`. -/
structure Leased (P : Multiset α) (c : Chan α) (out : Multiset α) : Prop where
  balance : (c.queue : Multiset α) + out = P
  room : P.card ≤ c.cap

namespace Leased

variable {P out : Multiset α} {c c' : Chan α} {a : α}

/-- A channel just filled holds its whole stock. -/
theorem full (c : Chan α) : Leased (c.queue : Multiset α) c 0 :=
  ⟨add_zero _, by simpa using c.bounded⟩

/-- Taking a value moves it from the pool to `out`. -/
theorem tryRecv (h : Leased P c out) (hr : c.tryRecv = some (a, c')) :
    Leased P c' (a ::ₘ out) := by
  obtain ⟨hcap, hq⟩ := tryRecv_eq_some hr
  refine ⟨?_, hcap ▸ h.room⟩
  have hb := h.balance
  rw [hq, ← Multiset.cons_coe] at hb
  rw [← hb, Multiset.add_cons, Multiset.cons_add]

/-- A value of `out` can always be put back: the pool has room for it. -/
theorem trySend (h : Leased P c (a ::ₘ out)) :
    ∃ c', c.trySend a = some c' ∧ Leased P c' out := by
  cases hs : c.trySend a with
  | none =>
    have hfull := trySend_eq_none.mp hs
    have hcard := congrArg Multiset.card h.balance
    have hroom := h.room
    simp only [Multiset.card_add, Multiset.coe_card, Multiset.card_cons] at hcard
    omega
  | some c' =>
    obtain ⟨hcap, hq⟩ := trySend_eq_some hs
    refine ⟨c', rfl, ?_, hcap ▸ h.room⟩
    have hb := h.balance
    rw [hq, ← Multiset.coe_add, Multiset.coe_singleton, add_assoc, Multiset.singleton_add]
    exact hb

/-- A stock without duplicates is never handed out twice. -/
theorem nodup (h : Leased P c out) (hP : P.Nodup) :
    c.queue.Nodup ∧ out.Nodup ∧ ∀ a ∈ c.queue, a ∉ out := by
  rw [← h.balance, Multiset.nodup_add] at hP
  exact ⟨hP.1, hP.2.1, fun a hc ho => Multiset.disjoint_left.mp hP.2.2 hc ho⟩

/-- With nothing out, the pool is a permutation of its stock. -/
theorem perm_of_none_out {q : List α} (h : Leased (q : Multiset α) c 0) : c.queue.Perm q := by
  have := h.balance
  rw [add_zero] at this
  exact Multiset.coe_eq_coe.mp this

end Leased

end Chan

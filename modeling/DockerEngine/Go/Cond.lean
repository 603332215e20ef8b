import Mathlib.Tactic.Common

/-!
# Condition variables (Go's `sync.Cond`)

A condition variable with its mutex: the goroutine that holds the mutex, and those that
sleep on the condition. `wait` puts the caller to sleep and releases the mutex in one
step; a goroutine that was woken is no longer in the list and takes the mutex again
before its `Wait` returns. The functions are partial: `none` when the caller has to wait
or does not hold the mutex.
-/

/-- A mutex and the goroutines asleep on its condition. -/
structure Cond (τ : Type u) where
  owner : Option τ
  sleeping : List τ
  deriving DecidableEq, Repr

namespace Cond

variable {τ : Type u} {c c' : Cond τ} {t : τ}

/-- `sync.NewCond`. -/
def new : Cond τ := ⟨none, []⟩

def lock (c : Cond τ) (t : τ) : Option (Cond τ) :=
  if c.owner = none then some { c with owner := some t } else none

def broadcast (c : Cond τ) : Cond τ := { c with sleeping := [] }

/-- `Signal` wakes the goroutine that has slept longest. -/
def signal (c : Cond τ) : Cond τ := { c with sleeping := c.sleeping.tail }

theorem lock_eq_some (h : c.lock t = some c') :
    c.owner = none ∧ c' = ⟨some t, c.sleeping⟩ := by
  unfold lock at h
  split at h
  · next hfree => cases h; exact ⟨hfree, rfl⟩
  · simp at h

variable [DecidableEq τ]

def unlock (c : Cond τ) (t : τ) : Option (Cond τ) :=
  if c.owner = some t then some { c with owner := none } else none

/-- The first half of `Wait`: fall asleep and release the mutex. -/
def wait (c : Cond τ) (t : τ) : Option (Cond τ) :=
  if c.owner = some t then some ⟨none, c.sleeping ++ [t]⟩ else none

/-- The second half of `Wait`: a goroutine that was woken takes the mutex again. -/
def wake (c : Cond τ) (t : τ) : Option (Cond τ) :=
  if t ∈ c.sleeping then none else c.lock t

theorem unlock_eq_some (h : c.unlock t = some c') :
    c.owner = some t ∧ c' = ⟨none, c.sleeping⟩ := by
  unfold unlock at h
  split at h
  · next hown => cases h; exact ⟨hown, rfl⟩
  · simp at h

theorem wait_eq_some (h : c.wait t = some c') :
    c.owner = some t ∧ c' = ⟨none, c.sleeping ++ [t]⟩ := by
  unfold wait at h
  split at h
  · next hown => cases h; exact ⟨hown, rfl⟩
  · simp at h

theorem wake_eq_some (h : c.wake t = some c') :
    t ∉ c.sleeping ∧ c.owner = none ∧ c' = ⟨some t, c.sleeping⟩ := by
  unfold wake at h
  split at h
  · simp at h
  · next hawake => exact ⟨hawake, lock_eq_some h⟩

end Cond

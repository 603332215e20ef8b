/-!
# How a Go call ends

A call returns, panics (an index out of range, a nil pointer), or blocks for ever
on a channel nobody else uses. Errors are ordinary return values, so a function
that can fail returns an `Except` or an `Option` inside `ret`.
-/

/-- The end of a call: `ret a`, a panic, or waiting for ever. -/
inductive Outcome (α : Type u) where
  | ret (a : α)
  | panic
  | block
  deriving DecidableEq, Repr

namespace Outcome

variable {α : Type u} {β : Type v}

/-- Sequencing: what follows a call runs only when the call returned. -/
protected def bind : Outcome α → (α → Outcome β) → Outcome β
  | ret a, f => f a
  | panic, _ => panic
  | block, _ => block

instance : Monad Outcome where
  pure := ret
  bind := Outcome.bind

@[simp] theorem pure_eq_ret {α : Type u} (a : α) : (pure a : Outcome α) = ret a := rfl

@[simp] theorem ret_bind {α β : Type u} (a : α) (f : α → Outcome β) : (ret a >>= f) = f a := rfl

@[simp] theorem panic_bind {α β : Type u} (f : α → Outcome β) : (panic >>= f) = panic := rfl

@[simp] theorem block_bind {α β : Type u} (f : α → Outcome β) : (block >>= f) = block := rfl

/-- A sequence returned exactly when both parts did. -/
theorem bind_eq_ret {α β : Type u} {x : Outcome α} {f : α → Outcome β} {b : β} :
    (x >>= f) = ret b ↔ ∃ a, x = ret a ∧ f a = ret b := by
  cases x with
  | ret a => simp
  | panic => simp
  | block => simp

/-- The value returned, if the call returned. -/
def toOption : Outcome α → Option α
  | ret a => some a
  | panic => none
  | block => none

@[simp] theorem toOption_ret (a : α) : (ret a).toOption = some a := rfl

@[simp] theorem toOption_panic : (panic : Outcome α).toOption = none := rfl

@[simp] theorem toOption_block : (block : Outcome α).toOption = none := rfl

theorem toOption_eq_some {x : Outcome α} {a : α} : x.toOption = some a ↔ x = ret a := by
  cases x <;> simp [toOption]

end Outcome

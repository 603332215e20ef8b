/-!
# When a computation in `Except` succeeds

A chain of computations succeeds exactly when each of them does, on what the ones before it
have returned; else its error is that of the first one that does not.
-/

namespace Except

variable {ε : Type u} {α β : Type v}

theorem bind_isOk {x : Except ε α} {f : α → Except ε β} :
    (∃ b, x >>= f = .ok b) ↔ ∃ a, x = .ok a ∧ ∃ b, f a = .ok b := by
  cases x with
  | error err => simp [bind, Except.bind]
  | ok a => simp [bind, Except.bind]

theorem bind_eq_error {x : Except ε α} {f : α → Except ε β} {err : ε} :
    x >>= f = .error err ↔ x = .error err ∨ ∃ a, x = .ok a ∧ f a = .error err := by
  cases x with
  | error err => simp [bind, Except.bind]
  | ok a => simp [bind, Except.bind]

theorem mapM_isOk {f : α → Except ε β} {as : List α} :
    (∃ bs, as.mapM f = .ok bs) ↔ ∀ a ∈ as, ∃ b, f a = .ok b := by
  induction as with
  | nil => simp [pure, Except.pure]
  | cons a as ih =>
    rw [List.mapM_cons, bind_isOk, List.forall_mem_cons, ← ih]
    constructor
    · rintro ⟨b, hb, hbs⟩
      obtain ⟨bs, hbs, -⟩ := bind_isOk.mp hbs
      exact ⟨⟨b, hb⟩, bs, hbs⟩
    · rintro ⟨⟨b, hb⟩, bs, hbs⟩
      exact ⟨b, hb, bind_isOk.mpr ⟨bs, hbs, b :: bs, rfl⟩⟩

theorem forM_isOk {f : α → Except ε PUnit} {as : List α} :
    (∃ u, as.forM f = .ok u) ↔ ∀ a ∈ as, ∃ u, f a = .ok u := by
  induction as with
  | nil => simp [pure, Except.pure]
  | cons a as ih =>
    show (∃ u, (f a >>= fun _ => as.forM f) = .ok u) ↔ _
    rw [bind_isOk, List.forall_mem_cons, ← ih]
    constructor
    · rintro ⟨u, hu, has⟩
      exact ⟨⟨u, hu⟩, has⟩
    · rintro ⟨⟨u, hu⟩, has⟩
      exact ⟨u, hu, has⟩

theorem forM_eq_error {f : α → Except ε PUnit} {as : List α} {err : ε}
    (h : as.forM f = .error err) : ∃ a ∈ as, f a = .error err := by
  induction as with
  | nil => cases h
  | cons a as ih =>
    rcases bind_eq_error.mp h with ha | ⟨_, -, has⟩
    · exact ⟨a, List.mem_cons_self, ha⟩
    · obtain ⟨a', hmem, ha'⟩ := ih has
      exact ⟨a', List.mem_cons_of_mem a hmem, ha'⟩

end Except

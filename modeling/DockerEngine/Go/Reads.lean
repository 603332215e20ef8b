import Mathlib.Tactic.Common

/-!
# What an `io.Reader` has returned

A `Read` returns some bytes, an error, or both. `passed` is what is left of the bytes when those
that come together with an error are dropped.

- `passed_eq_bytes`: when that is all of them
-/

namespace Go

/-- The results of the calls of `Read` on one reader. -/
abbrev Reads (ε : Type u) := List (List UInt8 × Option ε)

namespace Reads

variable {ε : Type u}

/-- All bytes that were returned. -/
def bytes (reads : Reads ε) : List UInt8 := reads.flatMap Prod.fst

/-- The bytes that were returned without an error. -/
def passed (reads : Reads ε) : List UInt8 :=
  reads.flatMap fun read => if read.2 = none then read.1 else []

/-- The first error. -/
def error (reads : Reads ε) : Option ε := reads.findSome? Prod.snd

/-- Errors come without bytes. -/
def Separate (reads : Reads ε) : Prop := ∀ read ∈ reads, read.2 ≠ none → read.1 = []

@[simp] theorem passed_nil : passed ([] : Reads ε) = [] := rfl

@[simp] theorem error_nil : error ([] : Reads ε) = none := rfl

@[simp] theorem passed_append_data (reads : Reads ε) (b : List UInt8) :
    passed (reads ++ [(b, none)]) = reads.passed ++ b := by
  simp [passed]

@[simp] theorem passed_append_error (reads : Reads ε) (b : List UInt8) (err : ε) :
    passed (reads ++ [(b, some err)]) = reads.passed := by
  simp [passed]

@[simp] theorem error_append (reads : Reads ε) (b : List UInt8) (err : Option ε) :
    error (reads ++ [(b, err)]) = reads.error.or err := by
  cases err <;> simp [error, List.findSome?_append]

theorem Separate.append {reads : Reads ε} (h : reads.Separate) {b : List UInt8} {err : Option ε}
    (hread : err ≠ none → b = []) : Separate (reads ++ [(b, err)]) := by
  intro read hmem
  rcases List.mem_append.mp hmem with hmem | hmem
  · exact h read hmem
  · rw [List.mem_singleton.mp hmem]
    exact hread

theorem Separate.of_append {reads reads' : Reads ε} (h : Separate (reads ++ reads')) :
    reads.Separate :=
  fun read hmem => h read (List.mem_append_left _ hmem)

theorem passed_length_le (reads : Reads ε) : reads.passed.length ≤ reads.bytes.length := by
  induction reads with
  | nil => simp [passed, bytes]
  | cons read reads ih =>
    simp only [passed, bytes, List.flatMap_cons, List.length_append] at ih ⊢
    split
    · omega
    · simp only [List.length_nil]
      omega

/-- Nothing is dropped when the errors come without bytes. -/
theorem passed_eq_bytes (reads : Reads ε) : reads.passed = reads.bytes ↔ reads.Separate := by
  induction reads with
  | nil => simp [passed, bytes, Separate]
  | cons read reads ih =>
    obtain ⟨b, err⟩ := read
    have hle := passed_length_le reads
    simp only [passed, bytes, Separate, List.flatMap_cons, List.forall_mem_cons] at ih hle ⊢
    cases err with
    | none => simpa using ih
    | some err =>
      simp only [reduceCtorEq, if_false, List.nil_append, ne_eq, not_false_eq_true, true_imp_iff]
      constructor
      · intro heq
        -- the bytes of this read are missing, and nothing makes up for them
        have hlength := congrArg List.length heq
        rw [List.length_append] at hlength
        have hb : b = [] := List.eq_nil_of_length_eq_zero (by omega)
        subst hb
        exact ⟨rfl, ih.mp heq⟩
      · rintro ⟨rfl, hreads⟩
        exact ih.mpr hreads

end Reads

end Go

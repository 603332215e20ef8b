import Mathlib.Tactic.Common

/-!
# Pipes of the operating system

A pipe holds at most `capacity` bytes. A write blocks while the pipe is full and moves its bytes
in parts, as room comes up; a read takes some of the bytes that are there.
-/

/-- The bytes that are in a pipe. -/
structure OsPipe (capacity : Nat) where
  content : List UInt8
  fits : content.length ≤ capacity
  deriving DecidableEq, Repr

namespace OsPipe

variable {capacity : Nat} {p p' : OsPipe capacity} {b : List UInt8} {k : Nat}

def empty : OsPipe capacity := ⟨[], Nat.zero_le _⟩

/-- No byte of a write can be moved. -/
def Full (p : OsPipe capacity) : Prop := p.content.length = capacity

instance : Decidable p.Full := inferInstanceAs (Decidable (_ = _))

/-- The first `k` bytes of the write `b` are moved; at least one. -/
def put (p : OsPipe capacity) (b : List UInt8) (k : Nat) : Option (OsPipe capacity) :=
  if h : b.take k ≠ [] ∧ (p.content ++ b.take k).length ≤ capacity then
    some ⟨p.content ++ b.take k, h.2⟩
  else none

/-- A read gets `k` bytes; at least one. -/
def get (p : OsPipe capacity) (k : Nat) : Option (List UInt8 × OsPipe capacity) :=
  if 0 < k ∧ k ≤ p.content.length then
    some (p.content.take k, ⟨p.content.drop k, by
      have := p.fits
      rw [List.length_drop]
      omega⟩)
  else none

@[simp] theorem empty_content : (empty : OsPipe capacity).content = [] := rfl

theorem put_eq_some (h : p.put b k = some p') :
    b.take k ≠ [] ∧ p'.content = p.content ++ b.take k := by
  unfold put at h
  split at h
  · next hfits => cases h; exact ⟨hfits.1, rfl⟩
  · simp at h

theorem get_eq_some {c : List UInt8} (h : p.get k = some (c, p')) :
    c ≠ [] ∧ c ++ p'.content = p.content := by
  unfold get at h
  split at h
  · next hk =>
    cases h
    refine ⟨fun hnil => ?_, List.take_append_drop k p.content⟩
    rcases List.take_eq_nil_iff.mp hnil with h0 | hempty
    · omega
    · simp only [hempty, List.length_nil] at hk
      omega
  · simp at h

/-- A pipe that is not full takes the next byte. -/
theorem exists_put (hb : b ≠ []) (hfull : ¬p.Full) : ∃ p', p.put b 1 = some p' := by
  have hfits := p.fits
  unfold Full at hfull
  unfold put
  refine ⟨_, dif_pos ⟨?_, ?_⟩⟩
  · simp [List.take_eq_nil_iff, hb]
  · rw [List.length_append, List.length_take]
    omega

/-- A pipe that is not empty has a byte. -/
theorem exists_get (hcontent : p.content ≠ []) : ∃ c p', p.get 1 = some (c, p') := by
  have hlength := List.length_pos_iff.mpr hcontent
  unfold get
  exact ⟨_, _, if_pos ⟨Nat.one_pos, hlength⟩⟩

end OsPipe

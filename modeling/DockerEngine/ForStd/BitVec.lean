import Mathlib.Data.Nat.Find
import Mathlib.Algebra.Order.Group.Nat

/-!
# Masks

A mask keeps the bits of a word that are set in it. The words that agree with a word under
the mask have a least one, in which all other bits are cleared, and a greatest one, in which
they are set. All words between the two agree with it when the mask is contiguous, that is
when its ones are on top of its zeros, and only then.
-/

namespace BitVec

variable {w : Nat} {m : BitVec w}

/-- Setting the other bits is adding them to what the mask keeps. -/
theorem or_not_eq_add (x m : BitVec w) : x ||| ~~~m = (x &&& m) + ~~~m := by
  have hdisjoint : (x &&& m) &&& ~~~m = 0#w := by
    ext i hi
    cases hm : m[i] <;> simp [hm]
  rw [add_eq_or_of_and_eq_zero _ _ hdisjoint]
  ext i hi
  cases hm : m[i] <;> simp [hm]

/-- The sum does not overflow. -/
theorem or_not_toNat (x m : BitVec w) :
    (x ||| ~~~m).toNat = (x &&& m).toNat + (~~~m).toNat := by
  have hm := m.isLt
  have hle : (x &&& m).toNat ≤ m.toNat := by
    rw [toNat_and]
    exact Nat.and_le_right
  rw [or_not_eq_add, toNat_add, toNat_not]
  exact Nat.mod_eq_of_lt (by omega)

/-! ## Contiguous masks -/

/-- Above a one there are only ones. -/
def Contiguous (m : BitVec w) : Prop :=
  ∀ i j, i ≤ j → j < w → m.getLsbD i = true → m.getLsbD j = true

theorem contiguous_shiftLeft (k : Nat) : (allOnes w <<< k).Contiguous := by
  intro i j hij hj hi
  simp only [getLsbD_shiftLeft, getLsbD_allOnes] at hi ⊢
  simp only [Bool.and_eq_true, Bool.not_eq_eq_eq_not, Bool.not_true, decide_eq_true_eq,
    decide_eq_false_iff_not] at hi ⊢
  omega

/-- A contiguous mask is given by the number of its zeros. -/
theorem Contiguous.eq_shiftLeft (h : m.Contiguous) : ∃ k ≤ w, m = allOnes w <<< k := by
  by_cases hone : ∃ i, m.getLsbD i = true
  · -- the lowest one
    have hlow := Nat.find_spec hone
    have hmin : ∀ i, m.getLsbD i = true → Nat.find hone ≤ i := fun i hi => Nat.find_min' hone hi
    refine ⟨Nat.find hone, Nat.le_of_lt (lt_of_getLsbD hlow), ?_⟩
    ext j hj
    rw [← getLsbD_eq_getElem]
    by_cases hlt : j < Nat.find hone
    · have hzero : m.getLsbD j = false := by
        by_contra hne
        have hle := hmin j (Bool.eq_true_of_not_eq_false hne)
        omega
      rw [hzero]
      simp [hlt]
    · rw [h _ j (Nat.le_of_not_lt hlt) hj hlow]
      simp [hlt, getElem_shiftLeft]
  · refine ⟨w, Nat.le_refl w, ?_⟩
    rw [shiftLeft_eq_zero (Nat.le_refl w)]
    ext j hj
    rw [← getLsbD_eq_getElem, getElem_zero]
    by_contra hne
    exact hone ⟨j, Bool.eq_true_of_not_eq_false hne⟩

/-- A contiguous mask clears the low bits. -/
theorem and_shiftLeft_toNat (x : BitVec w) (k : Nat) :
    (x &&& allOnes w <<< k).toNat = x.toNat / 2 ^ k * 2 ^ k := by
  have hshift : x &&& allOnes w <<< k = (x >>> k) <<< k := by
    ext i hi
    simp only [getElem_and, getElem_shiftLeft, getElem_ushiftRight, getElem_allOnes]
    by_cases h : i < k
    · simp [h]
    · have hsub : k + (i - k) = i := by omega
      simp [h, hsub, getLsbD_eq_getElem hi]
  have hx := x.isLt
  have hle := Nat.div_mul_le_self x.toNat (2 ^ k)
  rw [hshift, toNat_shiftLeft, toNat_ushiftRight, Nat.shiftRight_eq_div_pow, Nat.shiftLeft_eq,
    Nat.mod_eq_of_lt (by omega)]

/-- Its complement is the low bits. -/
theorem not_shiftLeft_toNat {k : Nat} (hk : k ≤ w) :
    (~~~(allOnes w <<< k)).toNat = 2 ^ k - 1 := by
  apply Nat.eq_of_testBit_eq
  intro i
  rw [testBit_toNat, Nat.testBit_two_pow_sub_one, getLsbD_not, getLsbD_shiftLeft, getLsbD_allOnes]
  by_cases hi : i < k
  · have hw : i < w := by omega
    simp [hi, hw]
  · by_cases hw : i < w
    · have hsub : i - k < w := by omega
      simp [hi, hw, hsub]
    · simp [hi, hw]

/-! ## Words that agree under a mask -/

/-- Under a contiguous mask they are an interval. -/
theorem Contiguous.and_eq_and_iff (h : m.Contiguous) (x y : BitVec w) :
    x &&& m = y &&& m ↔
      (y &&& m).toNat ≤ x.toNat ∧ x.toNat ≤ (y ||| ~~~m).toNat := by
  obtain ⟨k, hk, rfl⟩ := h.eq_shiftLeft
  have hpos := Nat.two_pow_pos k
  have hdiv := Nat.div_add_mod' x.toNat (2 ^ k)
  have hmod := Nat.mod_lt x.toNat hpos
  rw [or_not_toNat, not_shiftLeft_toNat hk, ← toNat_inj, and_shiftLeft_toNat,
    and_shiftLeft_toNat]
  constructor
  · intro heq
    omega
  · rintro ⟨hfirst, hlast⟩
    rw [Nat.div_eq_of_lt_le hfirst (by rw [Nat.succ_mul]; omega)]

/-- Under any other mask some are not: a one below a zero gives a word between the two bounds
    that does not agree with zero. -/
theorem contiguous_iff_interval : m.Contiguous ↔ ∀ x y : BitVec w, x &&& m = y &&& m ↔
    (y &&& m).toNat ≤ x.toNat ∧ x.toNat ≤ (y ||| ~~~m).toNat := by
  refine ⟨Contiguous.and_eq_and_iff, fun h i j hij hj hi => ?_⟩
  by_contra hne
  have hzero : m.getLsbD j = false := Bool.eq_false_of_not_eq_true hne
  have hbit : (~~~m).toNat.testBit j = true := by
    rw [testBit_toNat, getLsbD_not, hzero]
    simp [hj]
  have hj2 : 2 ^ j ≤ (~~~m).toNat := Nat.ge_two_pow_of_testBit hbit
  have hi2 : 2 ^ i ≤ 2 ^ j := Nat.pow_le_pow_right Nat.two_pos hij
  have hpow : (twoPow w i).toNat = 2 ^ i := toNat_twoPow_of_lt (by omega)
  have hagree := (h (twoPow w i) 0#w).mpr (by
    rw [zero_and, zero_or, toNat_zero, hpow]
    omega)
  have hgets := congrArg (·.getLsbD i) hagree
  simp [hi] at hgets
  omega

end BitVec

import DockerEngine.Go.Str
import Mathlib

/-!
# The texts of numbers

The keys and the values of Go maps are often made by `strconv.Itoa`, as are the numbers in a
message.

- `itoa_injective`: different numbers have different texts
- `mem_itoa`, `mem_itoa_int`: the bytes of the text of a number
-/

namespace Go

theorem str_injective : Function.Injective str := by
  intro s t h
  apply String.toByteArray_inj.mp
  apply ByteArray.ext
  exact Array.toList_inj.mp h

theorem itoa_injective : Function.Injective itoa := fun _ _ h =>
  Int.repr_injective (str_injective h)

/-- The bytes of a string of ASCII characters. -/
theorem str_ofList {cs : List Char} (h : ∀ c ∈ cs, c.utf8Size = 1) :
    str (String.ofList cs) = cs.map fun c => c.val.toUInt8 := by
  have hencode : cs.flatMap String.utf8EncodeChar = cs.map fun c => c.val.toUInt8 := by
    induction cs with
    | nil => rfl
    | cons c cs ih =>
      rw [List.flatMap_cons, String.utf8EncodeChar_eq_singleton (h c List.mem_cons_self),
        ih fun d hd => h d (List.mem_cons_of_mem c hd)]
      rfl
  rw [← hencode]
  unfold str
  simp [String.toUTF8, List.utf8Encode]

/-- The digits of a number, as characters, are ASCII digits. -/
theorem toDigits_range {n : Nat} {c : Char} (h : c ∈ Nat.toDigits 10 n) :
    48 ≤ c.val ∧ c.val ≤ 57 := by
  have hdigit := Nat.isDigit_of_mem_toDigits (by decide) (Nat.le_refl 10) h
  simpa [Char.isDigit] using hdigit

theorem itoa_natCast (n : Nat) :
    itoa n = (Nat.toDigits 10 n).map fun c => c.val.toUInt8 :=
  str_ofList fun _ hc => Char.utf8Size_eq_one_iff.mpr
    (UInt32.le_trans (toDigits_range hc).2 (by decide))

/-- Every byte of the text of a natural number is a digit. -/
theorem mem_itoa {n : Nat} {c : UInt8} (h : c ∈ itoa n) : 48 ≤ c ∧ c ≤ 57 := by
  rw [itoa_natCast] at h
  obtain ⟨d, hd, rfl⟩ := List.mem_map.mp h
  have hrange := toDigits_range hd
  have hlo : 48 ≤ d.val.toNat := hrange.1
  have hhi : d.val.toNat ≤ 57 := hrange.2
  constructor
  · show 48 ≤ d.val.toUInt8.toNat
    rw [UInt32.toNat_toUInt8]
    omega
  · show d.val.toUInt8.toNat ≤ 57
    rw [UInt32.toNat_toUInt8]
    omega

theorem str_append (s t : String) : str (s ++ t) = str s ++ str t := by
  simp [str, String.toUTF8]

/-- A number has digits, and a sign if it is negative. -/
theorem mem_itoa_int {n : Int} {c : UInt8} (h : c ∈ itoa n) : c = 45 ∨ 48 ≤ c ∧ c ≤ 57 := by
  cases n with
  | ofNat n => exact .inr (mem_itoa h)
  | negSucc n =>
    have hneg : itoa (Int.negSucc n) = str "-" ++ itoa (n + 1 : Nat) := str_append "-" _
    rw [hneg] at h
    rcases List.mem_append.mp h with hsign | hdigit
    · exact .inl (List.mem_singleton.mp hsign)
    · exact .inr (mem_itoa hdigit)

theorem itoa_ne_nil (n : Nat) : itoa n ≠ [] := by
  rw [itoa_natCast]
  simp [Nat.toDigits_ne_nil]

end Go

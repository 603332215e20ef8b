/-!
# Go strings

A Go string is a sequence of bytes, and indexing and slicing count bytes, so a
string is a list of bytes here. `str` gives the bytes of a literal.
-/

abbrev GoString := List UInt8

/-- Strings are compared byte by byte. -/
instance : LawfulBEq GoString := inferInstanceAs (LawfulBEq (List UInt8))

namespace Go

/-- The bytes of a string literal. -/
def str (s : String) : GoString := s.toUTF8.data.toList

/-- `strconv.Itoa`. -/
def itoa (n : Int) : GoString := str (toString n)

/-- `strings.Join`. -/
def join (sep : GoString) (xs : List GoString) : GoString := sep.intercalate xs

/-- One lower-case hexadecimal digit. -/
def hexDigit (n : Nat) : UInt8 := UInt8.ofNat (if n < 10 then 48 + n else 87 + n)

/-- `fmt.Sprintf("%x", bs)`: two digits a byte. -/
def hex (bs : List UInt8) : GoString :=
  bs.flatMap fun b : UInt8 => [hexDigit (b.toNat / 16), hexDigit (b.toNat % 16)]

theorem hex_length (bs : List UInt8) : (hex bs).length = 2 * bs.length := by
  induction bs with
  | nil => rfl
  | cons b bs ih => simp only [hex, List.flatMap_cons, List.length_append] at ih ⊢; simp [ih]; omega

private theorem hexDigit_range : ∀ n < 16,
    (48 ≤ hexDigit n ∧ hexDigit n ≤ 57) ∨ (97 ≤ hexDigit n ∧ hexDigit n ≤ 102) := by
  decide

/-- Every byte of a `%x` rendering is one of `0`-`9` and `a`-`f`. -/
theorem mem_hex {bs : List UInt8} {c : UInt8} (h : c ∈ hex bs) :
    (48 ≤ c ∧ c ≤ 57) ∨ (97 ≤ c ∧ c ≤ 102) := by
  simp only [hex, List.mem_flatMap, List.mem_cons, List.not_mem_nil, or_false] at h
  obtain ⟨b, -, rfl | rfl⟩ := h
  · exact hexDigit_range _ (by have := b.toNat_lt; omega)
  · exact hexDigit_range _ (by omega)

end Go

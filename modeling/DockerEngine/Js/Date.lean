import DockerEngine.Js.Json
import Mathlib.Algebra.Group.Nat.Defs

/-!
# JavaScript dates

A `Date` is a time value, in milliseconds since the epoch, or NaN (an invalid date). All
comparisons with NaN are false.

- `toISOString_injective`: different dates have different texts
-/

namespace Js

/-- A `Date`; `none` is an invalid one. -/
abbrev Date := Option Int

/-- At least `width` decimal digits. -/
def padded (width n : Nat) : JsString :=
  (List.replicate (width - (Nat.toDigits 10 n).length) '0' ++ Nat.toDigits 10 n).flatMap utf16

namespace Date

/-- `new Date(value)`, for a date that was read from JSON. -/
def new : Property Int → Date
  | .absent => none
  | .null => some 0
  | .value t => some t

/-- `a < b`. -/
def lt : Date → Date → Bool
  | some a, some b => a < b
  | _, _ => false

/-- The year and the day of a day of an era. An era has 400 years that begin with March, so
    leap days are last. -/
def ofEra (n : Nat) : Nat × Nat :=
  let century := min (n / 36524) 3
  let ofCentury := n - 36524 * century
  let four := ofCentury / 1461
  let ofFour := ofCentury - 1461 * four
  let one := min (ofFour / 365) 3
  (100 * century + 4 * four + one, ofFour - 365 * one)

/-- The month, from March on, and the day of a day of such a year. -/
def monthDay (n : Nat) : Nat × Nat :=
  let month := (5 * n + 2) / 153
  (month, n - (153 * month + 2) / 5 + 1)

/-- Year, month and day of a day that is counted from the epoch. -/
def civil (days : Int) : Int × Nat × Nat :=
  let z := days + 719468
  let (year, ofYear) := ofEra (z % 146097).toNat
  let (month, day) := monthDay ofYear
  (400 * (z / 146097) + year + if month < 10 then 0 else 1,
    if month < 10 then month + 3 else month - 9, day)

/-- A year, with a sign and six digits outside the years 0 to 9999. -/
def yearText (year : Int) : JsString :=
  if 0 ≤ year ∧ year ≤ 9999 then padded 4 year.toNat
  else (if year < 0 then js "-" else js "+") ++ padded 6 year.natAbs

/-- `toISOString` of the date with this time value. -/
def toISOString (t : Int) : JsString :=
  let (year, month, day) := civil (t / 86400000)
  let ms := (t % 86400000).toNat
  yearText year ++ js "-" ++ padded 2 month ++ js "-" ++ padded 2 day ++ js "T" ++
    padded 2 (ms / 3600000) ++ js ":" ++ padded 2 (ms / 60000 % 60) ++ js ":" ++
    padded 2 (ms / 1000 % 60) ++ js "." ++ padded 3 (ms % 1000) ++ js "Z"

/-- `toJSON`. -/
def toJson : Date → Json
  | none => .null
  | some t => .string (toISOString t)

/-! ## Calendar days -/

theorem ofEra_eq {n : Nat} (h : n < 146097) :
    (ofEra n).1 < 400 ∧ (ofEra n).2 < 366 ∧
      n = 365 * (ofEra n).1 + (ofEra n).1 / 4 - (ofEra n).1 / 100 + (ofEra n).2 := by
  simp only [ofEra]
  generalize hc : min (n / 36524) 3 = century
  generalize hn : n - 36524 * century = ofCentury
  generalize hf : ofCentury / 1461 = four
  generalize hr : ofCentury - 1461 * four = ofFour
  generalize ho : min (ofFour / 365) 3 = one
  have hcentury : (100 * century + 4 * four + one) / 100 = century := by omega
  have hfour : (100 * century + 4 * four + one) / 4 = 25 * century + four := by omega
  omega

theorem monthDay_lt {n : Nat} (h : n < 366) : (monthDay n).1 < 12 ∧ (monthDay n).2 < 32 := by
  simp only [monthDay]
  omega

theorem monthDay_eq (n : Nat) : n = (153 * (monthDay n).1 + 2) / 5 + (monthDay n).2 - 1 := by
  simp only [monthDay]
  omega

theorem civil_lt (days : Int) : (civil days).2.1 < 13 ∧ (civil days).2.2 < 32 := by
  have hyear := (ofEra_eq (n := ((days + 719468) % 146097).toNat) (by omega)).2.1
  have hmonth := monthDay_lt hyear
  simp only [civil]
  split <;> omega

theorem civil_injective : Function.Injective civil := by
  intro d d' h
  have hd := ofEra_eq (n := ((d + 719468) % 146097).toNat) (by omega)
  have hd' := ofEra_eq (n := ((d' + 719468) % 146097).toNat) (by omega)
  simp only [civil, Prod.mk.injEq] at h
  generalize ofEra ((d + 719468) % 146097).toNat = y at h hd
  generalize ofEra ((d' + 719468) % 146097).toNat = y' at h hd'
  have hm := monthDay_lt hd.2.1
  have hm' := monthDay_lt hd'.2.1
  have he := monthDay_eq y.2
  have he' := monthDay_eq y'.2
  obtain ⟨hyear, hmonth, hday⟩ := h
  -- only January and February belong to the year before, so the month is known
  have hmonth : (monthDay y.2).1 = (monthDay y'.2).1 := by
    split at hmonth <;> split at hmonth <;> omega
  rw [hmonth] at hyear he
  -- the day of the year, and with it the day of the era
  have hofYear : y.2 = y'.2 := by omega
  have hera : (d + 719468) / 146097 = (d' + 719468) / 146097 ∧ y.1 = y'.1 := by omega
  rw [hera.2, hofYear] at hd
  omega

/-! ## The text -/

/-- The number that some digits stand for. -/
def digitsValue (s : JsString) : Nat :=
  Nat.ofDigitChars 10 (s.map fun c => Char.ofNat c.toNat) 0

theorem map_flatMap_utf16 {s : List Char} (h : ∀ c ∈ s, c.toNat < 0x10000) :
    (s.flatMap utf16).map (fun c => Char.ofNat c.toNat) = s := by
  induction s with
  | nil => rfl
  | cons c s ih =>
    rw [List.forall_mem_cons] at h
    have hc : utf16 c = [c.toNat.toUInt16] := if_pos h.1
    rw [List.flatMap_cons, List.map_append, ih h.2, hc]
    simp [Nat.mod_eq_of_lt h.1]

/-- The characters of `padded` are digits. -/
theorem padded_chars {width n : Nat} {c : Char}
    (h : c ∈ List.replicate (width - (Nat.toDigits 10 n).length) '0' ++ Nat.toDigits 10 n) :
    c.toNat < 0x10000 := by
  rw [List.mem_append] at h
  obtain h | h := h
  · rw [List.eq_of_mem_replicate h]
    decide
  · have hdigit := Nat.isDigit_of_mem_toDigits (by omega) (by omega) h
    simp only [Char.isDigit, Bool.and_eq_true, decide_eq_true_eq] at hdigit
    have hle : c.toNat ≤ 57 := hdigit.2
    omega

theorem digitsValue_padded (width n : Nat) : digitsValue (padded width n) = n := by
  rw [digitsValue, padded, map_flatMap_utf16 fun c => padded_chars, Nat.ofDigitChars_append,
    Nat.ofDigitChars_replicate_zero, Nat.mul_zero, Nat.ofDigitChars_ten_toDigits]

theorem padded_inj {width n m : Nat} (h : padded width n = padded width m) : n = m := by
  rw [← digitsValue_padded width n, h, digitsValue_padded]

theorem length_padded (width n : Nat) :
    (padded width n).length = max width (Nat.toDigits 10 n).length := by
  rw [← List.length_map, padded, map_flatMap_utf16 fun c => padded_chars]
  simp
  omega

theorem padded_length {width n : Nat} (hwidth : 0 < width) (h : n < 10 ^ width) :
    (padded width n).length = width := by
  rw [length_padded, Nat.max_eq_left ((Nat.length_toDigits_le_iff (by omega) hwidth).mpr h)]

/-- A number of fixed width can be read off before a delimiter. -/
theorem append_padded_inj {width n m : Nat} {s s' delim : JsString} (hwidth : 0 < width)
    (hn : n < 10 ^ width) (hm : m < 10 ^ width)
    (h : s ++ padded width n ++ delim = s' ++ padded width m ++ delim) : s = s' ∧ n = m := by
  obtain ⟨hs, hpadded⟩ := List.append_inj' (List.append_cancel_right h)
    (by rw [padded_length hwidth hn, padded_length hwidth hm])
  exact ⟨hs, padded_inj hpadded⟩

theorem yearText_length {y : Int} :
    (yearText y).length = 4 ↔ 0 ≤ y ∧ y ≤ 9999 := by
  unfold yearText
  split
  · next hy => rw [padded_length] <;> omega
  · next hy =>
    refine iff_of_false ?_ hy
    rw [List.length_append, length_padded]
    split <;> simp [js, utf16] <;> omega

theorem yearText_injective : Function.Injective yearText := by
  intro y y' h
  have hlength : (0 ≤ y ∧ y ≤ 9999) ↔ (0 ≤ y' ∧ y' ≤ 9999) := by
    rw [← yearText_length, ← yearText_length, h]
  by_cases hy : 0 ≤ y ∧ y ≤ 9999
  · have hy' := hlength.mp hy
    rw [yearText, yearText, if_pos hy, if_pos hy'] at h
    have := padded_inj h
    omega
  · have hy' := mt hlength.mpr hy
    rw [yearText, yearText, if_neg hy, if_neg hy'] at h
    obtain ⟨hsign, habs⟩ := List.append_inj h (by split <;> split <;> rfl)
    have hsign : y < 0 ↔ y' < 0 := by
      split at hsign <;> split at hsign <;> first | omega | cases hsign
    have := padded_inj habs
    omega

/-- Different dates have different texts. -/
theorem toISOString_injective : Function.Injective toISOString := by
  intro t t' h
  have hlt := civil_lt (t / 86400000)
  have hlt' := civil_lt (t' / 86400000)
  simp only [toISOString] at h
  -- from the right, one number after the other
  obtain ⟨h, hms⟩ := append_padded_inj (by omega) (by omega) (by omega) h
  obtain ⟨h, hsec⟩ := append_padded_inj (by omega) (by omega) (by omega) h
  obtain ⟨h, hmin⟩ := append_padded_inj (by omega) (by omega) (by omega) h
  obtain ⟨h, hhour⟩ := append_padded_inj (by omega) (by omega) (by omega) h
  obtain ⟨h, hday⟩ := append_padded_inj (by omega) (Nat.lt_trans hlt.2 (by omega))
    (Nat.lt_trans hlt'.2 (by omega)) h
  obtain ⟨h, hmonth⟩ := append_padded_inj (by omega) (Nat.lt_trans hlt.1 (by omega))
    (Nat.lt_trans hlt'.1 (by omega)) h
  have hyear := yearText_injective (List.append_cancel_right h)
  have hdays : t / 86400000 = t' / 86400000 :=
    civil_injective (Prod.ext hyear (Prod.ext hmonth hday))
  omega

theorem toISOString_ne_nil (t : Int) : toISOString t ≠ [] := by
  simp [toISOString, js, utf16]

theorem toJson_ne_empty (d : Date) : d.toJson ≠ .string [] := by
  cases d with
  | none => nofun
  | some t => simp [toJson, toISOString_ne_nil]

theorem toJson_inj {d d' : Date} : d.toJson = d'.toJson ↔ d = d' := by
  cases d <;> cases d' <;> simp [toJson, toISOString_injective.eq_iff]

end Date

end Js

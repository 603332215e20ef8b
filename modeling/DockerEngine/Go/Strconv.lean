import DockerEngine.Go.Flag
import DockerEngine.Go.Itoa

/-!
# Reading numbers and booleans (Go's packages `strconv` and `flag`)

Numbers have 64 bits. In base 0 the base of a number is told by its prefix: `0x` for 16, `0` for
8, and otherwise 10. The kind of an error is left out: syntax and range are `none`.

- `parseInt_itoa`: the text of a number is read back, in base 10 and in base 0
- `parse_bool`: a boolean flag takes no argument
-/

namespace Go

/-- The value of a digit, in the bases up to 36. -/
def digitValue (c : UInt8) : Option Nat :=
  if 48 ≤ c ∧ c ≤ 57 then some (c.toNat - 48)
  else if 97 ≤ c ∧ c ≤ 122 then some (c.toNat - 87)
  else if 65 ≤ c ∧ c ≤ 90 then some (c.toNat - 55)
  else none

/-- The number that the digits stand for, behind digits that stand for `n`. -/
def digitsValue (base : Nat) (n : Nat) : GoString → Option Nat
  | [] => some n
  | c :: s => do
    let d ← digitValue c
    if d < base then digitsValue base (base * n + d) s else none

/-- The base that the prefix tells, and the digits. -/
def basePrefix (s : GoString) : Nat × GoString :=
  match s with
  | 48 :: c :: digits => if c = 120 ∨ c = 88 then (16, digits) else (8, s)
  | [48] => (8, s)
  | _ => (10, s)

/-- `strconv.ParseUint(s, base, 64)`. -/
def parseUint (s : GoString) (base : Nat) : Option Nat :=
  let (base, digits) := if base = 0 then basePrefix s else (base, s)
  if digits = [] then none
  else (digitsValue base 0 digits).filter fun n => n < 2 ^ 64

/-- `strconv.ParseInt(s, base, 64)`. -/
def parseInt (s : GoString) (base : Nat) : Option Int :=
  match s with
  | [] => none
  | c :: digits =>
    if c = 45 then
      (parseUint digits base).bind fun n => if n ≤ 2 ^ 63 then some (-n) else none
    else
      let digits := if c = 43 then digits else s
      (parseUint digits base).bind fun n => if n < 2 ^ 63 then some (n : Int) else none

/-- `strconv.Atoi`. -/
def atoi (s : GoString) : Option Int := parseInt s 10

/-- `strconv.ParseBool`. -/
def parseBool (s : GoString) : Option Bool :=
  if s ∈ ["1", "t", "T", "true", "TRUE", "True"].map str then some true
  else if s ∈ ["0", "f", "F", "false", "FALSE", "False"].map str then some false
  else none

/-- The numbers of type `int64`. -/
def IsInt64 (n : Int) : Prop := -2 ^ 63 ≤ n ∧ n < 2 ^ 63

instance (n : Int) : Decidable (IsInt64 n) :=
  inferInstanceAs (Decidable (-2 ^ 63 ≤ n ∧ n < 2 ^ 63))

/-! ## Reading the text of a number -/

/-- The text of a digit below ten. -/
theorem digitValue_digit {c : Char} (h : 48 ≤ c.val ∧ c.val ≤ 57) :
    digitValue c.val.toUInt8 = some (c.toNat - 48) := by
  have hlo : 48 ≤ c.val.toNat := h.1
  have hhi : c.val.toNat ≤ 57 := h.2
  have hval : c.val.toUInt8.toNat = c.val.toNat := by
    rw [UInt32.toNat_toUInt8]
    omega
  have hrange : 48 ≤ c.val.toUInt8 ∧ c.val.toUInt8 ≤ 57 := by
    constructor
    · show 48 ≤ c.val.toUInt8.toNat
      omega
    · show c.val.toUInt8.toNat ≤ 57
      omega
  rw [digitValue, if_pos hrange, hval]
  rfl

/-- Decimal digits are read as `Nat.ofDigitChars` reads them. -/
theorem digitsValue_digits (cs : List Char) (hcs : ∀ c ∈ cs, 48 ≤ c.val ∧ c.val ≤ 57) (n : Nat) :
    digitsValue 10 n (cs.map fun c => c.val.toUInt8) = some (Nat.ofDigitChars 10 cs n) := by
  induction cs generalizing n with
  | nil => rw [List.map_nil, digitsValue, Nat.ofDigitChars_nil]
  | cons c cs ih =>
    have hc := hcs c List.mem_cons_self
    have hlt : c.toNat - 48 < 10 := by
      have hhi : c.toNat ≤ 57 := hc.2
      omega
    rw [List.map_cons, digitsValue, digitValue_digit hc, Nat.ofDigitChars_cons]
    show (if c.toNat - 48 < 10 then _ else none) = _
    rw [if_pos hlt]
    exact ih (fun d hd => hcs d (List.mem_cons_of_mem c hd)) _

theorem digitsValue_itoa (n : Nat) : digitsValue 10 0 (itoa n) = some n := by
  rw [itoa_natCast, digitsValue_digits _ fun _ => toDigits_range, Nat.ofDigitChars_ten_toDigits]

/-- A number that is not zero has no leading zero. -/
theorem head_toDigits {n : Nat} (hn : n ≠ 0) : (Nat.toDigits 10 n).head? ≠ some '0' := by
  induction n using Nat.strongRecOn with
  | ind n ih =>
    by_cases hlt : n < 10
    · rw [Nat.toDigits_of_lt_base hlt]
      have hdigit : ∀ m < 10, m ≠ 0 → [m.digitChar].head? ≠ some '0' := by decide
      exact hdigit n hlt hn
    · have hdiv : n / 10 ≠ 0 := by omega
      rw [Nat.toDigits_of_base_le (by decide) (by omega),
        List.head?_append_of_ne_nil _ Nat.toDigits_ne_nil]
      exact ih (n / 10) (by omega) hdiv

/-- No prefix tells another base than ten, for a number that is not zero. -/
theorem basePrefix_itoa {n : Nat} (hn : n ≠ 0) : basePrefix (itoa n) = (10, itoa n) := by
  have hhead := head_toDigits hn
  have hrange : ∀ c ∈ Nat.toDigits 10 n, 48 ≤ c.val ∧ c.val ≤ 57 := fun _ => toDigits_range
  have hne : Nat.toDigits 10 n ≠ [] := Nat.toDigits_ne_nil
  rw [itoa_natCast]
  cases hdigits : Nat.toDigits 10 n with
  | nil => exact absurd hdigits hne
  | cons c cs =>
    rw [hdigits] at hhead hrange
    have hc : c.val.toUInt8 ≠ 48 := by
      intro h
      have hlo : 48 ≤ c.val.toNat := (hrange c List.mem_cons_self).1
      have hhi : c.val.toNat ≤ 57 := (hrange c List.mem_cons_self).2
      have hval := congrArg UInt8.toNat h
      rw [UInt32.toNat_toUInt8] at hval
      have h48 : c.val.toNat = 48 := by
        have h8 : (48 : UInt8).toNat = 48 := rfl
        omega
      apply hhead
      rw [List.head?_cons]
      congr 1
      exact Char.ext (UInt32.toNat_inj.mp h48)
    rw [List.map_cons, basePrefix]
    · exact fun _ _ h => hc (List.cons.inj h).1
    · exact fun h => hc (List.cons.inj h).1

theorem parseUint_itoa {n : Nat} {base : Nat} (hbase : base = 10 ∨ base = 0) (hn : n < 2 ^ 64) :
    parseUint (itoa n) base = some n := by
  have hdec : ∀ b digits, digitsValue b 0 digits = some n → digits ≠ [] →
      (if digits = [] then none else (digitsValue b 0 digits).filter fun n => n < 2 ^ 64) =
        some n := by
    intro b digits hvalue hne
    rw [if_neg hne, hvalue, Option.filter_some, if_pos (by simpa using hn)]
  rcases hbase with rfl | rfl
  · exact hdec 10 (itoa n) (digitsValue_itoa n) (itoa_ne_nil n)
  · by_cases hzero : n = 0
    · subst hzero
      rfl
    · rw [parseUint, if_pos rfl, basePrefix_itoa hzero]
      exact hdec 10 (itoa n) (digitsValue_itoa n) (itoa_ne_nil n)

/-- The text of a number is read back. -/
theorem parseInt_itoa {n : Int} {base : Nat} (hbase : base = 10 ∨ base = 0) (hn : IsInt64 n) :
    parseInt (itoa n) base = some n := by
  obtain ⟨hlo, hhi⟩ := hn
  cases n with
  | ofNat m =>
    have hm : m < 2 ^ 63 := by
      have h : (m : Int) < 2 ^ 63 := hhi
      omega
    cases hdigits : itoa (Int.ofNat m) with
    | nil => exact absurd hdigits (itoa_ne_nil m)
    | cons c s =>
      -- the first byte is a digit, so there is no sign
      have hc := mem_itoa (n := m) (c := c) (by
        show c ∈ itoa (Int.ofNat m)
        rw [hdigits]
        exact List.mem_cons_self)
      have hminus : c ≠ 45 := by
        rintro rfl
        exact absurd hc.1 (by decide)
      have hplus : c ≠ 43 := by
        rintro rfl
        exact absurd hc.1 (by decide)
      have huint : parseUint (c :: s) base = some m := by
        rw [← hdigits]
        exact parseUint_itoa hbase (by omega)
      simp only [parseInt, if_neg hminus, if_neg hplus, huint, Option.bind_some, if_pos hm]
      rfl
  | negSucc m =>
    have hneg : itoa (Int.negSucc m) = 45 :: itoa (m + 1 : Nat) := str_append "-" _
    have hm : m + 1 ≤ 2 ^ 63 := by omega
    have huint := parseUint_itoa (n := m + 1) hbase (by omega)
    rw [hneg]
    simp only [parseInt, if_true, huint, Option.bind_some, if_pos hm]
    rfl

theorem atoi_itoa {n : Int} (hn : IsInt64 n) : atoi (itoa n) = some n :=
  parseInt_itoa (.inl rfl) hn

/-! ## Flags that are no strings -/

/-- A flag made by `flag.Bool`. -/
def Flag.bool : Flag := ⟨true, fun value => (parseBool value).isSome⟩

/-- A flag made by `flag.Int64` or `flag.Int`. -/
def Flag.int64 : Flag := ⟨false, fun value => (parseInt value 0).isSome⟩

/-- The value of a boolean flag. -/
def Parsed.boolValue (p : Parsed) (name : GoString) (default : Bool) : Bool :=
  (((p.sets.filter fun s => s.1 = name).getLast?.map Prod.snd).bind parseBool).getD default

/-- The value of a flag made by `flag.Int64`. -/
def Parsed.intValue (p : Parsed) (name : GoString) (default : Int) : Int :=
  (((p.sets.filter fun s => s.1 = name).getLast?.map Prod.snd).bind fun value =>
    parseInt value 0).getD default

/-- A boolean flag without `=` is set to true, and takes no argument. -/
theorem parse_bool (flags : FlagSet) {c : UInt8} (hdash : c ≠ dash) (heq : c ≠ equals)
    (hflag : flags [c] = some .bool) (args : List GoString) :
    flags.parse ([dash, c] :: args) = (flags.parse args).map (.cons [c] (str "true")) := by
  have hbody : flagBody [dash, c] = some [c] := by
    simp [flagBody, hdash]
  have hcut : cutValue [c] = ([c], none) := by
    simp [cutValue, heq]
  have hclass : flags.classify [dash, c] = .set [c] (str "true") := by
    simp only [FlagSet.classify, hbody, hdash, heq, or_self, if_false, hcut, hflag]
    rfl
  rw [FlagSet.parse, hclass]

end Go

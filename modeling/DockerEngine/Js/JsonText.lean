import DockerEngine.ForStd.List
import DockerEngine.Js.Json
import Mathlib.Tactic.Common

/-!
# JSON texts

`JSON.stringify`, and the reading of a JSON text. A string is quoted with the escapes of
ES2019, where a surrogate that is not half of a pair is escaped as well.

- `readString_quoteUnits`, `readValue_stringify`: what is written is read back
-/

namespace Js

/-! ## Writing -/

def isHigh (c : UInt16) : Bool := 0xD800 ≤ c && c ≤ 0xDBFF

def isLow (c : UInt16) : Bool := 0xDC00 ≤ c && c ≤ 0xDFFF

def hexDigit (n : Nat) : UInt16 := (if n < 10 then 48 + n else 87 + n).toUInt16

/-- `\uXXXX` -/
def unicodeEscape (c : UInt16) : JsString :=
  let n := c.toNat
  js "\\u" ++ [hexDigit (n / 4096), hexDigit (n / 256 % 16), hexDigit (n / 16 % 16),
    hexDigit (n % 16)]

/-- A code unit that is not half of a pair of surrogates. -/
def escapeUnit (c : UInt16) : JsString :=
  if c = 8 then js "\\b"
  else if c = 9 then js "\\t"
  else if c = 10 then js "\\n"
  else if c = 12 then js "\\f"
  else if c = 13 then js "\\r"
  else if c = 34 then js "\\\""
  else if c = 92 then js "\\\\"
  else if c < 32 || isHigh c || isLow c then unicodeEscape c
  else [c]

/-- The characters of a quoted string; `paired` after the first half of a pair of surrogates. -/
def quoteUnits (paired : Bool) : JsString → JsString
  | [] => []
  | c :: s =>
    let begins := !paired && isHigh c && s.head?.any isLow
    (if paired || begins then [c] else escapeUnit c) ++ quoteUnits begins s

/-- `QuoteJSONString` -/
def quote (s : JsString) : JsString := 34 :: quoteUnits false s ++ [34]

mutual

/-- `JSON.stringify` -/
def stringify : Json → JsString
  | .null => js "null"
  | .bool b => if b then js "true" else js "false"
  | .number n => n.text
  | .string s => quote s
  | .array elems => 91 :: stringifyElems [] elems ++ [93]
  | .object members => 123 :: stringifyMembers [] members ++ [125]

def stringifyElems (sep : JsString) : List Json → JsString
  | [] => []
  | v :: vs => sep ++ stringify v ++ stringifyElems [44] vs

def stringifyMembers (sep : JsString) : List (JsString × Json) → JsString
  | [] => []
  | (key, v) :: members =>
    sep ++ quote key ++ [58] ++ stringify v ++ stringifyMembers [44] members

end

mutual

/-- The strings in a value, names of members among them, in the order of its text. -/
def Json.strings : Json → List JsString
  | .null | .bool _ | .number _ => []
  | .string s => [s]
  | .array elems => stringsElems elems
  | .object members => stringsMembers members

def stringsElems : List Json → List JsString
  | [] => []
  | v :: vs => v.strings ++ stringsElems vs

def stringsMembers : List (JsString × Json) → List JsString
  | [] => []
  | (key, v) :: members => key :: v.strings ++ stringsMembers members

end

/-! ## Reading -/

def isSpace (c : UInt16) : Bool := c = 32 || c = 9 || c = 10 || c = 13

def skipSpace (s : JsString) : JsString := s.dropWhile isSpace

/-- A token of one character. -/
def expect (c : UInt16) (s : JsString) : Option JsString :=
  match skipSpace s with
  | [] => none
  | d :: s => if d = c then some s else none

def hexValue (c : UInt16) : Option Nat :=
  if 48 ≤ c && c ≤ 57 then some (c.toNat - 48)
  else if 65 ≤ c && c ≤ 70 then some (c.toNat - 55)
  else if 97 ≤ c && c ≤ 102 then some (c.toNat - 87)
  else none

/-- The code unit of four hexadecimal digits. -/
def hexUnit (a b c d : UInt16) : Option UInt16 := do
  let a ← hexValue a
  let b ← hexValue b
  let c ← hexValue c
  let d ← hexValue d
  return (4096 * a + 256 * b + 16 * c + d).toUInt16

/-- What a character stands for after a backslash. -/
def unescape (c : UInt16) : Option UInt16 :=
  if c = 34 || c = 47 || c = 92 then some c
  else if c = 98 then some 8
  else if c = 102 then some 12
  else if c = 110 then some 10
  else if c = 114 then some 13
  else if c = 116 then some 9
  else none

/-- A string behind its opening quote, and what comes after its closing quote. -/
def readString : JsString → Option (JsString × JsString)
  | [] => none
  | 92 :: 117 :: a :: b :: c :: d :: s =>
    (hexUnit a b c d).bind fun u => (readString s).map fun (t, rest) => (u :: t, rest)
  | 92 :: e :: s => (unescape e).bind fun u => (readString s).map fun (t, rest) => (u :: t, rest)
  | c :: s =>
    if c = 34 then some ([], s)
    else if c < 32 || c = 92 then none
    else (readString s).map fun (t, rest) => (c :: t, rest)

/-- A character of a number, or of a name. -/
def isWordUnit (c : UInt16) : Bool :=
  isDecimal c || (65 ≤ c && c ≤ 90) || (97 ≤ c && c ≤ 122) || c = 43 || c = 45 || c = 46

def wordValue (word : JsString) : Option Json :=
  if word = js "null" then some .null
  else if word = js "true" then some (.bool true)
  else if word = js "false" then some (.bool false)
  else if h : isNumber .start word then some (.number ⟨word, h⟩)
  else none

mutual

/-- A value, and what comes after it. The fuel is for the depth. -/
def readValue : Nat → JsString → Option (Json × JsString)
  | 0, _ => none
  | n + 1, s =>
    match skipSpace s with
    | [] => none
    | c :: s =>
      if c = 34 then (readString s).map fun (t, rest) => (.string t, rest)
      else if c = 91 then
        match expect 93 s with
        | some rest => some (.array [], rest)
        | none => (readElems n s).map fun (elems, rest) => (.array elems, rest)
      else if c = 123 then
        match expect 125 s with
        | some rest => some (.object [], rest)
        | none => (readMembers n s).map fun (members, rest) => (.object members, rest)
      else
        (wordValue ((c :: s).takeWhile isWordUnit)).map fun v => (v, (c :: s).dropWhile isWordUnit)

/-- The elements of an array from one on, with the closing bracket. -/
def readElems : Nat → JsString → Option (List Json × JsString)
  | 0, _ => none
  | n + 1, s => do
    let (v, s) ← readValue n s
    match expect 93 s with
    | some rest => some ([v], rest)
    | none =>
      let s ← expect 44 s
      let (vs, rest) ← readElems n s
      some (v :: vs, rest)

def readMembers : Nat → JsString → Option (List (JsString × Json) × JsString)
  | 0, _ => none
  | n + 1, s => do
    let s ← expect 34 s
    let (key, s) ← readString s
    let s ← expect 58 s
    let (v, s) ← readValue n s
    match expect 125 s with
    | some rest => some ([(key, v)], rest)
    | none =>
      let s ← expect 44 s
      let (members, rest) ← readMembers n s
      some ((key, v) :: members, rest)

end

/-! ## Pairs of surrogates -/

theorem le_of_surrogate {c : UInt16} (hc : isHigh c || isLow c) : 0xD800 ≤ c := by
  simp only [isHigh, isLow, Bool.or_eq_true, Bool.and_eq_true, decide_eq_true_eq] at hc
  rcases hc with hc | hc
  · exact hc.1
  · exact UInt16.le_trans (by decide) hc.1

/-- After the first half of a pair comes the second. -/
def Paired (paired : Bool) (s : JsString) : Prop :=
  paired = true → ∀ c ∈ s.head?, isLow c = true

theorem Paired.none {s : JsString} : Paired false s := nofun

/-- A half of a pair is left as it is. -/
theorem quoteUnits_cons {paired : Bool} {c : UInt16} {s : JsString} (h : Paired paired (c :: s)) :
    ∃ paired', Paired paired' s ∧
      ((quoteUnits paired (c :: s) = c :: quoteUnits paired' s ∧ (isHigh c || isLow c) = true) ∨
        quoteUnits paired (c :: s) = escapeUnit c ++ quoteUnits paired' s) := by
  rw [quoteUnits]
  generalize hbegins : (!paired && isHigh c && s.head?.any isLow) = begins
  refine ⟨begins, ?_, ?_⟩
  · -- a pair has begun, and its second half is next
    rintro rfl d hd
    simp only [Bool.and_eq_true, Option.any_eq_true] at hbegins
    obtain ⟨-, d', hd', hlow⟩ := hbegins
    rw [hd'] at hd
    cases hd
    exact hlow
  · split
    -- a character that is not escaped is one of a pair
    · next hraw =>
      refine .inl ⟨rfl, ?_⟩
      rw [Bool.or_eq_true] at hraw ⊢
      rcases hraw with rfl | rfl
      · exact .inr (h rfl c rfl)
      · simp only [Bool.and_eq_true] at hbegins
        exact .inl hbegins.1.2
    · exact .inr rfl

/-! ## What is written is read back -/

theorem readString_cons {c : UInt16} {s : JsString} (h34 : c ≠ 34) (h32 : ¬c < 32)
    (h92 : c ≠ 92) :
    readString (c :: s) = (readString s).map fun (t, rest) => (c :: t, rest) := by
  rw [readString]
  · simp [h34, h32, h92]
  · intros
    contradiction
  · intros
    contradiction

theorem hexValue_hexDigit : ∀ n < 16, hexValue (hexDigit n) = some n := by decide

theorem hexUnit_hexDigit (c : UInt16) :
    hexUnit (hexDigit (c.toNat / 4096)) (hexDigit (c.toNat / 256 % 16))
      (hexDigit (c.toNat / 16 % 16)) (hexDigit (c.toNat % 16)) = some c := by
  have hlt : c.toNat < 65536 := c.toNat_lt
  have hsum : 4096 * (c.toNat / 4096) + 256 * (c.toNat / 256 % 16) + 16 * (c.toNat / 16 % 16)
      + c.toNat % 16 = c.toNat := by omega
  rw [hexUnit, hexValue_hexDigit _ (by omega), hexValue_hexDigit _ (by omega),
    hexValue_hexDigit _ (by omega), hexValue_hexDigit _ (by omega)]
  simp only [Option.bind_eq_bind, Option.bind_some, hsum]
  exact congrArg some UInt16.ofNat_toNat

theorem readString_unicodeEscape (c : UInt16) (s : JsString) :
    readString (unicodeEscape c ++ s) = (readString s).map fun (t, rest) => (c :: t, rest) := by
  show readString (92 :: 117 :: _ :: _ :: _ :: _ :: s) = _
  rw [readString, hexUnit_hexDigit, Option.bind_some]

theorem readString_escape {e c : UInt16} (he : unescape e = some c) (s : JsString) :
    readString (92 :: e :: s) = (readString s).map fun (t, rest) => (c :: t, rest) := by
  rw [readString]
  · rw [he, Option.bind_some]
  · rintro _ _ _ _ _ rfl _
    cases he

/-- A code unit is read back from its escape. -/
theorem readString_escapeUnit (c : UInt16) (s : JsString) :
    readString (escapeUnit c ++ s) = (readString s).map fun (t, rest) => (c :: t, rest) := by
  unfold escapeUnit
  split_ifs with h8 h9 h10 h12 h13 h34 h92 hunicode
  · subst h8
    exact readString_escape rfl s
  · subst h9
    exact readString_escape rfl s
  · subst h10
    exact readString_escape rfl s
  · subst h12
    exact readString_escape rfl s
  · subst h13
    exact readString_escape rfl s
  · subst h34
    exact readString_escape rfl s
  · subst h92
    exact readString_escape rfl s
  · exact readString_unicodeEscape c s
  · simp only [Bool.or_eq_true, decide_eq_true_eq, not_or] at hunicode
    exact readString_cons h34 hunicode.1.1 h92

theorem readString_surrogate {c : UInt16} (hc : isHigh c || isLow c) (s : JsString) :
    readString (c :: s) = (readString s).map fun (t, rest) => (c :: t, rest) := by
  have hle := le_of_surrogate hc
  have hne {d : UInt16} (hd : d < 0xD800) : c ≠ d := by
    rintro rfl
    exact absurd hle (UInt16.not_le.mpr hd)
  exact readString_cons (hne (by decide))
    (fun hlt => absurd hle (UInt16.not_le.mpr (UInt16.lt_trans hlt (by decide)))) (hne (by decide))

theorem readString_quoteUnits {paired : Bool} {s : JsString} (h : Paired paired s)
    (rest : JsString) : readString (quoteUnits paired s ++ 34 :: rest) = some (s, rest) := by
  induction s generalizing paired with
  | nil => rfl
  | cons c s ih =>
    obtain ⟨paired', h', ⟨hquote, hc⟩ | hquote⟩ := quoteUnits_cons h
    · rw [hquote, List.cons_append, readString_surrogate hc, ih h']
      rfl
    · rw [hquote, List.append_assoc, readString_escapeUnit, ih h']
      rfl

theorem quote_append (s rest : JsString) :
    quote s ++ rest = 34 :: (quoteUnits false s ++ 34 :: rest) := by
  simp [quote]

/-! ### Numbers and names -/

theorem isWordUnit_of_next {c : UInt16} {q q' : NumberState} (h : q.next c = some q') :
    isWordUnit c = true := by
  have hsign : c = 43 ∨ c = 45 ∨ c = 46 ∨ c = 48 ∨ c = 69 ∨ c = 101 ∨ isDecimal c = true := by
    cases q <;> simp only [NumberState.next, Bool.or_eq_true, decide_eq_true_eq] at h <;>
      split_ifs at h <;> tauto
  rcases hsign with rfl | rfl | rfl | rfl | rfl | rfl | hdecimal
  iterate 6 decide
  simp [isWordUnit, hdecimal]

theorem isWordUnit_of_isNumber {q : NumberState} {s : JsString} (h : isNumber q s = true) :
    ∀ c ∈ s, isWordUnit c = true := by
  induction s generalizing q with
  | nil => nofun
  | cons c s ih =>
    rw [isNumber, Option.any_eq_true] at h
    obtain ⟨q', hnext, hs⟩ := h
    exact List.forall_mem_cons.mpr ⟨isWordUnit_of_next hnext, ih hs⟩

theorem skipSpace_of_head {c : UInt16} {s : JsString} (h : isSpace c = false) :
    skipSpace (c :: s) = c :: s :=
  List.dropWhile_cons_of_neg (by simp [h])

/-- What can begin a number or a name. -/
theorem isSpace_of_isWordUnit {c : UInt16} (h : isWordUnit c = true) : isSpace c = false := by
  rw [← Bool.not_eq_true]
  intro hspace
  simp only [isSpace, Bool.or_eq_true, decide_eq_true_eq] at hspace
  rcases hspace with ((rfl | rfl) | rfl) | rfl <;> cases h

/-- A number or a name is read up to what cannot belong to it. -/
theorem readValue_word {word rest : JsString} {v : Json} (n : Nat) (hne : word ≠ [])
    (hword : ∀ c ∈ word, isWordUnit c = true) (hvalue : wordValue word = some v)
    (hrest : rest.head?.any isWordUnit = false) :
    readValue (n + 1) (word ++ rest) = some (v, rest) := by
  obtain ⟨c, w, rfl⟩ := List.exists_cons_of_ne_nil hne
  have hc := hword c List.mem_cons_self
  have hmem {d : UInt16} (hd : isWordUnit d = false) : c ≠ d := by
    rintro rfl
    simp [hc] at hd
  obtain ⟨htake, hdrop⟩ := List.takeWhile_append_of_head hword hrest
  rw [List.cons_append] at htake hdrop ⊢
  rw [readValue, skipSpace_of_head (isSpace_of_isWordUnit hc)]
  simp only
  rw [if_neg (hmem rfl), if_neg (hmem rfl), if_neg (hmem rfl), htake, hdrop, hvalue,
    Option.map_some]

theorem Number.text_ne (n : Number) {word : JsString} (hword : isNumber .start word = false) :
    n.text ≠ word := by
  rintro rfl
  rw [n.valid] at hword
  cases hword

theorem readValue_number (n : Number) {rest : JsString} (k : Nat)
    (hrest : rest.head?.any isWordUnit = false) :
    readValue (k + 1) (n.text ++ rest) = some (.number n, rest) := by
  refine readValue_word k (n.text_ne rfl) (isWordUnit_of_isNumber n.valid) ?_ hrest
  rw [wordValue, if_neg (n.text_ne (by decide)), if_neg (n.text_ne (by decide)),
    if_neg (n.text_ne (by decide)), dif_pos n.valid]

/-! ### Values -/

/-- What comes first in a text. -/
theorem stringify_head (v : Json) :
    ∃ c s, stringify v = c :: s ∧ isSpace c = false ∧ c ≠ 93 := by
  cases v with
  | null => exact ⟨_, _, rfl, by decide, by decide⟩
  | bool b => cases b <;> exact ⟨_, _, rfl, by decide, by decide⟩
  | number n =>
    have hne : n.text ≠ [] := n.text_ne rfl
    obtain ⟨c, s, htext⟩ := List.exists_cons_of_ne_nil hne
    have hc := isWordUnit_of_isNumber n.valid c (htext ▸ List.mem_cons_self)
    refine ⟨c, s, htext, isSpace_of_isWordUnit hc, ?_⟩
    rintro rfl
    cases hc
  | string s => exact ⟨_, _, by rw [stringify, quote, List.cons_append], by decide, by decide⟩
  | array elems => exact ⟨_, _, by rw [stringify, List.cons_append], by decide, by decide⟩
  | object members => exact ⟨_, _, by rw [stringify, List.cons_append], by decide, by decide⟩

theorem expect_self (c : UInt16) (s : JsString) (h : isSpace c = false) :
    expect c (c :: s) = some s := by
  simp [expect, skipSpace_of_head h]

theorem expect_of_ne {c d : UInt16} (s : JsString) (h : isSpace d = false) (hne : d ≠ c) :
    expect c (d :: s) = none := by
  simp [expect, skipSpace_of_head h, hne]

theorem stringifyElems_comma (v : Json) (vs : List Json) :
    stringifyElems [44] (v :: vs) = 44 :: stringifyElems [] (v :: vs) := by
  simp [stringifyElems]

theorem stringifyMembers_comma (m : JsString × Json) (members : List (JsString × Json)) :
    stringifyMembers [44] (m :: members) = 44 :: stringifyMembers [] (m :: members) := by
  simp [stringifyMembers]

theorem readValue_string (k : Nat) (s : JsString) :
    readValue (k + 1) (34 :: s) = (readString s).map fun (t, rest) => (.string t, rest) := by
  rw [readValue, skipSpace_of_head rfl]
  rfl

theorem readValue_array (k : Nat) {s : JsString} (h : expect 93 s = none) :
    readValue (k + 1) (91 :: s) = (readElems k s).map fun (vs, rest) => (.array vs, rest) := by
  rw [readValue, skipSpace_of_head rfl]
  simp [h]

theorem readValue_object (k : Nat) {s : JsString} (h : expect 125 s = none) :
    readValue (k + 1) (123 :: s) = (readMembers k s).map fun (ms, rest) => (.object ms, rest) := by
  rw [readValue, skipSpace_of_head rfl]
  simp [h]

theorem readValue_skipSpace (k : Nat) {c : UInt16} (hc : isSpace c = true) (s : JsString) :
    readValue k (c :: s) = readValue k s := by
  cases k with
  | zero => rfl
  | succ k =>
    have hskip : skipSpace (c :: s) = skipSpace s := List.dropWhile_cons_of_pos hc
    rw [readValue, readValue, hskip]

/-- What comes after a value in a text. -/
theorem not_isWordUnit_elems {vs : List Json} {rest : JsString} :
    (stringifyElems [44] vs ++ 93 :: rest).head?.any isWordUnit = false := by
  cases vs with
  | nil => rfl
  | cons v vs => rw [stringifyElems_comma]; rfl

theorem not_isWordUnit_members {members : List (JsString × Json)} {rest : JsString} :
    (stringifyMembers [44] members ++ 125 :: rest).head?.any isWordUnit = false := by
  cases members with
  | nil => rfl
  | cons m members => rw [stringifyMembers_comma]; rfl

mutual

/-- A value is read back from its text. -/
theorem readValue_stringify (v : Json) {k : Nat} (hk : (stringify v).length ≤ k)
    (rest : JsString) (hrest : rest.head?.any isWordUnit = false) :
    readValue k (stringify v ++ rest) = some (v, rest) := by
  -- no text is empty, so there is fuel
  obtain ⟨c, s, hhead, -⟩ := stringify_head v
  have hpos : 0 < k := by
    rw [hhead, List.length_cons] at hk
    omega
  obtain ⟨k, rfl⟩ := Nat.exists_eq_add_one.mpr hpos
  match v with
  | .null => exact readValue_word k (by decide) (List.forall_mem_of_all rfl) rfl hrest
  | .bool true => exact readValue_word k (by decide) (List.forall_mem_of_all rfl) rfl hrest
  | .bool false => exact readValue_word k (by decide) (List.forall_mem_of_all rfl) rfl hrest
  | .number n => exact readValue_number n k hrest
  | .string s =>
    rw [stringify, quote_append, readValue_string, readString_quoteUnits Paired.none,
      Option.map_some]
  | .array [] => rfl
  | .array (v :: vs) =>
    -- the brackets leave fuel for what is between them
    have hlength : (stringifyElems [] (v :: vs)).length < k := by
      simp only [stringify, List.length_append, List.length_cons, List.length_nil] at hk
      omega
    have helems := readElems_stringify v vs hlength rest
    obtain ⟨c, s, hc, hspace, hbracket⟩ := stringify_head v
    -- the array is not taken for an empty one
    have hexpect : expect 93 (stringifyElems [] (v :: vs) ++ 93 :: rest) = none := by
      rw [stringifyElems, List.nil_append, hc]
      exact expect_of_ne _ hspace hbracket
    simp only [stringify, List.cons_append, List.append_assoc, List.nil_append]
    rw [readValue_array k hexpect, helems, Option.map_some]
  | .object [] => rfl
  | .object (m :: members) =>
    -- the same for the members of an object
    have hlength : (stringifyMembers [] (m :: members)).length < k := by
      simp only [stringify, List.length_append, List.length_cons, List.length_nil] at hk
      omega
    have hmembers := readMembers_stringify m members hlength rest
    have hexpect : expect 125 (stringifyMembers [] (m :: members) ++ 125 :: rest) = none := by
      simp only [stringifyMembers, List.nil_append, List.append_assoc, quote_append]
      exact expect_of_ne _ rfl (by decide)
    simp only [stringify, List.cons_append, List.append_assoc, List.nil_append]
    rw [readValue_object k hexpect, hmembers, Option.map_some]
termination_by k

theorem readElems_stringify (v : Json) (vs : List Json) {k : Nat}
    (hk : (stringifyElems [] (v :: vs)).length < k) (rest : JsString) :
    readElems k (stringifyElems [] (v :: vs) ++ 93 :: rest) = some (v :: vs, rest) := by
  obtain ⟨k, rfl⟩ := Nat.exists_eq_add_one.mpr (Nat.zero_lt_of_lt hk)
  rw [stringifyElems, List.nil_append, List.length_append] at hk
  have hv := readValue_stringify v (k := k) (by omega)
    (stringifyElems [44] vs ++ 93 :: rest) not_isWordUnit_elems
  rw [stringifyElems, List.nil_append, List.append_assoc, readElems, hv]
  simp only [Option.bind_eq_bind, Option.bind_some]
  match vs with
  | [] => rfl
  | w :: vs =>
    rw [stringifyElems_comma, List.length_cons] at hk
    have hvs := readElems_stringify w vs (k := k) (by omega) rest
    rw [stringifyElems_comma, List.cons_append, expect_of_ne _ rfl (by decide),
      expect_self _ _ rfl]
    simp only [Option.bind_some]
    rw [hvs]
    rfl
termination_by k

theorem readMembers_stringify (m : JsString × Json) (members : List (JsString × Json)) {k : Nat}
    (hk : (stringifyMembers [] (m :: members)).length < k) (rest : JsString) :
    readMembers k (stringifyMembers [] (m :: members) ++ 125 :: rest)
      = some (m :: members, rest) := by
  obtain ⟨k, rfl⟩ := Nat.exists_eq_add_one.mpr (Nat.zero_lt_of_lt hk)
  obtain ⟨key, v⟩ := m
  simp only [stringifyMembers, List.nil_append, List.length_append, List.length_cons] at hk
  have hv := readValue_stringify v (k := k) (by omega)
    (stringifyMembers [44] members ++ 125 :: rest) not_isWordUnit_members
  simp only [stringifyMembers, List.nil_append, List.append_assoc]
  rw [quote_append, readMembers, expect_self _ _ rfl]
  simp only [Option.bind_eq_bind, Option.bind_some]
  rw [readString_quoteUnits Paired.none]
  simp only [Option.bind_some, List.singleton_append]
  rw [expect_self _ _ rfl]
  simp only [Option.bind_some]
  rw [hv]
  simp only [Option.bind_some]
  match members with
  | [] => rfl
  | m :: members =>
    rw [stringifyMembers_comma, List.length_cons] at hk
    have hmembers := readMembers_stringify m members (k := k) (by omega) rest
    rw [stringifyMembers_comma, List.cons_append, expect_of_ne _ rfl (by decide),
      expect_self _ _ rfl]
    simp only [Option.bind_some]
    rw [hmembers]
    rfl
termination_by k

end

end Js

/-!
# JavaScript strings and JSON values

A JavaScript string is a sequence of UTF-16 code units, and indexing and slicing count code
units, so a string is a list of code units here. `js` gives the code units of a literal.
-/

abbrev JsString := List UInt16

namespace Js

/-- The code units of a character. -/
def utf16 (c : Char) : List UInt16 :=
  let n := c.toNat
  if n < 0x10000 then [n.toUInt16]
  else
    [(0xD800 + (n - 0x10000) / 0x400).toUInt16, (0xDC00 + (n - 0x10000) % 0x400).toUInt16]

/-- The code units of a string literal. -/
def js (s : String) : JsString := s.toList.flatMap utf16

def isDecimal (c : UInt16) : Bool := 48 ≤ c && c ≤ 57

/-- What has been read of a number. -/
inductive NumberState where
  | start
  | minus
  | zero
  | int
  | point
  | fraction
  | exponent
  | exponentSign
  | exponentInt
  deriving DecidableEq

namespace NumberState

def next (c : UInt16) : NumberState → Option NumberState
  | start => if c = 45 then some minus else if c = 48 then some zero
      else if isDecimal c then some int else none
  | minus => if c = 48 then some zero else if isDecimal c then some int else none
  | zero => if c = 46 then some point else if c = 69 || c = 101 then some exponent else none
  | int => if isDecimal c then some int else if c = 46 then some point
      else if c = 69 || c = 101 then some exponent else none
  | point => if isDecimal c then some fraction else none
  | fraction => if isDecimal c then some fraction
      else if c = 69 || c = 101 then some exponent else none
  | exponent => if c = 43 || c = 45 then some exponentSign
      else if isDecimal c then some exponentInt else none
  | exponentSign | exponentInt => if isDecimal c then some exponentInt else none

/-- The number may end here. -/
def ends : NumberState → Bool
  | zero | int | fraction | exponentInt => true
  | start | minus | point | exponent | exponentSign => false

end NumberState

/-- What may be the rest of a number. -/
def isNumber (q : NumberState) : JsString → Bool
  | [] => q.ends
  | c :: s => (q.next c).any fun q => isNumber q s

/-- A number by its text, as JSON has it: numbers with one text are the same number. -/
structure Number where
  text : JsString
  valid : isNumber .start text = true
  deriving DecidableEq, Repr

/-- The value of a JSON text. -/
inductive Json where
  | null
  | bool (b : Bool)
  | number (n : Number)
  | string (s : JsString)
  | array (elems : List Json)
  | object (members : List (JsString × Json))
  deriving Repr

/-- A property of an object that was read from JSON. -/
inductive Property (α : Type u) where
  | absent
  | null
  | value (a : α)
  deriving DecidableEq, Repr

/-- Null, or a value. -/
def Json.ofOption (toJson : α → Json) : Option α → Json
  | none => .null
  | some a => toJson a

/-- The members of an object, without those that are undefined. -/
def Json.ofMembers (members : List (JsString × Option Json)) : Json :=
  .object (members.filterMap fun m => m.2.map (m.1, ·))

namespace Property

/-- What `JSON.stringify` makes of it; it leaves out what is undefined. -/
def toJson (f : α → Json) : Property α → Option Json
  | absent => none
  | null => some .null
  | value a => some (f a)

/-- The text in a template literal. -/
def template : Property JsString → JsString
  | absent => js "undefined"
  | null => js "null"
  | value s => s

end Property

/-- What has no properties. -/
inductive Nullish where
  | undefined
  | null
  deriving DecidableEq, Repr

/-- `Cannot read property '...' of undefined`, or of null. -/
structure TypeError where
  property : JsString
  ofValue : Nullish
  deriving DecidableEq, Repr

end Js

import DockerEngine.ForStd.List
import DockerEngine.Js.Json
import Mathlib.Tactic.Common

/-!
# The text of a script element

What an HTML tokenizer takes for the text of a script element: its states from the start tag
`<script>` on, until the end tag. An end tag ends the element, except between `<!--` and `-->`
behind another start tag.

- `State.after_mode`: the states, against a search for the tags and the ends of comments
- `scan_separator`: a text may be cut at a character that is in none of them
-/

namespace Html

open Js

def isAlpha (c : UInt16) : Bool := (65 ≤ c && c ≤ 90) || (97 ≤ c && c ≤ 122)

def toLower (c : UInt16) : UInt16 := if 65 ≤ c && c ≤ 90 then c + 32 else c

/-- What ends the name of a tag: white space (a carriage return is read as a line feed), a slash, or
    the end of the tag. -/
def isDelimiter (c : UInt16) : Bool :=
  c = 9 || c = 10 || c = 12 || c = 13 || c = 32 || c = 47 || c = 62

def isScript (name : JsString) : Bool := name.map toLower = js "script"

/-! ## The tokenizer -/

/-- The states of script data. A name that is being read is in the state. -/
inductive State where
  | scriptData
  | lessThanSign
  | endTagOpen
  | endTagName (name : JsString)
  | escapeStart
  | escapeStartDash
  | escaped
  | escapedDash
  | escapedDashDash
  | escapedLessThanSign
  | escapedEndTagOpen
  | escapedEndTagName (name : JsString)
  | doubleEscapeStart (name : JsString)
  | doubleEscaped
  | doubleEscapedDash
  | doubleEscapedDashDash
  | doubleEscapedLessThanSign
  | doubleEscapeEnd (name : JsString)
  deriving DecidableEq

namespace State

/-- A character in the state `scriptData`, where other states reconsume it. -/
def ofScriptData (c : UInt16) : State := if c = 60 then lessThanSign else scriptData

/-- A character in the state `escaped`. -/
def ofEscaped (c : UInt16) : State :=
  if c = 45 then escapedDash else if c = 60 then escapedLessThanSign else escaped

/-- A character in the state `doubleEscaped`. -/
def ofDoubleEscaped (c : UInt16) : State :=
  if c = 45 then doubleEscapedDash else if c = 60 then doubleEscapedLessThanSign
  else doubleEscaped

/-- The state after a character; `none` when it is behind the name of the end tag of the script. -/
def next (c : UInt16) : State → Option State
  | scriptData => some (ofScriptData c)
  | lessThanSign =>
    some (if c = 47 then endTagOpen else if c = 33 then escapeStart else ofScriptData c)
  | endTagOpen => some (if isAlpha c then endTagName [c] else ofScriptData c)
  | endTagName name =>
    if isDelimiter c && isScript name then none
    else some (if isAlpha c then endTagName (name ++ [c]) else ofScriptData c)
  | escapeStart => some (if c = 45 then escapeStartDash else ofScriptData c)
  | escapeStartDash => some (if c = 45 then escapedDashDash else ofScriptData c)
  | escaped => some (ofEscaped c)
  | escapedDash => some (if c = 45 then escapedDashDash else ofEscaped c)
  | escapedDashDash =>
    some (if c = 45 then escapedDashDash else if c = 62 then scriptData else ofEscaped c)
  | escapedLessThanSign =>
    some (if c = 47 then escapedEndTagOpen else if isAlpha c then doubleEscapeStart [c]
      else ofEscaped c)
  | escapedEndTagOpen => some (if isAlpha c then escapedEndTagName [c] else ofEscaped c)
  | escapedEndTagName name =>
    if isDelimiter c && isScript name then none
    else some (if isAlpha c then escapedEndTagName (name ++ [c]) else ofEscaped c)
  | doubleEscapeStart name =>
    some (if isDelimiter c then if isScript name then doubleEscaped else escaped
      else if isAlpha c then doubleEscapeStart (name ++ [c]) else ofEscaped c)
  | doubleEscaped => some (ofDoubleEscaped c)
  | doubleEscapedDash => some (if c = 45 then doubleEscapedDashDash else ofDoubleEscaped c)
  | doubleEscapedDashDash =>
    some (if c = 45 then doubleEscapedDashDash else if c = 62 then scriptData
      else ofDoubleEscaped c)
  | doubleEscapedLessThanSign =>
    some (if c = 47 then doubleEscapeEnd [] else ofDoubleEscaped c)
  | doubleEscapeEnd name =>
    some (if isDelimiter c then if isScript name then escaped else doubleEscaped
      else if isAlpha c then doubleEscapeEnd (name ++ [c]) else ofDoubleEscaped c)

/-- The state after a text that does not end the script. -/
def after (q : State) : JsString → Option State
  | [] => some q
  | c :: s => (q.next c).bind fun q => q.after s

/-- What follows the name of the end tag of the script. -/
def behindEnd (q : State) : JsString → Option JsString
  | [] => none
  | c :: s =>
    match q.next c with
    | none => some (c :: s)
    | some q => q.behindEnd s

end State

/-! ## The first script of a page -/

/-- What follows the first start tag of a script, if it has no attributes. -/
def behindStart : JsString → Option JsString
  | [] => none
  | c :: s => if js "<script>" <+: c :: s then some ((c :: s).drop 8) else behindStart s

/-- The text of the first script of a page, and what follows the name of its end tag. -/
def firstScript (page : JsString) : Option (JsString × JsString) := do
  let s ← behindStart page
  let rest ← State.scriptData.behindEnd s
  return (s.take (s.length - rest.length - 8), rest)

/-! ## A search for tags and comments -/

inductive Mode where
  | plain
  | escaped
  | doubleEscaped
  deriving DecidableEq, Repr

/-- The text begins with a tag of this name, in any case, with one of the delimiters behind it. -/
def beginsTag (delimiter : UInt16 → Bool) : JsString → JsString → Bool
  | [], s => s.head?.any delimiter
  | _ :: _, [] => false
  | a :: tag, c :: s => toLower c = a && beginsTag delimiter tag s

/-- The mode after a text; `none` when there is an end tag of the script in it. -/
def scan (delimiter : UInt16 → Bool) : Mode → JsString → Option Mode
  | mode, [] => some mode
  | .plain, c :: s =>
    if beginsTag delimiter (js "</script") (c :: s) then none
    else scan delimiter (if js "<!--" <+: c :: s then .escaped else .plain) s
  | .escaped, c :: s =>
    if beginsTag delimiter (js "</script") (c :: s) then none
    else scan delimiter (if js "-->" <+: c :: s then .plain
      else if beginsTag delimiter (js "<script") (c :: s) then .doubleEscaped else .escaped) s
  | .doubleEscaped, c :: s =>
    scan delimiter (if js "-->" <+: c :: s then .plain
      else if beginsTag delimiter (js "</script") (c :: s) then .escaped else .doubleEscaped) s

/-! ## Characters -/

theorem js_commentStart : js "<!--" = [60, 33, 45, 45] := rfl

theorem js_commentEnd : js "-->" = [45, 45, 62] := rfl

theorem js_startTag : js "<script" = 60 :: js "script" := rfl

theorem js_endTag : js "</script" = 60 :: 47 :: js "script" := rfl

/-- Characters of which one is in a class and the other is not. -/
theorem ne_of_class {p : UInt16 → Bool} {c d : UInt16} (hc : p c = true) (hd : p d = false) :
    c ≠ d := by
  rintro rfl
  rw [hc] at hd
  cases hd

theorem ne_of_isAlpha {c d : UInt16} (hc : isAlpha c = true) (hd : isAlpha d = false) : c ≠ d :=
  ne_of_class hc hd

theorem not_isDelimiter_of_isAlpha {c : UInt16} (h : isAlpha c = true) : isDelimiter c = false := by
  simp [isDelimiter, ne_of_isAlpha h (show isAlpha 9 = false from rfl),
    ne_of_isAlpha h (show isAlpha 10 = false from rfl),
    ne_of_isAlpha h (show isAlpha 12 = false from rfl),
    ne_of_isAlpha h (show isAlpha 13 = false from rfl),
    ne_of_isAlpha h (show isAlpha 32 = false from rfl),
    ne_of_isAlpha h (show isAlpha 47 = false from rfl),
    ne_of_isAlpha h (show isAlpha 62 = false from rfl)]

/-- Only letters have another case. -/
theorem toLower_eq_iff {c a : UInt16} (ha : isAlpha a = false) : toLower c = a ↔ c = a := by
  unfold toLower
  split
  · next hc =>
    simp only [Bool.and_eq_true, decide_eq_true_eq, UInt16.le_iff_toNat_le, UInt16.reduceToNat]
      at hc
    have hadd : (c + 32).toNat = c.toNat + 32 := by
      simp only [UInt16.toNat_add, UInt16.reduceToNat]
      omega
    have hupper : isAlpha c = true := by
      simp [isAlpha, UInt16.le_iff_toNat_le, hc]
    have hlower : isAlpha (c + 32) = true := by
      simp only [isAlpha, UInt16.le_iff_toNat_le, hadd, UInt16.reduceToNat, Bool.or_eq_true,
        Bool.and_eq_true, decide_eq_true_eq]
      omega
    exact iff_of_false (ne_of_isAlpha hlower ha) (ne_of_isAlpha hupper ha)
  · rfl

theorem toLower_of_not_isAlpha {c : UInt16} (h : isAlpha c = false) : toLower c = c := by
  simp only [isAlpha, Bool.or_eq_false_iff] at h
  rw [toLower, h.1, if_neg Bool.false_ne_true]

/-- A name is that of the tag when it ends there. -/
theorem beginsTag_name {tag name : JsString} {c : UInt16} (s : JsString)
    (htag : ∀ a ∈ tag, isAlpha a = true) (hname : ∀ a ∈ name, isAlpha a = true)
    (hc : isAlpha c = false) :
    beginsTag isDelimiter tag (name ++ c :: s)
      = (decide (name.map toLower = tag) && isDelimiter c) := by
  induction tag generalizing name with
  | nil =>
    cases name with
    | nil => rfl
    | cons a name =>
      -- the name is longer than that of the tag
      have ha := not_isDelimiter_of_isAlpha (hname a List.mem_cons_self)
      simp [beginsTag, ha]
  | cons t tag ih =>
    rw [List.forall_mem_cons] at htag
    cases name with
    | nil =>
      -- the name is shorter
      have hne : c ≠ t := (ne_of_isAlpha htag.1 hc).symm
      simp [beginsTag, toLower_of_not_isAlpha hc, hne]
    | cons a name =>
      rw [List.forall_mem_cons] at hname
      rw [List.cons_append, beginsTag, ih htag.2 hname.2]
      simp [Bool.and_assoc]

/-- A tag that is not finished is none. -/
theorem beginsTag_letters {tag s : JsString} (hs : ∀ a ∈ s, isAlpha a = true) :
    beginsTag isDelimiter tag s = false := by
  induction tag generalizing s with
  | nil =>
    cases s with
    | nil => rfl
    | cons a s => exact not_isDelimiter_of_isAlpha (hs a List.mem_cons_self)
  | cons t tag ih =>
    cases s with
    | nil => rfl
    | cons a s => rw [beginsTag, ih fun b hb => hs b (List.mem_cons_of_mem a hb), Bool.and_false]

theorem beginsTag_endTag {name : JsString} {c : UInt16} (s : JsString)
    (hname : ∀ a ∈ name, isAlpha a = true) (hc : isAlpha c = false) :
    beginsTag isDelimiter (js "</script") (60 :: 47 :: (name ++ c :: s))
      = (isScript name && isDelimiter c) := by
  rw [isScript, ← beginsTag_name s (List.forall_mem_of_all rfl) hname hc]
  rfl

theorem beginsTag_startTag {name : JsString} {c : UInt16} (s : JsString)
    (hname : ∀ a ∈ name, isAlpha a = true) (hc : isAlpha c = false) :
    beginsTag isDelimiter (js "<script") (60 :: (name ++ c :: s))
      = (isScript name && isDelimiter c) := by
  rw [isScript, ← beginsTag_name s (List.forall_mem_of_all rfl) hname hc]
  rfl

/-! ## What the search passes over -/

section Scan

variable {delimiter : UInt16 → Bool} {mode : Mode} {c : UInt16} {s : JsString}

/-- Only `<` and `-` are looked at. -/
theorem scan_skip (h60 : c ≠ 60) (h45 : c ≠ 45) :
    scan delimiter mode (c :: s) = scan delimiter mode s := by
  have htag {tag : JsString} : beginsTag delimiter (60 :: tag) (c :: s) = false := by
    rw [beginsTag, decide_eq_false (mt (toLower_eq_iff rfl).mp h60), Bool.false_and]
  cases mode <;>
    simp [scan, js_commentStart, js_commentEnd, js_startTag, js_endTag, htag, h60.symm, h45.symm]

theorem scan_delimiter (h : isDelimiter c = true) :
    scan delimiter mode (c :: s) = scan delimiter mode s :=
  scan_skip (ne_of_class h rfl) (ne_of_class h rfl)

theorem scan_plain_skip (h60 : c ≠ 60) :
    scan delimiter .plain (c :: s) = scan delimiter .plain s := by
  by_cases h45 : c = 45
  · subst h45
    rfl
  · exact scan_skip h60 h45

theorem scan_letters {l : JsString} (hl : ∀ a ∈ l, isAlpha a = true) :
    scan delimiter mode (l ++ s) = scan delimiter mode s := by
  induction l with
  | nil => rfl
  | cons a l ih =>
    rw [List.forall_mem_cons] at hl
    rw [List.cons_append, scan_skip (ne_of_isAlpha hl.1 rfl) (ne_of_isAlpha hl.1 rfl), ih hl.2]

theorem scan_dash (hmode : mode ≠ .plain) (hc : c ≠ 45) :
    scan delimiter mode (45 :: c :: s) = scan delimiter mode (c :: s) := by
  cases mode with
  | plain => exact absurd rfl hmode
  | escaped =>
    rw [scan]
    simp [js_commentEnd, js_startTag, js_endTag, beginsTag, toLower, hc.symm]
  | doubleEscaped =>
    rw [scan]
    simp [js_commentEnd, js_endTag, beginsTag, toLower, hc.symm]

theorem scan_dashes (hmode : mode ≠ .plain) (h45 : c ≠ 45) (h62 : c ≠ 62) :
    scan delimiter mode (45 :: 45 :: c :: s) = scan delimiter mode (c :: s) := by
  have hdash : scan delimiter mode (45 :: c :: s) = scan delimiter mode (c :: s) :=
    scan_dash hmode h45
  rw [← hdash]
  cases mode with
  | plain => exact absurd rfl hmode
  | escaped =>
    rw [scan]
    simp [js_commentEnd, js_startTag, js_endTag, beginsTag, toLower, h62.symm]
  | doubleEscaped =>
    rw [scan]
    simp [js_commentEnd, js_endTag, beginsTag, toLower, h62.symm]

theorem scan_dashes_dash (hmode : mode ≠ .plain) :
    scan delimiter mode (45 :: 45 :: 45 :: s) = scan delimiter mode (45 :: 45 :: s) := by
  cases mode with
  | plain => exact absurd rfl hmode
  | escaped => rfl
  | doubleEscaped => rfl

/-- The end of a comment. -/
theorem scan_commentEnd (hmode : mode ≠ .plain) :
    scan delimiter mode (45 :: 45 :: 62 :: s) = scan delimiter .plain s := by
  have hplain : scan delimiter .plain (45 :: 62 :: s) = scan delimiter .plain s := rfl
  rw [← hplain]
  cases mode with
  | plain => exact absurd rfl hmode
  | escaped => rfl
  | doubleEscaped => rfl

theorem scan_plain_lessThan (h47 : c ≠ 47) (h33 : c ≠ 33) :
    scan delimiter .plain (60 :: c :: s) = scan delimiter .plain (c :: s) := by
  have htag : beginsTag delimiter (js "</script") (60 :: c :: s) = false := by
    simp [js_endTag, beginsTag, toLower_eq_iff (show isAlpha 47 = false from rfl), h47]
  rw [scan, htag]
  simp [js_commentStart, h33.symm]

theorem scan_plain_exclamation (hc : c ≠ 45) :
    scan delimiter .plain (60 :: 33 :: c :: s) = scan delimiter .plain (c :: s) := by
  have hplain : scan delimiter .plain (33 :: c :: s) = scan delimiter .plain (c :: s) := rfl
  rw [← hplain, scan]
  simp [js_commentStart, js_endTag, beginsTag, toLower, hc.symm]

theorem scan_plain_exclamation_dash (hc : c ≠ 45) :
    scan delimiter .plain (60 :: 33 :: 45 :: c :: s) = scan delimiter .plain (c :: s) := by
  have hplain : scan delimiter .plain (33 :: 45 :: c :: s) = scan delimiter .plain (c :: s) := rfl
  rw [← hplain, scan]
  simp [js_commentStart, js_endTag, beginsTag, toLower, hc.symm]

/-- The beginning of a comment; its dashes may be those of its end as well. -/
theorem scan_commentStart :
    scan delimiter .plain (60 :: 33 :: 45 :: 45 :: s) = scan delimiter .escaped (45 :: 45 :: s) :=
  rfl

theorem scan_escaped_lessThan (h47 : c ≠ 47) (hc : isAlpha c = false) :
    scan delimiter .escaped (60 :: c :: s) = scan delimiter .escaped (c :: s) := by
  have hend : beginsTag delimiter (js "</script") (60 :: c :: s) = false := by
    simp [js_endTag, beginsTag, toLower_of_not_isAlpha hc, h47]
  have hstart : beginsTag delimiter (js "<script") (60 :: c :: s) = false := by
    have hne : c ≠ 115 := (ne_of_isAlpha rfl hc).symm
    simp [js, utf16, beginsTag, toLower_of_not_isAlpha hc, hne]
  rw [scan, hend, hstart]
  simp [js_commentEnd]

theorem scan_doubleEscaped_lessThan (h47 : c ≠ 47) :
    scan delimiter .doubleEscaped (60 :: c :: s) = scan delimiter .doubleEscaped (c :: s) := by
  have htag : beginsTag delimiter (js "</script") (60 :: c :: s) = false := by
    simp [js_endTag, beginsTag, toLower_eq_iff (show isAlpha 47 = false from rfl), h47]
  rw [scan, htag]
  simp [js_commentEnd]

end Scan

/-- A letter begins a start tag. -/
theorem not_beginsTag_endTag {name s : JsString} (hne : name ≠ [])
    (hname : ∀ a ∈ name, isAlpha a = true) :
    beginsTag isDelimiter (js "</script") (60 :: (name ++ s)) = false := by
  obtain ⟨a, name, rfl⟩ := List.exists_cons_of_ne_nil hne
  have ha : a ≠ 47 := ne_of_isAlpha (hname a List.mem_cons_self) rfl
  simp [js_endTag, beginsTag, toLower_eq_iff (show isAlpha 47 = false from rfl), ha]

section Names

variable {name : JsString} {c : UInt16} (hname : ∀ a ∈ name, isAlpha a = true)
  (hc : isAlpha c = false) (s : JsString)

include hname hc

theorem scan_endTag {mode : Mode} (hmode : mode ≠ .doubleEscaped) :
    scan isDelimiter mode (60 :: 47 :: (name ++ c :: s))
      = if isScript name && isDelimiter c then none else scan isDelimiter mode (c :: s) := by
  have hrest : scan isDelimiter mode (47 :: (name ++ c :: s)) = scan isDelimiter mode (c :: s) := by
    rw [scan_skip (by decide) (by decide), scan_letters hname]
  rw [← hrest]
  cases mode with
  | plain =>
    rw [scan, beginsTag_endTag s hname hc]
    simp [js_commentStart]
  | escaped =>
    rw [scan, beginsTag_endTag s hname hc]
    simp [js, utf16, beginsTag, toLower]
  | doubleEscaped => exact absurd rfl hmode

omit hc in
theorem scan_unfinished_endTag {mode : Mode} :
    scan isDelimiter mode (60 :: 47 :: name) = some mode := by
  have htag : beginsTag isDelimiter (js "</script") (60 :: 47 :: name) = false := by
    rw [js_endTag, beginsTag, beginsTag, beginsTag_letters hname, Bool.and_false, Bool.and_false]
  have hrest : scan isDelimiter mode (47 :: name) = some mode := by
    rw [scan_skip (by decide) (by decide), ← List.append_nil name, scan_letters hname]
    cases mode <;> rfl
  rw [← hrest]
  cases mode with
  | plain =>
    rw [scan, htag]
    simp [js_commentStart]
  | escaped =>
    rw [scan, htag]
    simp [js, utf16, beginsTag, toLower]
  | doubleEscaped =>
    rw [scan, htag]
    simp [js_commentEnd]

omit hc in
theorem scan_unfinished_startTag (hne : name ≠ []) :
    scan isDelimiter .escaped (60 :: name) = some .escaped := by
  have htag : beginsTag isDelimiter (js "<script") (60 :: name) = false := by
    rw [js_startTag, beginsTag, beginsTag_letters hname, Bool.and_false]
  have hrest : scan isDelimiter .escaped name = some .escaped := by
    rw [← List.append_nil name, scan_letters hname]
    rfl
  have hend := not_beginsTag_endTag hne hname (s := [])
  rw [List.append_nil] at hend
  rw [scan, hend, htag, ← hrest]
  simp [js_commentEnd]

theorem scan_doubleEscaped_endTag :
    scan isDelimiter .doubleEscaped (60 :: 47 :: (name ++ c :: s))
      = scan isDelimiter (if isScript name && isDelimiter c then .escaped else .doubleEscaped)
        (c :: s) := by
  have hrest (mode : Mode) :
      scan isDelimiter mode (47 :: (name ++ c :: s)) = scan isDelimiter mode (c :: s) := by
    rw [scan_skip (by decide) (by decide), scan_letters hname]
  rw [← hrest, scan, beginsTag_endTag s hname hc]
  simp [js_commentEnd]

theorem scan_escaped_startTag (hne : name ≠ []) :
    scan isDelimiter .escaped (60 :: (name ++ c :: s))
      = scan isDelimiter (if isScript name && isDelimiter c then .doubleEscaped else .escaped)
        (c :: s) := by
  rw [scan, not_beginsTag_endTag hne hname, beginsTag_startTag s hname hc,
    if_neg Bool.false_ne_true]
  simp [js_commentEnd, scan_letters hname]

end Names

/-! ## The states are those of the search -/

/-- The state of a mode with nothing read of a tag. -/
def Mode.state : Mode → State
  | plain => .scriptData
  | escaped => .escaped
  | doubleEscaped => .doubleEscaped

namespace State

def mode : State → Mode
  | scriptData | lessThanSign | endTagOpen | endTagName _ | escapeStart | escapeStartDash => .plain
  | escaped | escapedDash | escapedDashDash | escapedLessThanSign | escapedEndTagOpen
  | escapedEndTagName _ | doubleEscapeStart _ => .escaped
  | doubleEscaped | doubleEscapedDash | doubleEscapedDashDash | doubleEscapedLessThanSign
  | doubleEscapeEnd _ => .doubleEscaped

/-- What has been read of a tag or of the end of a comment. -/
def pending : State → JsString
  | scriptData | escaped | doubleEscaped => []
  | lessThanSign | escapedLessThanSign | doubleEscapedLessThanSign => [60]
  | endTagOpen | escapedEndTagOpen => [60, 47]
  | endTagName name | escapedEndTagName name | doubleEscapeEnd name => 60 :: 47 :: name
  | doubleEscapeStart name => 60 :: name
  | escapeStart => [60, 33]
  | escapeStartDash => [60, 33, 45]
  | escapedDash | doubleEscapedDash => [45]
  | escapedDashDash | doubleEscapedDashDash => [45, 45]

/-- Names have letters only. -/
def Named : State → Prop
  | endTagName name | escapedEndTagName name | doubleEscapeEnd name => ∀ a ∈ name, isAlpha a = true
  | doubleEscapeStart name => name ≠ [] ∧ ∀ a ∈ name, isAlpha a = true
  | _ => True

/-- The rest of a text, for a state. -/
def scanRest (q : State) (s : JsString) : Option Mode := scan isDelimiter q.mode (q.pending ++ s)

end State

theorem Mode.named (mode : Mode) : mode.state.Named := by cases mode <;> trivial

theorem Mode.scanRest (mode : Mode) (s : JsString) :
    mode.state.scanRest s = scan isDelimiter mode s := by
  cases mode <;> rfl

namespace State

theorem scan_ofScriptData (c : UInt16) (s : JsString) :
    scan isDelimiter .plain (c :: s) = (ofScriptData c).scanRest s := by
  unfold ofScriptData
  split
  · next hc =>
    subst hc
    rfl
  · next hc => exact scan_plain_skip hc

theorem scan_ofEscaped (c : UInt16) (s : JsString) :
    scan isDelimiter .escaped (c :: s) = (ofEscaped c).scanRest s := by
  unfold ofEscaped
  split_ifs with h45 h60
  · subst h45
    rfl
  · subst h60
    rfl
  · exact scan_skip h60 h45

theorem scan_ofDoubleEscaped (c : UInt16) (s : JsString) :
    scan isDelimiter .doubleEscaped (c :: s) = (ofDoubleEscaped c).scanRest s := by
  unfold ofDoubleEscaped
  split_ifs with h45 h60
  · subst h45
    rfl
  · subst h60
    rfl
  · exact scan_skip h60 h45

theorem named_ofScriptData (c : UInt16) : (ofScriptData c).Named := by
  unfold ofScriptData
  split <;> trivial

theorem named_ofEscaped (c : UInt16) : (ofEscaped c).Named := by
  unfold ofEscaped
  split_ifs <;> trivial

theorem named_ofDoubleEscaped (c : UInt16) : (ofDoubleEscaped c).Named := by
  unfold ofDoubleEscaped
  split_ifs <;> trivial

/-- A letter is read into the name. -/
theorem scanRest_letter {c : UInt16} {q q' : State} {s : JsString} (hmode : q'.mode = q.mode)
    (hpending : q'.pending = q.pending ++ [c]) : q.scanRest (c :: s) = q'.scanRest s := by
  rw [scanRest, scanRest, hmode, hpending, List.append_assoc, List.singleton_append]

section Names

variable {q q' back : State} {name : JsString} {c : UInt16} {s : JsString}
  (hmode' : q'.mode = q.mode) (hpending' : q'.pending = q.pending ++ [c])
  (hback : scan isDelimiter q.mode (c :: s) = back.scanRest s)

include hmode' hpending' hback

/-- The name of an end tag goes on with `q'`, ends the script, or is none. -/
theorem scanRest_endTagName (hmode : q.mode ≠ .doubleEscaped)
    (hname : ∀ a ∈ name, isAlpha a = true) (hpending : q.pending = 60 :: 47 :: name) :
    q.scanRest (c :: s)
      = (if isDelimiter c && isScript name then none
          else some (if isAlpha c then q' else back)).bind fun q => q.scanRest s := by
  cases hc : isAlpha c with
  | true =>
    rw [not_isDelimiter_of_isAlpha hc]
    exact scanRest_letter hmode' hpending'
  | false =>
    have hscan := scan_endTag hname hc s hmode
    rw [scanRest, hpending, List.cons_append, List.cons_append, hscan, Bool.and_comm]
    split
    · rfl
    · exact hback

/-- The name of a tag goes on with `q'`, leads to another mode, or is none. -/
theorem scanRest_switch {mode : Mode} {entered left : State}
    (hentered : entered.scanRest s = scan isDelimiter mode s)
    (hleft : left.scanRest s = scan isDelimiter q.mode s)
    (hscan : isAlpha c = false → q.scanRest (c :: s)
      = scan isDelimiter (if isScript name && isDelimiter c then mode else q.mode) (c :: s)) :
    q.scanRest (c :: s)
      = (if isDelimiter c then if isScript name then entered else left
          else if isAlpha c then q' else back).scanRest s := by
  cases hc : isAlpha c with
  | true =>
    rw [not_isDelimiter_of_isAlpha hc]
    exact scanRest_letter hmode' hpending'
  | false =>
    rw [hscan hc]
    -- only a delimiter makes the name count
    cases hdelimiter : isDelimiter c with
    | false =>
      rw [Bool.and_false]
      exact hback
    | true =>
      rw [Bool.and_true, scan_delimiter hdelimiter]
      cases isScript name with
      | true => exact hentered.symm
      | false => exact hleft.symm

end Names

/-- A character is what the search makes of it, behind what has been read. -/
theorem scanRest_cons {q : State} (hq : q.Named) (c : UInt16) (s : JsString) :
    q.scanRest (c :: s) = (q.next c).bind fun q => q.scanRest s := by
  cases q with
  -- outside of a comment: `</` and a name, or the beginning `<!--` of one
  | scriptData => exact scan_ofScriptData c s
  | lessThanSign =>
    rw [next, Option.bind_some]
    split_ifs with h47 h33
    · subst h47
      rfl
    · subst h33
      rfl
    · exact (scan_plain_lessThan h47 h33).trans (scan_ofScriptData c s)
  | endTagOpen =>
    rw [next, Option.bind_some]
    split
    · rfl
    · next hc =>
      refine Eq.trans ?_ (scan_ofScriptData c s)
      exact scan_endTag (List.forall_mem_nil _) (eq_false_of_ne_true hc) s (by decide)
  | endTagName name =>
    exact scanRest_endTagName rfl rfl (scan_ofScriptData c s) Mode.noConfusion hq rfl
  | escapeStart =>
    rw [next, Option.bind_some]
    split_ifs with h45
    · subst h45
      rfl
    · exact (scan_plain_exclamation h45).trans (scan_ofScriptData c s)
  | escapeStartDash =>
    rw [next, Option.bind_some]
    split_ifs with h45
    · subst h45
      exact scan_commentStart
    · exact (scan_plain_exclamation_dash h45).trans (scan_ofScriptData c s)
  -- in a comment: its end `-->`, and tags of either kind
  | escaped => exact scan_ofEscaped c s
  | escapedDash =>
    rw [next, Option.bind_some]
    split_ifs with h45
    · subst h45
      rfl
    · exact (scan_dash (by decide) h45).trans (scan_ofEscaped c s)
  | escapedDashDash =>
    rw [next, Option.bind_some]
    split_ifs with h45 h62
    · subst h45
      exact scan_dashes_dash (by decide)
    · subst h62
      exact scan_commentEnd (by decide)
    · exact (scan_dashes (by decide) h45 h62).trans (scan_ofEscaped c s)
  | escapedLessThanSign =>
    rw [next, Option.bind_some]
    split_ifs with h47 hc
    · subst h47
      rfl
    · rfl
    · exact (scan_escaped_lessThan h47 (eq_false_of_ne_true hc)).trans (scan_ofEscaped c s)
  | escapedEndTagOpen =>
    rw [next, Option.bind_some]
    split
    · rfl
    · next hc =>
      refine Eq.trans ?_ (scan_ofEscaped c s)
      exact scan_endTag (List.forall_mem_nil _) (eq_false_of_ne_true hc) s (by decide)
  | escapedEndTagName name =>
    exact scanRest_endTagName rfl rfl (scan_ofEscaped c s) Mode.noConfusion hq rfl
  | doubleEscapeStart name =>
    rw [next, Option.bind_some]
    apply scanRest_switch
    · rfl
    · rfl
    · exact scan_ofEscaped c s
    · rfl
    · rfl
    · intro hc
      exact scan_escaped_startTag hq.2 hc s hq.1
  -- behind a start tag in a comment, where an end tag does not end the script
  | doubleEscaped => exact scan_ofDoubleEscaped c s
  | doubleEscapedDash =>
    rw [next, Option.bind_some]
    split_ifs with h45
    · subst h45
      rfl
    · exact (scan_dash (by decide) h45).trans (scan_ofDoubleEscaped c s)
  | doubleEscapedDashDash =>
    rw [next, Option.bind_some]
    split_ifs with h45 h62
    · subst h45
      exact scan_dashes_dash (by decide)
    · subst h62
      exact scan_commentEnd (by decide)
    · exact (scan_dashes (by decide) h45 h62).trans (scan_ofDoubleEscaped c s)
  | doubleEscapedLessThanSign =>
    rw [next, Option.bind_some]
    split_ifs with h47
    · subst h47
      rfl
    · exact (scan_doubleEscaped_lessThan h47).trans (scan_ofDoubleEscaped c s)
  | doubleEscapeEnd name =>
    rw [next, Option.bind_some]
    apply scanRest_switch
    · rfl
    · rfl
    · exact scan_ofDoubleEscaped c s
    · rfl
    · rfl
    · intro hc
      exact scan_doubleEscaped_endTag hq hc s

theorem Named.next {q q' : State} (hq : q.Named) {c : UInt16} (h : q.next c = some q') :
    q'.Named := by
  cases q <;> simp only [State.next] at h <;> (try split_ifs at h) <;> cases h <;>
    first
      | exact named_ofScriptData c
      | exact named_ofEscaped c
      | exact named_ofDoubleEscaped c
      | simp_all [Named, or_imp]

theorem scanRest_nil {q : State} (hq : q.Named) : q.scanRest [] = some q.mode := by
  -- nothing is found in an unfinished tag
  rw [State.scanRest, List.append_nil]
  cases q with
  | endTagName name => exact scan_unfinished_endTag hq
  | escapedEndTagName name => exact scan_unfinished_endTag hq
  | doubleEscapeEnd name => exact scan_unfinished_endTag hq
  | doubleEscapeStart name => exact scan_unfinished_startTag hq.2 hq.1
  | _ => rfl

/-- The states find what the search finds. -/
theorem after_mode {q : State} (hq : q.Named) (s : JsString) :
    (q.after s).map mode = q.scanRest s := by
  induction s generalizing q with
  | nil => rw [after, Option.map_some, scanRest_nil hq]
  | cons c s ih =>
    rw [scanRest_cons hq, after]
    cases hnext : q.next c with
    | none => rfl
    | some q' => exact ih (hq.next hnext)

theorem after_append (q : State) (s t : JsString) :
    q.after (s ++ t) = (q.after s).bind fun q => q.after t := by
  induction s generalizing q with
  | nil => rfl
  | cons c s ih =>
    rw [List.cons_append, after, after, Option.bind_assoc]
    exact congrArg _ (funext ih)

/-! ## Cutting a text -/

/-- A text without an end of the script in it is passed over. -/
theorem behindEnd_append_of_some {q q' : State} {s : JsString} (t : JsString)
    (h : q.after s = some q') : q.behindEnd (s ++ t) = q'.behindEnd t := by
  induction s generalizing q with
  | nil =>
    cases h
    rfl
  | cons c s ih =>
    obtain ⟨q₁, hnext, hrest⟩ := Option.bind_eq_some_iff.mp h
    rw [List.cons_append, behindEnd, hnext]
    exact ih hrest

theorem behindEnd_append_of_none {q : State} {s : JsString} (t : JsString)
    (h : q.after s = none) : ∃ r, r ≠ [] ∧ q.behindEnd (s ++ t) = some (r ++ t) := by
  induction s generalizing q with
  | nil => cases h
  | cons c s ih =>
    rw [List.cons_append, behindEnd]
    rw [after] at h
    cases hnext : q.next c with
    | none => exact ⟨c :: s, List.cons_ne_nil c s, rfl⟩
    | some q₁ =>
      rw [hnext] at h
      exact ih h

theorem behindEnd_length {q : State} {s r : JsString} (h : q.behindEnd s = some r) :
    r.length ≤ s.length := by
  induction s generalizing q with
  | nil => cases h
  | cons c s ih =>
    rw [behindEnd] at h
    split at h
    · cases h
      exact Nat.le_refl _
    · exact Nat.le_succ_of_le (ih h)

end State

/-- A character that is in no tag and in no end of a comment. -/
def isSeparator (c : UInt16) : Bool :=
  !isAlpha c && !isDelimiter c && c ≠ 33 && c ≠ 45 && c ≠ 60

namespace State

theorem next_separator {c : UInt16} (h : isSeparator c = true) (q : State) :
    q.next c = some q.mode.state := by
  simp only [isSeparator, Bool.and_eq_true, Bool.not_eq_true', decide_eq_true_eq] at h
  obtain ⟨⟨⟨⟨halpha, hdelimiter⟩, h33⟩, h45⟩, h60⟩ := h
  have h47 : c ≠ 47 := (ne_of_class (show isDelimiter 47 = true from rfl) hdelimiter).symm
  have h62 : c ≠ 62 := (ne_of_class (show isDelimiter 62 = true from rfl) hdelimiter).symm
  cases q <;>
    simp [next, mode, Mode.state, ofScriptData, ofEscaped, ofDoubleEscaped, halpha, hdelimiter, h33,
      h45, h60, h47, h62]

end State

/-- The search begins anew behind a separator. -/
theorem scan_separator {c : UInt16} (h : isSeparator c = true) (mode : Mode) (s t : JsString) :
    scan isDelimiter mode (s ++ c :: t)
      = (scan isDelimiter mode s).bind fun mode => scan isDelimiter mode t := by
  rw [← Mode.scanRest, ← Mode.scanRest, ← State.after_mode mode.named,
    ← State.after_mode mode.named, State.after_append, Option.map_bind, Option.bind_map]
  refine congrArg _ (funext fun q => ?_)
  -- `q` has begun with a tag at most
  rw [Function.comp, Function.comp, State.after, State.next_separator h, Option.bind_some,
    State.after_mode q.mode.named, Mode.scanRest]

/-- A script that is closed ends there when the tokenizer finds nothing before. -/
theorem firstScript_eq_iff {page script script' rest : JsString}
    (hstart : behindStart page = some (script ++ (js "</script" ++ rest))) :
    firstScript page = some (script', rest) ↔
      State.scriptData.behindEnd (script ++ (js "</script" ++ rest)) = some rest ∧
        script' = script := by
  rw [firstScript, hstart]
  simp only [Option.bind_eq_bind, Option.bind_some, Option.pure_def]
  cases State.scriptData.behindEnd (script ++ (js "</script" ++ rest)) with
  | none => simp
  | some r =>
    simp only [Option.bind_some, Option.some.injEq, Prod.mk.injEq]
    rw [and_comm, and_congr_right_iff]
    rintro rfl
    have htag : (js "</script").length = 8 := rfl
    rw [List.take_left', eq_comm]
    simp only [List.length_append, htag]
    omega

end Html

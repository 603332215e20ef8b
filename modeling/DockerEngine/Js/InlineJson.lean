import DockerEngine.Js.JsonText
import DockerEngine.Js.ScriptData

/-!
# A JSON text in a script element

The tokenizer can only find something in the strings of the value, since no tag and no end of a
comment has a quote in it. The escapes do not get in its way either, apart from white space
other than a blank, which they hide.

- `scan_stringify`: what is found in the text, from what is in the strings
- `behindEnd_inline`: the values after which the script ends where it is closed
-/

namespace Html

open Js

/-- A delimiter that a string has in its quoted form as well. -/
def isShown (c : UInt16) : Bool := c = 32 || c = 47 || c = 62

/-- What the strings leave behind, one after the other. -/
def scanStrings (mode : Mode) (strings : List JsString) : Option Mode :=
  strings.foldlM (scan isShown) mode

/-- There is no end tag of the script in the strings, and no section is open at their end in which
    the next one would not count. -/
def Inert (strings : List JsString) : Prop :=
  (scanStrings .plain strings).any (· ≠ .doubleEscaped) = true

instance (strings : List JsString) : Decidable (Inert strings) :=
  inferInstanceAs (Decidable (_ = true))

/-! ## Quoted strings -/

/-- A character of a tag, or of a comment. -/
def isMarkup (c : UInt16) : Bool := isAlpha c || c = 33 || c = 45 || c = 47 || c = 60 || c = 62

/-- Control characters and surrogates. -/
theorem not_isMarkup {c : UInt16} (h : c < 32 ∨ 0xD800 ≤ c) :
    isShown c = false ∧ isMarkup c = false := by
  simp only [UInt16.lt_iff_toNat_lt, UInt16.le_iff_toNat_le, UInt16.reduceToNat] at h
  simp only [isShown, isMarkup, isAlpha, ← UInt16.toNat_inj, UInt16.le_iff_toNat_le,
    UInt16.reduceToNat, Bool.or_eq_false_iff, Bool.and_eq_false_iff, decide_eq_false_iff_not]
  omega

theorem isDelimiter_eq_isShown {c : UInt16} (h : 32 ≤ c) : isDelimiter c = isShown c := by
  have hne {d : UInt16} (hd : d < 32) : c ≠ d := by
    rintro rfl
    exact absurd h (UInt16.not_le.mpr hd)
  simp [isDelimiter, isShown, hne (show (9 : UInt16) < 32 by decide),
    hne (show (10 : UInt16) < 32 by decide), hne (show (12 : UInt16) < 32 by decide),
    hne (show (13 : UInt16) < 32 by decide)]

theorem hexDigit_ne : ∀ n < 16, hexDigit n ≠ 60 ∧ hexDigit n ≠ 45 := by decide

theorem unicodeEscape_eq (c : UInt16) :
    ∃ e, unicodeEscape c = 92 :: e ∧ ∀ a ∈ e, a ≠ 60 ∧ a ≠ 45 := by
  have hlt : c.toNat < 65536 := c.toNat_lt
  refine ⟨[117, hexDigit (c.toNat / 4096), hexDigit (c.toNat / 256 % 16),
    hexDigit (c.toNat / 16 % 16), hexDigit (c.toNat % 16)], rfl, ?_⟩
  simp only [List.forall_mem_cons]
  exact ⟨by decide, hexDigit_ne _ (by omega), hexDigit_ne _ (by omega), hexDigit_ne _ (by omega),
    hexDigit_ne _ (by omega), List.forall_mem_nil _⟩

/-- An escape has no markup in it, and is not for markup. -/
theorem escapeUnit_cases (c : UInt16) :
    (escapeUnit c = [c] ∧ isDelimiter c = isShown c) ∨
      ∃ e, escapeUnit c = 92 :: e ∧ (∀ a ∈ e, a ≠ 60 ∧ a ≠ 45) ∧ isShown c = false ∧
        isMarkup c = false := by
  -- the escapes of single characters
  have hescape {d a : UInt16} (hc : c = d) (ha : a ≠ 60 ∧ a ≠ 45) (hshown : isShown d = false)
      (hmarkup : isMarkup d = false) :
      ∃ e, [92, a] = 92 :: e ∧ (∀ a ∈ e, a ≠ 60 ∧ a ≠ 45) ∧ isShown c = false ∧
        isMarkup c = false := by
    subst hc
    exact ⟨[a], rfl, List.forall_mem_singleton.mpr ha, hshown, hmarkup⟩
  unfold escapeUnit
  split_ifs with h8 h9 h10 h12 h13 h34 h92 hunicode
  · exact .inr (hescape h8 (by decide) rfl rfl)
  · exact .inr (hescape h9 (by decide) rfl rfl)
  · exact .inr (hescape h10 (by decide) rfl rfl)
  · exact .inr (hescape h12 (by decide) rfl rfl)
  · exact .inr (hescape h13 (by decide) rfl rfl)
  · exact .inr (hescape h34 (by decide) rfl rfl)
  · exact .inr (hescape h92 (by decide) rfl rfl)
  · obtain ⟨e, he, hmarkup⟩ := unicodeEscape_eq c
    refine .inr ⟨e, he, hmarkup, not_isMarkup ?_⟩
    rw [Bool.or_assoc, Bool.or_eq_true, decide_eq_true_eq] at hunicode
    exact hunicode.imp_right le_of_surrogate
  · simp only [Bool.or_eq_true, decide_eq_true_eq, not_or] at hunicode
    exact .inl ⟨rfl, isDelimiter_eq_isShown (UInt16.not_lt.mp hunicode.1.1)⟩

/-- The first character of a string, in its quoted form. -/
theorem quoteUnits_cases {paired : Bool} {c : UInt16} {s : JsString} (h : Paired paired (c :: s)) :
    ∃ paired', Paired paired' s ∧
      ((quoteUnits paired (c :: s) = c :: quoteUnits paired' s ∧ isDelimiter c = isShown c) ∨
        ∃ e, quoteUnits paired (c :: s) = 92 :: (e ++ quoteUnits paired' s) ∧
          (∀ a ∈ e, a ≠ 60 ∧ a ≠ 45) ∧ isShown c = false ∧ isMarkup c = false) := by
  obtain ⟨paired', h', ⟨hquote, hc⟩ | hquote⟩ := quoteUnits_cons h
  · exact ⟨paired', h', .inl ⟨hquote, isDelimiter_eq_isShown
      (UInt16.le_trans (by decide) (le_of_surrogate hc))⟩⟩
  · refine ⟨paired', h', ?_⟩
    rw [hquote]
    rcases escapeUnit_cases c with ⟨he, hc⟩ | ⟨e, he, hrest⟩
    · exact .inl ⟨by rw [he, List.singleton_append], hc⟩
    · exact .inr ⟨e, by rw [he, List.cons_append], hrest⟩

theorem toLower_of_not_isMarkup {c : UInt16} (h : isMarkup c = false) : toLower c = c := by
  simp only [isMarkup, Bool.or_eq_false_iff] at h
  exact toLower_of_not_isAlpha h.1.1.1.1.1

theorem beginsTag_quoteUnits (tag : JsString) (htag : ∀ a ∈ tag, isMarkup a = true)
    {paired : Bool} {s : JsString} (h : Paired paired s) :
    beginsTag isDelimiter tag (quoteUnits paired s) = beginsTag isShown tag s := by
  induction tag generalizing paired s with
  | nil =>
    cases s with
    | nil => rfl
    | cons c s =>
      obtain ⟨paired', -, ⟨hquote, hc⟩ | ⟨e, hquote, -, hc, -⟩⟩ := quoteUnits_cases h
      · rw [hquote]
        exact hc
      · rw [hquote]
        exact hc.symm
  | cons t tag ih =>
    rw [List.forall_mem_cons] at htag
    cases s with
    | nil => rfl
    | cons c s =>
      obtain ⟨paired', h', ⟨hquote, -⟩ | ⟨e, hquote, -, -, hc⟩⟩ := quoteUnits_cases h
      · rw [hquote, beginsTag, beginsTag, ih htag.2 h']
      -- a character that is escaped is in no tag, and nor is the backslash
      · have hne : c ≠ t := (ne_of_class htag.1 hc).symm
        have h92 : 92 ≠ t := (ne_of_class htag.1 rfl).symm
        rw [hquote, beginsTag, beginsTag, toLower_of_not_isMarkup hc,
          toLower_of_not_isMarkup (show isMarkup 92 = false from rfl), decide_eq_false hne,
          decide_eq_false h92, Bool.false_and, Bool.false_and]

theorem prefix_quoteUnits (w : JsString) (hw : ∀ a ∈ w, isMarkup a = true)
    {paired : Bool} {s : JsString} (h : Paired paired s) :
    w <+: quoteUnits paired s ↔ w <+: s := by
  induction w generalizing paired s with
  | nil => simp
  | cons a w ih =>
    rw [List.forall_mem_cons] at hw
    cases s with
    | nil => rfl
    | cons c s =>
      obtain ⟨paired', h', ⟨hquote, -⟩ | ⟨e, hquote, -, -, hc⟩⟩ := quoteUnits_cases h
      · rw [hquote, List.cons_prefix_cons, List.cons_prefix_cons, ih hw.2 h']
      · have hne : a ≠ c := ne_of_class hw.1 hc
        have h92 : a ≠ 92 := ne_of_class hw.1 rfl
        rw [hquote, List.cons_prefix_cons, List.cons_prefix_cons]
        exact iff_of_false (fun h => h92 h.1) fun h => hne h.1

theorem scan_of_forall {delimiter : UInt16 → Bool} {mode : Mode} {s t : JsString}
    (h : ∀ a ∈ s, a ≠ 60 ∧ a ≠ 45) : scan delimiter mode (s ++ t) = scan delimiter mode t := by
  induction s with
  | nil => rfl
  | cons a s ih =>
    rw [List.forall_mem_cons] at h
    rw [List.cons_append, scan_skip h.1.1 h.1.2, ih h.2]

/-- The quoted form of a string has in it what the string has. -/
theorem scan_quoteUnits {paired : Bool} {s : JsString} (h : Paired paired s) (mode : Mode) :
    scan isDelimiter mode (quoteUnits paired s) = scan isShown mode s := by
  induction s generalizing paired mode with
  | nil => cases mode <;> rfl
  | cons c s ih =>
    have hend := beginsTag_quoteUnits (js "</script") (List.forall_mem_of_all rfl) h
    have hstart := beginsTag_quoteUnits (js "<script") (List.forall_mem_of_all rfl) h
    have hopen := prefix_quoteUnits (js "<!--") (List.forall_mem_of_all rfl) h
    have hclose := prefix_quoteUnits (js "-->") (List.forall_mem_of_all rfl) h
    obtain ⟨paired', h', ⟨hquote, -⟩ | ⟨e, hquote, he, -, hc⟩⟩ := quoteUnits_cases h
    · rw [hquote] at hend hstart hopen hclose ⊢
      cases mode with
      | plain => simp only [scan, hend, hopen, ih h']
      | escaped => simp only [scan, hend, hstart, hclose, ih h']
      | doubleEscaped => simp only [scan, hend, hclose, ih h']
    · have hne {d : UInt16} (hd : isMarkup d = true) : c ≠ d := (ne_of_class hd hc).symm
      rw [hquote, scan_skip (by decide) (by decide), scan_of_forall he, ih h',
        scan_skip (hne rfl) (hne rfl)]

/-! ## The text of a value -/

theorem scan_separators {c : UInt16} (h : isSeparator c = true) {delimiter : UInt16 → Bool}
    {mode : Mode} {t : JsString} : scan delimiter mode (c :: t) = scan delimiter mode t :=
  scan_skip (ne_of_class h rfl) (ne_of_class h rfl)

@[simp] theorem scan_nil (delimiter : UInt16 → Bool) (mode : Mode) :
    scan delimiter mode [] = some mode := by
  cases mode <;> rfl

/-- Nothing is found without angle brackets. -/
theorem scan_of_not_mem {delimiter : UInt16 → Bool} {s : JsString} (h60 : 60 ∉ s) (h62 : 62 ∉ s)
    (mode : Mode) : scan delimiter mode s = some mode := by
  induction s with
  | nil => exact scan_nil delimiter mode
  | cons c s ih =>
    rw [List.mem_cons, not_or] at h60
    by_cases h45 : c = 45
    · subst h45
      have hclose : ¬js "-->" <+: 45 :: s := fun h => h62 (h.subset (by decide))
      have hs := ih h60.2 (mt (List.mem_cons_of_mem 45) h62)
      cases mode <;>
        simp [scan, hclose, js_commentStart, js_startTag, js_endTag, beginsTag, toLower, hs]
    · rw [scan_skip (Ne.symm h60.1) h45, ih h60.2 (mt (List.mem_cons_of_mem c) h62)]

/-- A text behind which the search begins anew. -/
def Begins (t : JsString) : Prop := t.head?.any isSeparator = true

/-- What is found in a text that has no strings. -/
theorem scan_word {word t : JsString} (hword : ∀ c ∈ word, isWordUnit c = true) (ht : Begins t)
    (mode : Mode) : scan isDelimiter mode (word ++ t) = scan isDelimiter mode t := by
  have hmem {c : UInt16} (hc : isWordUnit c = false) : c ∉ word := by
    intro h
    rw [hword c h] at hc
    cases hc
  cases t with
  | nil => cases ht
  | cons c t =>
    have hc : isSeparator c = true := ht
    rw [scan_separator hc, scan_of_not_mem (hmem rfl) (hmem rfl), Option.bind_some,
      scan_separators hc]

theorem scan_seps {sep : JsString} (hsep : ∀ c ∈ sep, isSeparator c = true)
    {delimiter : UInt16 → Bool} {mode : Mode} {t : JsString} :
    scan delimiter mode (sep ++ t) = scan delimiter mode t := by
  induction sep with
  | nil => rfl
  | cons c sep ih =>
    rw [List.forall_mem_cons] at hsep
    rw [List.cons_append, scan_separators hsep.1, ih hsep.2]

theorem scan_quote (s t : JsString) (mode : Mode) :
    scan isDelimiter mode (quote s ++ t)
      = (scan isShown mode s).bind fun mode => scan isDelimiter mode t := by
  rw [quote_append, scan_separators rfl, scan_separator rfl, scan_quoteUnits Paired.none]

theorem scanStrings_append (mode : Mode) (strings strings' : List JsString) :
    scanStrings mode (strings ++ strings')
      = (scanStrings mode strings).bind fun mode => scanStrings mode strings' :=
  List.foldlM_append

theorem scanStrings_cons (mode : Mode) (s : JsString) (strings : List JsString) :
    scanStrings mode (s :: strings)
      = (scan isShown mode s).bind fun mode => scanStrings mode strings := rfl

mutual

theorem scan_stringify (v : Json) {t : JsString} (ht : Begins t) (mode : Mode) :
    scan isDelimiter mode (stringify v ++ t)
      = (scanStrings mode v.strings).bind fun mode => scan isDelimiter mode t := by
  match v with
  -- words and numbers have no angle brackets
  | .null => exact scan_word (List.forall_mem_of_all rfl) ht mode
  | .bool true => exact scan_word (List.forall_mem_of_all rfl) ht mode
  | .bool false => exact scan_word (List.forall_mem_of_all rfl) ht mode
  | .number n => exact scan_word (isWordUnit_of_isNumber n.valid) ht mode
  | .string s =>
    rw [stringify, scan_quote, Json.strings, scanStrings_cons, Option.bind_assoc]
    rfl
  | .array vs =>
    simp only [stringify, List.cons_append, List.append_assoc, List.nil_append]
    rw [scan_separators rfl, scan_stringifyElems vs (List.forall_mem_nil _)
      (show Begins (93 :: t) from rfl)]
    simp only [scan_separators (show isSeparator 93 = true from rfl), Json.strings]
  | .object members =>
    simp only [stringify, List.cons_append, List.append_assoc, List.nil_append]
    rw [scan_separators rfl, scan_stringifyMembers members (List.forall_mem_nil _)
      (show Begins (125 :: t) from rfl)]
    simp only [scan_separators (show isSeparator 125 = true from rfl), Json.strings]

theorem scan_stringifyElems (vs : List Json) {sep t : JsString}
    (hsep : ∀ c ∈ sep, isSeparator c = true) (ht : Begins t) (mode : Mode) :
    scan isDelimiter mode (stringifyElems sep vs ++ t)
      = (scanStrings mode (stringsElems vs)).bind fun mode => scan isDelimiter mode t := by
  match vs with
  | [] => exact scan_seps (List.forall_mem_nil _)
  | v :: vs =>
    have hbegins : Begins (stringifyElems [44] vs ++ t) := by
      cases vs with
      | nil => exact ht
      | cons w vs => rw [stringifyElems_comma]; rfl
    have hvs := scan_stringifyElems vs
      (show ∀ c ∈ [44], isSeparator c = true from List.forall_mem_of_all rfl) ht
    rw [stringifyElems, List.append_assoc, List.append_assoc, scan_seps hsep,
      scan_stringify v hbegins, stringsElems, scanStrings_append, Option.bind_assoc]
    exact congrArg _ (funext hvs)

theorem scan_stringifyMembers (members : List (JsString × Json)) {sep t : JsString}
    (hsep : ∀ c ∈ sep, isSeparator c = true) (ht : Begins t) (mode : Mode) :
    scan isDelimiter mode (stringifyMembers sep members ++ t)
      = (scanStrings mode (stringsMembers members)).bind fun mode => scan isDelimiter mode t := by
  match members with
  | [] => exact scan_seps (List.forall_mem_nil _)
  | (key, v) :: members =>
    -- a value is followed by a comma or by the closing bracket
    have hbegins : Begins (stringifyMembers [44] members ++ t) := by
      cases members with
      | nil => exact ht
      | cons m members => rw [stringifyMembers_comma]; rfl
    have hmembers := scan_stringifyMembers members
      (show ∀ c ∈ [44], isSeparator c = true from List.forall_mem_of_all rfl) ht
    have hrest (mode : Mode) :
        scan isDelimiter mode (58 :: (stringify v ++ (stringifyMembers [44] members ++ t)))
          = (scanStrings mode (v.strings ++ stringsMembers members)).bind
            fun mode => scan isDelimiter mode t := by
      rw [scan_separators rfl, scan_stringify v hbegins, scanStrings_append,
        Option.bind_assoc]
      exact congrArg _ (funext hmembers)
    simp only [stringifyMembers, List.append_assoc, List.cons_append]
    rw [scan_seps hsep, scan_quote, stringsMembers, List.cons_append, scanStrings_cons,
      Option.bind_assoc]
    exact congrArg _ (funext hrest)

end

/-! ## The end of the script -/

theorem after_of_forall {s : JsString} (h : ∀ a ∈ s, a ≠ 60 ∧ a ≠ 45) (mode : Mode) :
    mode.state.after s = some mode.state := by
  induction s with
  | nil => rfl
  | cons a s ih =>
    rw [List.forall_mem_cons] at h
    have hnext : mode.state.next a = some mode.state := by
      cases mode <;> simp [Mode.state, State.next, State.ofScriptData, State.ofEscaped,
        State.ofDoubleEscaped, h.1]
    rw [State.after, hnext, Option.bind_some, ih h.2]

theorem scan_inline (v : Json) {s : JsString} (hs : ∀ a ∈ s, a ≠ 60 ∧ a ≠ 45) (mode : Mode) :
    scan isDelimiter mode (s ++ stringify v) = scanStrings mode v.strings := by
  have hsep := scan_separator (c := 59) rfl mode (s ++ stringify v) []
  rw [List.append_assoc, scan_of_forall hs,
    scan_stringify v (show Begins [59] from rfl)] at hsep
  simp only [scan_separators (show isSeparator 59 = true from rfl), scan_nil,
    Option.bind_fun_some] at hsep
  exact hsep.symm

/-- The state behind a statement with the text of a value in it. -/
theorem after_inline (v : Json) {s t : JsString} (hs : ∀ a ∈ s, a ≠ 60 ∧ a ≠ 45)
    (ht : ∀ a ∈ t, a ≠ 60 ∧ a ≠ 45) :
    State.scriptData.after (s ++ stringify v ++ 59 :: t)
      = (scanStrings .plain v.strings).map Mode.state := by
  have hmode : (State.scriptData.after (s ++ stringify v)).map State.mode
      = scanStrings .plain v.strings :=
    (State.after_mode (Mode.named .plain) _).trans (scan_inline v hs .plain)
  have hnext (q : State) : q.after (59 :: t) = some q.mode.state := by
    rw [State.after, State.next_separator rfl, Option.bind_some, after_of_forall ht]
  rw [State.after_append, ← hmode, Option.map_map]
  simp only [hnext]
  exact Option.map_eq_bind.symm

/-- A script with the text of a value in it ends where it is closed exactly when the strings of the
    value are inert. -/
theorem behindEnd_inline (v : Json) {s t : JsString} (hs : ∀ a ∈ s, a ≠ 60 ∧ a ≠ 45)
    (ht : ∀ a ∈ t, a ≠ 60 ∧ a ≠ 45) (rest : JsString) :
    State.scriptData.behindEnd (s ++ stringify v ++ 59 :: t ++ (js "</script" ++ 62 :: rest))
      = some (62 :: rest) ↔ Inert v.strings := by
  have hafter := after_inline v hs ht
  unfold Inert
  cases hstrings : scanStrings .plain v.strings with
  | none =>
    rw [hstrings] at hafter
    obtain ⟨r, hr, hend⟩ := State.behindEnd_append_of_none (js "</script" ++ 62 :: rest) hafter
    refine iff_of_false ?_ Bool.false_ne_true
    rw [hend, Option.some.injEq]
    intro heq
    have hpos := List.length_pos_iff.mpr hr
    have hlength := congrArg List.length heq
    simp only [List.length_append, List.length_cons] at hlength
    omega
  | some mode =>
    rw [hstrings] at hafter
    rw [State.behindEnd_append_of_some _ hafter]
    cases mode with
    | plain => exact iff_of_true rfl rfl
    | escaped => exact iff_of_true rfl rfl
    | doubleEscaped =>
      -- the tag only leaves the section
      refine iff_of_false ?_ Bool.false_ne_true
      show State.escaped.behindEnd rest ≠ _
      intro hend
      have hlength := State.behindEnd_length hend
      rw [List.length_cons] at hlength
      omega

end Html

import DockerEngine.ForStd.List
import DockerEngine.Go.Str
import Mathlib.Tactic.Common
import Mathlib.Data.List.Count

/-!
# Formats without arguments (Go's `fmt.Fprintf`)

What `Fprintf` makes of its format when nothing follows it. A directive begins with a percent
sign: flags, an argument index in brackets, a width, a precision, another index, and the verb.
Without arguments no verb can print one, so all that is left of a directive is a complaint, or a
percent sign.

- `fprintf_eq_self_iff`: a line is printed as it is when there is no percent sign in it
-/

namespace Go

def isDigit (c : UInt8) : Bool := 48 ≤ c && c ≤ 57

/-! ## Runes -/

/-- A continuation byte of UTF-8. -/
def isContinuation (c : UInt8) : Bool := 0x80 ≤ c && c ≤ 0xBF

/-- The bounds for the second byte of a rune, by the first one. -/
def secondByte (a b : UInt8) : Bool :=
  (if a = 0xE0 then 0xA0 else if a = 0xF0 then 0x90 else 0x80) ≤ b &&
    b ≤ (if a = 0xED then 0x9F else if a = 0xF4 then 0x8F else 0xBF)

/-- The number of bytes of the rune at the head, which is not ASCII; `none` when the bytes are
    not valid UTF-8. -/
def runeSize : GoString → Option Nat
  | a :: b :: s =>
    if 0xC2 ≤ a ∧ a ≤ 0xDF then if isContinuation b then some 2 else none
    else if 0xE0 ≤ a ∧ a ≤ 0xEF then
      match s with
      | c :: _ => if secondByte a b ∧ isContinuation c then some 3 else none
      | [] => none
    else if 0xF0 ≤ a ∧ a ≤ 0xF4 then
      match s with
      | c :: d :: _ =>
        if secondByte a b ∧ isContinuation c ∧ isContinuation d then some 4 else none
      | _ => none
    else none
  | _ => none

/-- `utf8.DecodeRuneInString`: the rune, as it is written again, and its size. A byte that is not
    valid is read as U+FFFD. -/
def decodeRune : GoString → GoString × Nat
  | [] => ([], 0)
  | c :: s =>
    if c < 0x80 then ([c], 1)
    else
      match runeSize (c :: s) with
      | some n => ((c :: s).take n, n)
      | none => ([0xEF, 0xBF, 0xBD], 1)

/-! ## Directives -/

/-- A directive as far as it was read: what was written for it, what is left of the format, and
    the variables `goodArgNum` and `afterIndex`. -/
structure Directive where
  out : GoString
  rest : GoString
  goodArgNum : Bool
  afterIndex : Bool
  deriving DecidableEq, Repr

/-- `#`, `0`, `+`, `-` and the blank. -/
def isFlag (c : UInt8) : Bool := c ∈ [35, 48, 43, 45, 32]

/-- `tooLarge`, of a number that is not negative. -/
def tooLarge (n : Nat) : Bool := 1000000 < n

def parsenumLoop (num : Nat) (isnum : Bool) : GoString → Option Nat × GoString
  | [] => (if isnum then some num else none, [])
  | c :: s =>
    if isDigit c then
      -- an overflow skips the rest of the format
      if tooLarge num then (none, []) else parsenumLoop (num * 10 + (c.toNat - 48)) true s
    else (if isnum then some num else none, c :: s)

/-- `parsenum`: the number at the head, if there is one, and what follows it. -/
def parsenum (s : GoString) : Option Nat × GoString := parsenumLoop 0 false s

/-- `parseArgNumber`, behind the opening bracket: whether there is a number in brackets, and what
    follows. -/
def parseArgNumber (s : GoString) : Bool × GoString :=
  if s.length < 2 then (false, s)
  else if 93 ∈ s then
    (match parsenum (s.takeWhile (· ≠ 93)) with
      | (some _, []) => true
      | _ => false,
    (s.dropWhile (· ≠ 93)).drop 1)
  else (false, s)

namespace Directive

/-- `argNumber`. No index is in the range of the arguments. -/
def argNumber (d : Directive) : Directive :=
  match d.rest with
  | 91 :: s =>
    let (ok, rest) := parseArgNumber s
    { d with rest, goodArgNum := false, afterIndex := ok }
  | _ => { d with afterIndex := false }

def width (d : Directive) : Directive :=
  match d.rest with
  | 42 :: s => { d with out := d.out ++ str "%!(BADWIDTH)", rest := s, afterIndex := false }
  | s =>
    let (num, rest) := parsenum s
    { d with rest, goodArgNum := d.goodArgNum && !(d.afterIndex && num.isSome) }

/-- The precision, behind its dot and the argument index. -/
def precisionNumber (d : Directive) : Directive :=
  match d.rest with
  | 42 :: s => { d with out := d.out ++ str "%!(BADPREC)", rest := s, afterIndex := false }
  | s => { d with rest := (parsenum s).2 }

def precision (d : Directive) : Directive :=
  match d.rest with
  | 46 :: s =>
    (argNumber { d with rest := s, goodArgNum := d.goodArgNum && !d.afterIndex }).precisionNumber
  | _ => d

/-- The last step: what was written for the directive, and what is left of the format. -/
def verb (d : Directive) : GoString × GoString :=
  match d.rest with
  | [] => (d.out ++ str "%!(NOVERB)", [])
  | c :: s =>
    let (rune, size) := decodeRune (c :: s)
    let out :=
      if rune = str "%" then str "%"
      else if d.goodArgNum then str "%!" ++ rune ++ str "(MISSING)"
      else str "%!" ++ rune ++ str "(BADINDEX)"
    (d.out ++ out, (c :: s).drop size)

/-- The format, behind a percent sign, up to its verb. -/
def read (s : GoString) : Directive :=
  let d := precision (width (argNumber ⟨[], s.dropWhile isFlag, true, false⟩))
  if d.afterIndex then d else d.argNumber

end Directive

/-- `doPrintf`, with a bound on the number of bytes and directives. -/
def doPrintf : Nat → GoString → GoString
  | 0, _ | _, [] => []
  | n + 1, c :: s =>
    if c = 37 then
      let (out, rest) := (Directive.read s).verb
      out ++ doPrintf n rest
    else c :: doPrintf n s

/-- `fmt.Fprintf` without arguments: what it writes. -/
def fprintf (format : GoString) : GoString := doPrintf format.length format

example : fprintf (str "100%\n") = str "100%!\n(MISSING)" := by decide

/-! ## What a directive skips and writes -/

/-- A complaint has an exclamation mark, and no bracket or newline. -/
structure Complaint (wrote : GoString) : Prop where
  mark : wrote ≠ [] → 33 ∈ wrote
  bracket : 91 ∉ wrote
  newline : 10 ∉ wrote

theorem Complaint.nil : Complaint [] := ⟨by simp, by simp, by simp⟩

theorem Complaint.append {wrote wrote' : GoString} (h : Complaint wrote)
    (h' : Complaint wrote') : Complaint (wrote ++ wrote') where
  mark hne := by
    rcases wrote with _ | ⟨c, cs⟩
    · exact h'.mark (by simpa using hne)
    · exact List.mem_append_left _ (h.mark (List.cons_ne_nil c cs))
  bracket hmem := (List.mem_append.mp hmem).elim h.bracket h'.bracket
  newline hmem := (List.mem_append.mp hmem).elim h.newline h'.newline

namespace Directive

/-- A step of a directive, in front of its verb: without a bracket it skips no exclamation mark,
    unless it skips all of the format. -/
structure Skips (d d' : Directive) (used wrote : GoString) : Prop where
  rest : d.rest = used ++ d'.rest
  out : d'.out = d.out ++ wrote
  complaint : Complaint wrote
  bracket : 91 ∉ used → d'.rest = [] ∨ 33 ∉ used

variable {d d' d'' : Directive} {used used' wrote wrote' : GoString}

theorem Skips.refl (h : d'.rest = d.rest) (hout : d'.out = d.out) : Skips d d' [] [] :=
  ⟨by simp [h], by simp [hout], .nil, fun _ => .inr (by simp)⟩

theorem Skips.trans (h : Skips d d' used wrote) (h' : Skips d' d'' used' wrote') :
    Skips d d'' (used ++ used') (wrote ++ wrote') where
  rest := by rw [h.rest, h'.rest, List.append_assoc]
  out := by rw [h'.out, h.out, List.append_assoc]
  complaint := h.complaint.append h'.complaint
  bracket hmem := by
    rw [List.mem_append, not_or] at hmem
    rcases h'.bracket hmem.2 with hend | hmark
    · exact .inl hend
    · rcases h.bracket hmem.1 with hend | hmark'
      · -- the first step has left nothing for the second one
        have hnil := h'.rest
        rw [hend] at hnil
        exact .inl (List.append_eq_nil_iff.mp hnil.symm).2
      · exact .inr (by simp [hmark, hmark'])

end Directive

/-- A number skips digits, or it is too large and skips everything. -/
theorem parsenumLoop_rest (num : Nat) (isnum : Bool) (s : GoString) :
    ∃ used, s = used ++ (parsenumLoop num isnum s).2 ∧
      ((parsenumLoop num isnum s).2 = [] ∨ ∀ c ∈ used, isDigit c) := by
  induction s generalizing num isnum with
  | nil => exact ⟨[], rfl, .inl rfl⟩
  | cons c s ih =>
    rw [parsenumLoop]
    split
    · next hdigit =>
      split
      · exact ⟨c :: s, by simp, .inl rfl⟩
      · obtain ⟨used, hs, hused⟩ := ih (num * 10 + (c.toNat - 48)) true
        refine ⟨c :: used, by rw [List.cons_append, ← hs], ?_⟩
        rcases hused with hend | hdigits
        · exact .inl hend
        · refine .inr fun d hd => ?_
          rcases List.mem_cons.mp hd with rfl | hd
          · exact hdigit
          · exact hdigits d hd
    · exact ⟨[], rfl, .inr (by simp)⟩

theorem parseArgNumber_rest (s : GoString) : ∃ used, s = used ++ (parseArgNumber s).2 := by
  unfold parseArgNumber
  split
  · exact ⟨[], rfl⟩
  · split
    · refine ⟨s.takeWhile (· ≠ 93) ++ (s.dropWhile (· ≠ 93)).take 1, ?_⟩
      rw [List.append_assoc, List.take_append_drop, List.takeWhile_append_dropWhile]
    · exact ⟨[], rfl⟩

namespace Directive

variable (d : Directive)

/-- A number of the format is skipped. -/
theorem skips_parsenum (d' : Directive) (hrest : d'.rest = (parsenum d.rest).2)
    (hout : d'.out = d.out) : ∃ used, Skips d d' used [] := by
  obtain ⟨used, hs, hused⟩ := parsenumLoop_rest 0 false d.rest
  refine ⟨used, ?_, by simp [hout], .nil, fun _ => ?_⟩
  · rw [hrest]
    exact hs
  · rcases hused with hend | hdigits
    · exact .inl (hrest.trans hend)
    · exact .inr fun hmem => absurd (hdigits 33 hmem) (by decide)

theorem skips_argNumber : ∃ used, Skips d d.argNumber used [] := by
  unfold argNumber
  split
  · next s hs =>
    obtain ⟨used, hused⟩ := parseArgNumber_rest s
    refine ⟨91 :: used, ?_, by simp, .nil, fun hmem => absurd List.mem_cons_self hmem⟩
    rw [hs, List.cons_append, ← hused]
  · exact ⟨[], .refl rfl rfl⟩

theorem skips_width : ∃ used wrote, Skips d d.width used wrote := by
  unfold width
  split
  · next s hs =>
    refine ⟨[42], str "%!(BADWIDTH)", hs, rfl, ⟨?_, ?_, ?_⟩, fun _ => .inr ?_⟩ <;> decide
  · next s _ =>
    obtain ⟨used, hused⟩ := skips_parsenum d { d with
      rest := (parsenum d.rest).2
      goodArgNum := d.goodArgNum && !(d.afterIndex && (parsenum d.rest).1.isSome) } rfl rfl
    exact ⟨used, [], hused⟩

theorem skips_precisionNumber : ∃ used wrote, Skips d d.precisionNumber used wrote := by
  unfold precisionNumber
  split
  · next s hs =>
    refine ⟨[42], str "%!(BADPREC)", hs, rfl, ⟨?_, ?_, ?_⟩, fun _ => .inr ?_⟩ <;> decide
  · next s _ =>
    obtain ⟨used, hused⟩ := skips_parsenum d { d with rest := (parsenum d.rest).2 } rfl rfl
    exact ⟨used, [], hused⟩

theorem skips_precision : ∃ used wrote, Skips d d.precision used wrote := by
  unfold precision
  split
  · next s hs =>
    have hdot : Skips d { d with rest := s, goodArgNum := d.goodArgNum && !d.afterIndex } [46] [] :=
      ⟨hs, by simp, .nil, fun _ => .inr (by decide)⟩
    obtain ⟨used, hindex⟩ := skips_argNumber
      { d with rest := s, goodArgNum := d.goodArgNum && !d.afterIndex }
    obtain ⟨used', wrote, hnumber⟩ := skips_precisionNumber (argNumber _)
    exact ⟨_, _, (hdot.trans hindex).trans hnumber⟩
  · exact ⟨[], [], .refl rfl rfl⟩

theorem skips_read (s : GoString) :
    ∃ used wrote, Skips ⟨[], s, true, false⟩ (read s) used wrote := by
  have hflags : Skips ⟨[], s, true, false⟩ ⟨[], s.dropWhile isFlag, true, false⟩
      (s.takeWhile isFlag) [] := by
    refine ⟨List.takeWhile_append_dropWhile.symm, rfl, .nil, fun _ => .inr fun hmem => ?_⟩
    exact absurd (List.all_eq_true.mp List.all_takeWhile 33 hmem) (by decide)
  obtain ⟨used₁, hindex⟩ := skips_argNumber ⟨[], s.dropWhile isFlag, true, false⟩
  obtain ⟨used₂, wrote₂, hwidth⟩ := skips_width (argNumber ⟨[], s.dropWhile isFlag, true, false⟩)
  obtain ⟨used₃, wrote₃, hprecision⟩ :=
    skips_precision (width (argNumber ⟨[], s.dropWhile isFlag, true, false⟩))
  have hskips := ((hflags.trans hindex).trans hwidth).trans hprecision
  simp only [read]
  split
  · exact ⟨_, _, hskips⟩
  · obtain ⟨used₄, hindex'⟩ := skips_argNumber
      (precision (width (argNumber ⟨[], s.dropWhile isFlag, true, false⟩)))
    exact ⟨_, _, hskips.trans hindex'⟩

end Directive

/-! ## Runes -/

theorem isContinuation_le {c : UInt8} (h : isContinuation c) : 0x80 ≤ c := by
  simp only [isContinuation, Bool.and_eq_true, decide_eq_true_eq] at h
  exact h.1

theorem secondByte_le {a b : UInt8} (h : secondByte a b) : 0x80 ≤ b := by
  simp only [secondByte, Bool.and_eq_true, decide_eq_true_eq] at h
  refine UInt8.le_trans ?_ h.1
  split
  · decide
  · split <;> decide

/-- No byte of a rune that is not ASCII is ASCII. -/
theorem runeSize_take {s : GoString} {n : Nat} (h : runeSize s = some n) :
    0 < n ∧ n ≤ s.length ∧ ∀ c ∈ s.take n, 0x80 ≤ c := by
  have hlead {a lo : UInt8} (hlo : 0x80 ≤ lo) (ha : lo ≤ a) : 0x80 ≤ a := UInt8.le_trans hlo ha
  match s with
  | [] | [_] => simp [runeSize] at h
  | a :: b :: s =>
    simp only [runeSize] at h
    -- the lead byte tells the number of bytes: two, three or four
    split at h
    · next ha =>
      split at h
      · next hb =>
        cases h
        simpa using ⟨hlead (by decide) ha.1, isContinuation_le hb⟩
      · simp at h
    · split at h
      · next ha =>
        match s with
        | [] => simp at h
        | c :: s =>
          simp only at h
          split at h
          · next hbc =>
            cases h
            simpa using ⟨hlead (by decide) ha.1, secondByte_le hbc.1, isContinuation_le hbc.2⟩
          · simp at h
      · split at h
        · next ha =>
          match s with
          | [] | [_] => simp at h
          | c :: d :: s =>
            simp only at h
            split at h
            · next hbcd =>
              cases h
              simpa using ⟨hlead (by decide) ha.1, secondByte_le hbcd.1,
                isContinuation_le hbcd.2.1, isContinuation_le hbcd.2.2⟩
            · simp at h
        · simp at h

theorem count_eq_zero_of_le {s : GoString} (h : ∀ b ∈ s, 0x80 ≤ b) {c : UInt8} (hc : c < 0x80) :
    s.count c = 0 :=
  List.count_eq_zero.mpr fun hmem => absurd (h c hmem) (UInt8.not_le.mpr hc)

/-- A rune is written with the ASCII bytes that it was read from. -/
theorem decodeRune_count (c : UInt8) (s : GoString) :
    0 < (decodeRune (c :: s)).2 ∧
      (∀ b < 0x80, (decodeRune (c :: s)).1.count b
        = ((c :: s).take (decodeRune (c :: s)).2).count b) ∧
      ((decodeRune (c :: s)).1 = [37] → (c :: s).take (decodeRune (c :: s)).2 = [37]) := by
  rw [decodeRune]
  split
  · exact ⟨Nat.one_pos, fun b _ => rfl, fun h => h⟩
  · next hc =>
    -- neither what is read nor what is written is ASCII
    have hother {rune : GoString} {n : Nat} (hn : 0 < n) (hrune : ∀ b ∈ rune, 0x80 ≤ b)
        (htake : ∀ b ∈ (c :: s).take n, 0x80 ≤ b) :
        0 < n ∧ (∀ b < 0x80, rune.count b = ((c :: s).take n).count b) ∧
          (rune = [37] → (c :: s).take n = [37]) := by
      refine ⟨hn, fun b hb => ?_, fun h => ?_⟩
      · rw [count_eq_zero_of_le hrune hb, count_eq_zero_of_le htake hb]
      · exact absurd (hrune 37 (by simp [h])) (by decide)
    cases hsize : runeSize (c :: s) with
    | none =>
      have hlast : ∀ b ∈ (c :: s).take 1, 0x80 ≤ b := by simpa using UInt8.not_lt.mp hc
      exact @hother [0xEF, 0xBF, 0xBD] 1 Nat.one_pos (List.forall_mem_of_all rfl) hlast
    | some n =>
      obtain ⟨hpos, -, htake⟩ := runeSize_take hsize
      exact hother hpos htake htake

/-! ## Verbs -/

/-- What a verb is printed as: a percent sign, or a complaint with the verb in it. -/
inductive Printed (v : GoString) : GoString → Prop where
  | percent (hv : v = [37]) : Printed v [37]
  | bad {rune tail : GoString} (hrune : ∀ c < 0x80, rune.count c = v.count c)
      (htail : tail = str "(MISSING)" ∨ tail = str "(BADINDEX)") :
      Printed v (str "%!" ++ rune ++ tail)

/-- What becomes of the format behind a percent sign. -/
inductive Rewrites (s : GoString) : GoString → GoString → Prop where
  | noVerb {out : GoString} (hout : Complaint out) : Rewrites s out []
  | verb {used v rest wrote out : GoString} (hs : s = used ++ (v ++ rest)) (hv : v ≠ [])
      (hused : 91 ∉ used → 33 ∉ used) (hwrote : Complaint wrote) (hout : Printed v out) :
      Rewrites s (wrote ++ out) rest

theorem Directive.rewrites_verb (s : GoString) :
    Rewrites s (Directive.read s).verb.1 (Directive.read s).verb.2 := by
  obtain ⟨used, wrote, hskips⟩ := Directive.skips_read s
  have hs := hskips.rest
  have hwrote := hskips.complaint
  have hout := hskips.out
  rw [List.nil_append] at hout
  cases hrest : (Directive.read s).rest with
  | nil =>
    -- the format ends before the verb
    have hverb : (Directive.read s).verb = (wrote ++ str "%!(NOVERB)", []) := by
      simp only [Directive.verb, hrest, hout]
    rw [hverb]
    exact .noVerb (hwrote.append ⟨by decide, by decide, by decide⟩)
  | cons c rest =>
    have hused : 91 ∉ used → 33 ∉ used := fun h => by
      simpa [hrest] using hskips.bracket h
    obtain ⟨hpos, hcount, hpercent⟩ := decodeRune_count c rest
    generalize hdecode : decodeRune (c :: rest) = decoded at hpos hcount hpercent
    obtain ⟨rune, size⟩ := decoded
    have hv : (c :: rest).take size ≠ [] := by
      simp only [ne_eq, List.take_eq_nil_iff, reduceCtorEq, or_false]
      omega
    have hsplit : s = used ++ ((c :: rest).take size ++ (c :: rest).drop size) := by
      rw [List.take_append_drop, ← hrest]
      exact hs
    simp only [Directive.verb, hrest, hdecode, hout]
    apply Rewrites.verb hsplit hv hused hwrote
    split
    -- `%%` is printed whatever was read before it; other verbs have no argument
    · next hrune => exact .percent (hpercent hrune)
    · split
      · exact .bad hcount (.inl rfl)
      · exact .bad hcount (.inr rfl)

/-- No more is left of the format than there was. -/
theorem Rewrites.length_le {s out rest : GoString} (h : Rewrites s out rest) :
    rest.length ≤ s.length := by
  cases h with
  | noVerb => simp
  | verb hs =>
    rw [hs, List.length_append, List.length_append]
    omega

/-! ## Formats -/

theorem doPrintf_percent (n : Nat) (s : GoString) :
    doPrintf (n + 1) (37 :: s)
      = (Directive.read s).verb.1 ++ doPrintf n (Directive.read s).verb.2 := rfl

theorem doPrintf_byte (n : Nat) {c : UInt8} (hc : c ≠ 37) (s : GoString) :
    doPrintf (n + 1) (c :: s) = c :: doPrintf n s := by
  rw [doPrintf, if_neg hc]

/-- More steps than the format has bytes make no difference. -/
theorem doPrintf_fuel {n : Nat} {s : GoString} (hn : s.length ≤ n) :
    doPrintf n s = fprintf s := by
  rw [fprintf]
  generalize hm : s.length = m at hn
  have hlength : s.length ≤ m := by omega
  clear hm
  induction n generalizing m s with
  | zero =>
    rw [Nat.le_zero.mp hn]
  | succ n ih =>
    cases s with
    | nil => cases m <;> rfl
    | cons c s =>
      -- a step takes one byte at least, so both have steps left
      cases m with
      | zero => simp at hlength
      | succ m =>
        rw [List.length_cons] at hlength
        have hrest := (Directive.rewrites_verb s).length_le
        by_cases hc : c = 37
        · subst hc
          rw [doPrintf_percent, doPrintf_percent, ih m (by omega) (by omega)]
        · rw [doPrintf_byte n hc, doPrintf_byte m hc, ih m (by omega) (by omega)]

@[simp] theorem fprintf_nil : fprintf [] = [] := rfl

theorem fprintf_byte {c : UInt8} (hc : c ≠ 37) (s : GoString) :
    fprintf (c :: s) = c :: fprintf s := by
  rw [fprintf, List.length_cons, doPrintf_byte _ hc, fprintf]

theorem fprintf_percent (s : GoString) :
    fprintf (37 :: s)
      = (Directive.read s).verb.1 ++ fprintf (Directive.read s).verb.2 := by
  rw [fprintf, List.length_cons, doPrintf_percent,
    doPrintf_fuel (Directive.rewrites_verb s).length_le]

/-- Induction along a format, directive by directive. -/
theorem fprintf_induction {P : GoString → GoString → Prop} (nil : P [] [])
    (byte : ∀ c s, c ≠ 37 → P s (fprintf s) → P (c :: s) (c :: fprintf s))
    (directive : ∀ s out rest, Rewrites s out rest → P rest (fprintf rest) →
      P (37 :: s) (out ++ fprintf rest)) (s : GoString) : P s (fprintf s) := by
  generalize hn : s.length = n
  induction n using Nat.strongRecOn generalizing s with
  | ind n ih =>
    cases s with
    | nil => exact nil
    | cons c s =>
      rw [List.length_cons] at hn
      by_cases hc : c = 37
      · subst hc
        have hrewrites := Directive.rewrites_verb s
        rw [fprintf_percent]
        have hle := hrewrites.length_le
        exact directive s _ _ hrewrites (ih _ (by omega) _ rfl)
      · rw [fprintf_byte hc]
        exact byte c s hc (ih _ (by omega) s rfl)

/-- Text without a percent sign is printed as it is. -/
theorem fprintf_of_not_mem {s : GoString} (h : 37 ∉ s) : fprintf s = s := by
  induction s with
  | nil => rfl
  | cons c s ih =>
    rw [List.mem_cons, not_or] at h
    rw [fprintf_byte (Ne.symm h.1), ih h.2]

/-! ## What a format can lose

A directive that is printed as it stands would have to keep its brackets and its newlines, so it
has no argument index and the format goes on behind it. Then it can only gain exclamation marks,
and without any it is down to a percent sign. -/

theorem Complaint.count_mark {wrote : GoString} (h : Complaint wrote)
    (hcount : wrote.count 33 = 0) : wrote = [] := by
  by_contra hne
  exact List.count_eq_zero.mp hcount (h.mark hne)

theorem Complaint.count_eq_zero {wrote : GoString} (h : Complaint wrote) {c : UInt8}
    (hc : c = 91 ∨ c = 10) : wrote.count c = 0 := by
  rcases hc with rfl | rfl
  · exact List.count_eq_zero.mpr h.bracket
  · exact List.count_eq_zero.mpr h.newline

/-- A verb is printed with its brackets and newlines. -/
theorem Printed.count_eq {v out : GoString} (h : Printed v out) {c : UInt8}
    (hc : c = 91 ∨ c = 10) : out.count c = v.count c := by
  cases h with
  | percent hv => rw [hv]
  | bad hrune htail =>
    rw [List.count_append, List.count_append, hrune c (by rcases hc with rfl | rfl <;> decide)]
    rcases hc with rfl | rfl <;> rcases htail with rfl | rfl <;>
      simp [show (str "%!").count 91 = 0 by decide, show (str "%!").count 10 = 0 by decide,
        show (str "(MISSING)").count 91 = 0 by decide,
        show (str "(MISSING)").count 10 = 0 by decide,
        show (str "(BADINDEX)").count 91 = 0 by decide,
        show (str "(BADINDEX)").count 10 = 0 by decide]

theorem Rewrites.count_le {s out rest : GoString} (h : Rewrites s out rest) {c : UInt8}
    (hc : c = 91 ∨ c = 10) : out.count c + rest.count c ≤ s.count c := by
  cases h with
  | noVerb hout => simp [hout.count_eq_zero hc]
  | verb hs _ _ hwrote hout =>
    rw [hs, List.count_append, List.count_append, List.count_append, hwrote.count_eq_zero hc,
      hout.count_eq hc]
    omega

theorem fprintf_count_le {c : UInt8} (hc : c = 91 ∨ c = 10) (s : GoString) :
    (fprintf s).count c ≤ s.count c := by
  have hpercent : ¬(37 : UInt8) = c := by rcases hc with rfl | rfl <;> decide
  refine fprintf_induction (P := fun s t => t.count c ≤ s.count c) (Nat.le_refl _)
    (fun b s _ ih => ?_) (fun s out rest hrewrites ih => ?_) s
  · rw [List.count_cons, List.count_cons]
    omega
  · have hle := hrewrites.count_le hc
    rw [List.count_append, List.count_cons]
    omega

theorem Printed.count_mark {v out : GoString} (h : Printed v out) :
    (v = [37] ∧ out = [37]) ∨ out.count 33 = 1 + v.count 33 := by
  cases h with
  | percent hv => exact .inl ⟨hv, rfl⟩
  | bad hrune htail =>
    refine .inr ?_
    rw [List.count_append, List.count_append, hrune 33 (by decide),
      show (str "%!").count 33 = 1 by decide]
    rcases htail with rfl | rfl
    · rw [show (str "(MISSING)").count 33 = 0 by decide, Nat.add_zero]
    · rw [show (str "(BADINDEX)").count 33 = 0 by decide, Nat.add_zero]

/-- `t` is what becomes of `s` without losing a mark: it is no longer, and shorter if `s` has a
    percent sign, unless it has more marks. -/
structure Keeps (s t : GoString) : Prop where
  mark : s.count 33 ≤ t.count 33
  length : t.count 33 = s.count 33 → t.length ≤ s.length
  percent : t.count 33 = s.count 33 → 37 ∈ s → t.length < s.length

theorem Keeps.byte {s t : GoString} (h : Keeps s t) {c : UInt8} (hc : c ≠ 37) :
    Keeps (c :: s) (c :: t) where
  mark := by
    have hmark := h.mark
    rw [List.count_cons, List.count_cons]
    omega
  length heq := by
    have hlength := h.length
    rw [List.count_cons, List.count_cons] at heq
    rw [List.length_cons, List.length_cons]
    omega
  percent heq hmem := by
    rw [List.count_cons, List.count_cons] at heq
    rw [List.mem_cons] at hmem
    have hpercent := h.percent (by omega) (hmem.resolve_left (Ne.symm hc))
    rw [List.length_cons, List.length_cons]
    omega

/-- A directive without a bracket. -/
theorem Keeps.directive {rest t used v wrote out : GoString} (h : Keeps rest t)
    (hv : v ≠ []) (hused : used.count 33 = 0) (hwrote : Complaint wrote) (hout : Printed v out) :
    Keeps (37 :: (used ++ (v ++ rest))) (wrote ++ out ++ t) := by
  have hmark := h.mark
  have hlength := h.length
  have hpos := List.length_pos_iff.mpr hv
  have hcount : (37 :: (used ++ (v ++ rest))).count 33 = v.count 33 + rest.count 33 := by
    simp [hused]
  have hcount' : (wrote ++ out ++ t).count 33 = wrote.count 33 + out.count 33 + t.count 33 := by
    rw [List.count_append, List.count_append]
  have hshort : (wrote ++ out ++ t).count 33 = (37 :: (used ++ (v ++ rest))).count 33 →
      (wrote ++ out ++ t).length < (37 :: (used ++ (v ++ rest))).length := by
    intro heq
    rw [hcount, hcount'] at heq
    -- either `%%`, which is one percent sign shorter, or a complaint with a mark of its own
    rcases hout.count_mark with ⟨rfl, rfl⟩ | hbad
    · have hnil := hwrote.count_mark (by simp at heq; omega)
      simp only [hnil, List.count_nil, List.count_singleton] at heq
      simp only [hnil, List.length_append, List.length_cons, List.length_nil]
      have hle := hlength (by simpa using heq)
      omega
    · omega
  refine ⟨?_, fun heq => Nat.le_of_lt (hshort heq), fun heq _ => hshort heq⟩
  rw [hcount, hcount']
  rcases hout.count_mark with ⟨rfl, rfl⟩ | hbad
  · simp
    omega
  · omega

/-- A format that ends with a newline, and is printed with all its brackets and newlines. -/
theorem fprintf_keeps (s : GoString) (hs : s = [] ∨ s.getLast? = some 10)
    (hbracket : (fprintf s).count 91 = s.count 91) (hnewline : (fprintf s).count 10 = s.count 10) :
    Keeps s (fprintf s) := by
  revert hs hbracket hnewline
  refine fprintf_induction (P := fun s t => (s = [] ∨ s.getLast? = some 10) →
    t.count 91 = s.count 91 → t.count 10 = s.count 10 → Keeps s t)
    (fun _ _ _ => ⟨Nat.le_refl _, fun _ => Nat.le_refl _, by simp⟩)
    (fun c s hc ih hs hbracket hnewline => ?_)
    (fun s out rest hrewrites ih hs hbracket hnewline => ?_) s
  · rw [List.count_cons, List.count_cons] at hbracket hnewline
    refine (ih ?_ (by omega) (by omega)).byte hc
    cases s with
    | nil => exact .inl rfl
    | cons d s => simpa using hs
  · have hcount (c : UInt8) (hc : c = 91 ∨ c = 10) (heq : (out ++ fprintf rest).count c
        = (37 :: s).count c) : s.count c ≤ out.count c + (fprintf rest).count c := by
      have hpercent : ¬(37 : UInt8) = c := by rcases hc with rfl | rfl <;> decide
      rw [List.count_append, List.count_cons] at heq
      omega
    have hbracket' := hcount 91 (.inl rfl) hbracket
    have hnewline' := hcount 10 (.inr rfl) hnewline
    -- the percent sign is not the last byte
    have hlast : s.getLast? = some 10 := by
      rcases hs with hs | hs
      · simp at hs
      · cases s with
        | nil => simp at hs
        | cons d s => simpa using hs
    cases hrewrites with
    | noVerb hout =>
      have hmem : 10 ∈ s := List.mem_of_getLast? hlast
      have hpos := List.count_pos_iff.mpr hmem
      rw [hout.count_eq_zero (.inr rfl)] at hnewline'
      simp only [fprintf_nil, List.count_nil] at hnewline'
      omega
    | @verb used v rest' wrote out hsplit hv hused hwrote hout =>
      have hle := fprintf_count_le (.inl rfl : (91 : UInt8) = 91 ∨ (91 : UInt8) = 10) rest
      have hle' := fprintf_count_le (.inr rfl : (10 : UInt8) = 91 ∨ (10 : UInt8) = 10) rest
      rw [hsplit, List.count_append, List.count_append, List.count_append,
        hwrote.count_eq_zero (.inl rfl), hout.count_eq (.inl rfl)] at hbracket'
      rw [hsplit, List.count_append, List.count_append, List.count_append,
        hwrote.count_eq_zero (.inr rfl), hout.count_eq (.inr rfl)] at hnewline'
      have hrest : rest = [] ∨ rest.getLast? = some 10 := by
        by_cases hnil : rest = []
        · exact .inl hnil
        · obtain ⟨b, hb⟩ := Option.ne_none_iff_exists'.mp (mt List.getLast?_eq_none_iff.mp hnil)
          rw [hsplit, ← List.append_assoc, List.getLast?_append, hb, Option.some_or] at hlast
          exact .inr (hb.trans hlast)
      have hmarks : used.count 33 = 0 :=
        List.count_eq_zero.mpr (hused (List.count_eq_zero.mp (by omega)))
      rw [hsplit]
      exact (ih hrest (by omega) (by omega)).directive hv hmarks hwrote hout

/-- A line is printed as it is when there is no percent sign in it, and only then. -/
theorem fprintf_eq_self_iff (s : GoString) : fprintf (s ++ [10]) = s ++ [10] ↔ 37 ∉ s := by
  constructor
  · intro h hmem
    have hkeeps := fprintf_keeps (s ++ [10]) (.inr (by simp)) (by rw [h]) (by rw [h])
    have hlt := hkeeps.percent (by rw [h]) (List.mem_append_left _ hmem)
    rw [h] at hlt
    omega
  · intro h
    apply fprintf_of_not_mem
    simp [h]

end Go

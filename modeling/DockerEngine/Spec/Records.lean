import DockerEngine.Js.RegExp
import DockerEngine.Spec.Timeline
import DockerEngine.ForStd.List

/-!
# The commas in a number of records

`transformTimelineEvents` sets commas into the number of records of a breach, with a regular
expression that looks from every position to the end of the digits.

- `replaceAll_thousands`: what the matcher does with the regular expression, on any text
- `records_grouped`: on digits
-/

namespace Timeline

open Js RegExp

/-- `/\B(?=(\d{3})+(?!\d))/` -/
def thousands : Pattern UInt16 :=
  .seq (.notBoundary isWord)
    (.ahead (.seq (.plus (.times (.unit isDigit) 3)) (.notAhead (.unit isDigit))))

/-! ## The matcher -/

theorem mem_three_digits {s : JsString} {i j : Nat} :
    j ∈ (Pattern.times (.unit isDigit) 3).ends s i ↔
      (∃ a b c rest, s.drop i = a :: b :: c :: rest ∧
        isDigit a = true ∧ isDigit b = true ∧ isDigit c = true) ∧ j = i + 3 := by
  simp only [Pattern.times, Pattern.mem_seq, Pattern.mem_unit, Pattern.mem_empty,
    Option.any_eq_true, List.drop_eq_cons_iff]
  constructor
  · rintro ⟨_, ⟨⟨a, ha, hda⟩, rfl⟩, _, ⟨⟨b, hb, hdb⟩, rfl⟩, _, ⟨⟨c, hc, hdc⟩, rfl⟩, rfl⟩
    exact ⟨⟨a, b, c, _, ⟨ha, hb, hc, rfl⟩, hda, hdb, hdc⟩, rfl⟩
  · rintro ⟨⟨a, b, c, _, ⟨ha, hb, hc, -⟩, hda, hdb, hdc⟩, rfl⟩
    exact ⟨_, ⟨⟨a, ha, hda⟩, rfl⟩, _, ⟨⟨b, hb, hdb⟩, rfl⟩, _, ⟨⟨c, hc, hdc⟩, rfl⟩, rfl⟩

/-- `(\d{3})+(?!\d)` can end somewhere. -/
theorem triples_iff {s t : JsString} {i : Nat} (ht : s.drop i = t) : triples t = true ↔
    ∃ j, j ∈ (Pattern.plus (.times (.unit isDigit) 3)).ends s i ∧ s[j]?.any isDigit = false := by
  induction t using triples.induct generalizing i with
  | case1 a b c rest ih =>
    have hrest : s.drop (i + 3) = rest := by
      simp only [List.drop_eq_cons_iff] at ht
      exact ht.2.2.2
    have hhead : rest.head? = s[i + 3]? := by rw [← hrest, List.head?_drop]
    -- one round takes the three characters, and the others begin behind them
    have hunroll : ∀ j, j ∈ (Pattern.plus (.times (.unit isDigit) 3)).ends s i ↔
        (isDigit a = true ∧ isDigit b = true ∧ isDigit c = true) ∧
          (j = i + 3 ∨ j ∈ (Pattern.plus (.times (.unit isDigit) 3)).ends s (i + 3)) := by
      intro j
      rw [Pattern.mem_plus_iff_exists]
      simp only [mem_three_digits, ht, List.cons.injEq]
      grind
    simp only [hunroll, triples, Bool.and_eq_true, Bool.or_eq_true, Bool.not_eq_true', ih hrest,
      hhead]
    grind
  | case2 t hshort =>
    have hnone : ∀ j, j ∉ (Pattern.plus (.times (.unit isDigit) 3)).ends s i := by
      intro j hj
      rw [Pattern.mem_plus_iff_exists] at hj
      obtain ⟨k, hk, -⟩ := hj
      obtain ⟨⟨a, b, c, rest, hdrop, -⟩, -⟩ := mem_three_digits.mp hk
      exact hshort a b c rest (ht.symm.trans hdrop)
    rw [triples]
    · simp [hnone]
    · exact hshort

theorem matchesAt_thousands {s : JsString} {i : Nat} : thousands.matchesAt s i = true ↔
    (s.take i).getLast?.any isWord = s[i]?.any isWord ∧ triples (s.drop i) = true := by
  rw [triples_iff rfl, Pattern.matchesAt_iff]
  have hlook : ∀ j, (∃ k, k ∈ (Pattern.seq (.plus (.times (.unit isDigit) 3))
      (.notAhead (.unit isDigit))).ends s j) ↔
        ∃ k, k ∈ (Pattern.plus (.times (.unit isDigit) 3)).ends s j ∧
          s[k]?.any isDigit = false := by
    intro j
    simp only [Pattern.mem_seq, Pattern.mem_notAhead, Pattern.mem_unit, not_and]
    constructor
    · rintro ⟨_, k, hk, hend, -⟩
      exact ⟨k, hk, by simpa using fun hany => hend (k + 1) hany rfl⟩
    · rintro ⟨k, hk, hend⟩
      exact ⟨k, k, hk, fun _ hany => absurd hany (by simp [hend]), rfl⟩
  simp only [thousands, Pattern.mem_seq (b := .ahead _), Pattern.mem_notBoundary,
    Pattern.mem_ahead, hlook]
  constructor
  · rintro ⟨_, _, ⟨hword, rfl⟩, htriples, -⟩
    exact ⟨hword, htriples⟩
  · rintro ⟨hword, htriples⟩
    exact ⟨i, i, ⟨hword, rfl⟩, htriples, rfl⟩

theorem isAssertion_thousands : thousands.IsAssertion :=
  (Pattern.isAssertion_notBoundary isWord).seq (Pattern.isAssertion_ahead _)

theorem insertAt_thousands {s t : JsString} {i : Nat} (ht : s.drop i = t) :
    Pattern.insertAt (js ",") (thousands.matchesAt s) i t =
      addCommas (s.take i).getLast? t := by
  induction t generalizing i with
  | nil =>
    have hnot : thousands.matchesAt s i = false := by
      by_contra hmatch
      rw [Bool.not_eq_false] at hmatch
      have htriples := (matchesAt_thousands.mp hmatch).2
      rw [ht] at htriples
      exact absurd htriples (by simp [triples])
    simp [Pattern.insertAt, addCommas, hnot]
  | cons c t ih =>
    obtain ⟨hget, hrest⟩ := List.drop_eq_cons_iff.mp ht
    have hlast : (s.take (i + 1)).getLast? = some c := by
      rw [List.take_add_one, hget]
      exact List.getLast?_concat
    have hmatch := @matchesAt_thousands s i
    rw [hget, ht, Option.any_some] at hmatch
    rw [Pattern.insertAt, ih hrest, hlast, addCommas]
    by_cases h : (s.take i).getLast?.any isWord = isWord c ∧ triples (c :: t) = true
    · rw [if_pos (hmatch.mpr h), if_pos h]
    · rw [if_neg (fun hm => h (hmatch.mp hm)), if_neg h]
      rfl

/-- What the code prints is what the matcher gives, on any text. -/
theorem replaceAll_thousands (s : JsString) :
    thousands.replaceAll s (js ",") = addCommas none s := by
  rw [isAssertion_thousands.replaceAll_eq, insertAt_thousands (List.drop_zero)]
  rfl

/-! ## Digits -/

def comma : UInt16 := 44

/-- The digits, in groups of three from the end. -/
structure Grouped (digits text : JsString) : Prop where
  digits_eq : text.filter (· ≠ comma) = digits
  groups : ∃ first rest, text.splitOn comma = first :: rest ∧ 1 ≤ first.length ∧
    first.length ≤ 3 ∧ ∀ group ∈ rest, group.length = 3
  head : text.head? ≠ some comma
  last : text.getLast? ≠ some comma

theorem isDigit_ne_comma {c : UInt16} (h : isDigit c = true) : c ≠ comma := by
  rintro rfl
  exact absurd h (by decide)

/-- Only commas are added, -/
theorem filter_addCommas (last : Option UInt16) (s : JsString) :
    (addCommas last s).filter (· ≠ comma) = s.filter (· ≠ comma) := by
  induction s generalizing last with
  | nil => rfl
  | cons c s ih =>
    rw [addCommas]
    split
    · rw [List.filter_append, List.filter_cons, List.filter_cons, ih]
      rfl
    · rw [List.filter_cons, List.filter_cons, ih]

/-- and none at the end. -/
theorem getLast?_addCommas (last : Option UInt16) (s : JsString) :
    (addCommas last s).getLast? = s.getLast? := by
  induction s generalizing last with
  | nil => rfl
  | cons c s ih =>
    rw [addCommas]
    split
    · rw [List.getLast?_append, List.getLast?_cons, List.getLast?_cons, ih]
      rfl
    · rw [List.getLast?_cons, List.getLast?_cons, ih]

/-- In digits there are whole triples up to the end when their number is a multiple of three. -/
theorem triples_digits {s : JsString} (hdigits : ∀ c ∈ s, isDigit c = true) :
    triples s = true ↔ s ≠ [] ∧ s.length % 3 = 0 := by
  induction s using triples.induct with
  | case1 a b c rest ih =>
    have hrest : ∀ d ∈ rest, isDigit d = true := fun d hd => hdigits d (by simp [hd])
    have ha := hdigits a (by simp)
    have hb := hdigits b (by simp)
    have hc := hdigits c (by simp)
    cases rest with
    | nil => simp [triples, ha, hb, hc]
    | cons d rest =>
      have hd := hrest d List.mem_cons_self
      rw [triples, ha, hb, hc, List.head?_cons, Option.any_some, hd]
      simp only [Bool.true_and, Bool.not_true, Bool.false_or, ih hrest, List.length_cons]
      simp
      omega
  | case2 s hshort =>
    rw [triples]
    · match s with
      | [] => simp
      | [a] => simp
      | [a, b] => simp
      | a :: b :: c :: rest => exact absurd rfl (hshort a b c rest)
    · exact hshort

/-- Behind a digit: a group of what is left over by the triples, and the triples. -/
theorem splitOn_addCommas {s : JsString} {last : UInt16} (hlast : isDigit last = true)
    (hdigits : ∀ c ∈ s, isDigit c = true) :
    ∃ first rest, (addCommas (some last) s).splitOn comma = first :: rest ∧
      first.length = s.length % 3 ∧ ∀ group ∈ rest, group.length = 3 := by
  induction s generalizing last with
  | nil => exact ⟨[], [], rfl, rfl, by simp⟩
  | cons c s ih =>
    have hc := hdigits c List.mem_cons_self
    have hne : ¬(c == comma) = true := by simpa using isDigit_ne_comma hc
    have hword : (some last).any isWord = isWord c := by simp [isWord, hlast, hc]
    obtain ⟨first, rest, hsplit, hfirst, hrest⟩ :=
      ih hc fun d hd => hdigits d (List.mem_cons_of_mem c hd)
    have hcons : (c :: addCommas (some c) s).splitOn comma = (c :: first) :: rest := by
      rw [List.splitOn_cons_eq_if_modifyHead, if_neg hne, hsplit]
      rfl
    rw [addCommas]
    by_cases hmod : (c :: s).length % 3 = 0
    · rw [if_pos ⟨hword, (triples_digits hdigits).mpr ⟨List.cons_ne_nil c s, hmod⟩⟩]
      refine ⟨[], (c :: first) :: rest, ?_, by rw [hmod]; rfl, ?_⟩
      · show (comma :: c :: addCommas (some c) s).splitOn comma = _
        rw [List.splitOn_cons_eq_if_modifyHead, if_pos (by decide), hcons]
      · intro group hgroup
        obtain rfl | hgroup := List.mem_cons.mp hgroup
        · rw [List.length_cons] at hmod ⊢
          omega
        · exact hrest group hgroup
    · rw [if_neg fun h => hmod ((triples_digits hdigits).mp h.2).2]
      refine ⟨c :: first, rest, hcons, ?_, hrest⟩
      rw [List.length_cons] at hmod ⊢
      rw [List.length_cons]
      omega

theorem grouped_addCommas {s : JsString} (hne : s ≠ []) (hdigits : ∀ c ∈ s, isDigit c = true) :
    Grouped s (addCommas none s) := by
  obtain ⟨c, s, rfl⟩ := List.exists_cons_of_ne_nil hne
  have hc := hdigits c List.mem_cons_self
  -- there is no word before the first digit, so there is a boundary
  have hfirst : addCommas none (c :: s) = c :: addCommas (some c) s := by
    rw [addCommas, if_neg]
    simp [isWord, hc]
  refine ⟨?_, ?_, ?_, ?_⟩
  · rw [filter_addCommas, List.filter_eq_self]
    intro d hd
    simpa using isDigit_ne_comma (hdigits d hd)
  · obtain ⟨first, rest, hsplit, hlength, hrest⟩ :=
      splitOn_addCommas hc fun d hd => hdigits d (List.mem_cons_of_mem c hd)
    have hne' : ¬(c == comma) = true := by simpa using isDigit_ne_comma hc
    refine ⟨c :: first, rest, ?_, ?_, ?_, hrest⟩
    · rw [hfirst, List.splitOn_cons_eq_if_modifyHead, if_neg hne', hsplit]
      rfl
    · simp
    · rw [List.length_cons]
      omega
  · rw [hfirst, List.head?_cons]
    simpa using isDigit_ne_comma hc
  · rw [getLast?_addCommas]
    intro hlast
    exact isDigit_ne_comma (hdigits comma (List.mem_of_getLast? hlast)) rfl

/-- In any text of digits the regular expression groups them by threes from the end, and a breach
    with these as its number of records is printed with the text that it gives. -/
theorem records_grouped {digits : JsString} (hne : digits ≠ [])
    (hdigits : ∀ c ∈ digits, isDigit c = true) :
    Grouped digits (thousands.replaceAll digits (js ",")) ∧
      ∀ (item : TimelineItem) (records : Number), isBreach item = true →
        item.records = some records → records.text = digits →
        primaryDetails item = .ok (js "# Records: " ++ thousands.replaceAll digits (js ",")) ∧
          ∀ item', transformTimelineEvent item = .ok item' →
            item'.content = .value
              (itemContent item (js "# Records: " ++ thousands.replaceAll digits (js ","))) := by
  rw [replaceAll_thousands]
  refine ⟨grouped_addCommas hne hdigits, ?_⟩
  rintro item records hbreach hrecords rfl
  have hdetails : primaryDetails item = .ok (js "# Records: " ++ addCommas none records.text) := by
    rw [primaryDetails, if_pos hbreach, hrecords]
  refine ⟨hdetails, fun item' h => ?_⟩
  rw [transformTimelineEvent, hdetails] at h
  cases htitle : itemTitle item with
  | error err =>
    rw [htitle] at h
    cases h
  | ok title =>
    rw [htitle] at h
    cases h
    rfl

/-- A breach with 1234567 records. -/
theorem records_grouped_seven :
    ∃ item : TimelineItem, primaryDetails item = .ok (js "# Records: 1,234,567") ∧
      Grouped (js "1234567") (js "1,234,567") := by
  obtain ⟨hgrouped, hprinted⟩ :=
    records_grouped (show js "1234567" ≠ [] by decide) (List.forall_mem_of_all rfl)
  obtain ⟨hdetails, -⟩ := hprinted
    { linkedItem one [] with
      group := .value (js "breach")
      records := some ⟨js "1234567", rfl⟩ } ⟨js "1234567", rfl⟩ rfl rfl rfl
  have htext : thousands.replaceAll (js "1234567") (js ",") = js "1,234,567" := by decide
  rw [htext] at hdetails hgrouped
  exact ⟨_, hdetails, hgrouped⟩

end Timeline

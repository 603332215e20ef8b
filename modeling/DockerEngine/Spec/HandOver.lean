import DockerEngine.Native.HandOver
import DockerEngine.Spec.Timeline

/-!
# The state on its way to the browser

The text of the state is put into the script as it is. What its strings say to an HTML tokenizer
decides where the script ends: the JSON text has no escapes for `<` and `/`.

- `handsOver_iff`: the states that arrive
- `inert_of_notMem`: no `<`, no harm
-/

namespace Timeline

open Js Html

/-- The first script of the page ends at the end tag of the template, and gives the value back. -/
def HandsOver (componentHTML : JsString) (initialState : Json) : Prop :=
  ∃ script, firstScript (pageHTML componentHTML initialState)
      = some (script, documentEnd componentHTML) ∧
    readInitialState script = some initialState

/-! ## What the browser reads -/

set_option maxRecDepth 2000 in
theorem behindStart_pageHTML (componentHTML : JsString) (initialState : Json) :
    behindStart (pageHTML componentHTML initialState)
      = some (assignment initialState ++ (js "</script" ++ documentEnd componentHTML)) := by
  have hstart (s : JsString) : behindStart (documentStart ++ (js "<script>" ++ s)) = some s := rfl
  rw [← hstart]
  simp only [pageHTML, List.append_assoc]

theorem guard_eq_some {p : Prop} [Decidable p] (h : p) : (guard p : Option Unit) = some () :=
  if_pos h

/-- The parts of an assignment. -/
theorem readInitialState_eq_some {script rest value behind tail : JsString} {v : Json}
    (hname : skipSpace script = js "window.__INITIAL_STATE__" ++ rest)
    (hequals : expect 61 rest = some value)
    (hvalue : readValue value.length value = some (v, behind))
    (hsemicolon : expect 59 behind = some tail) (hend : skipSpace tail = []) :
    readInitialState script = some v := by
  unfold readInitialState
  dsimp only [Option.bind_eq_bind, Option.pure_def]
  rw [hname, guard_eq_some (List.prefix_append _ _), List.drop_left, Option.bind_some, hequals,
    Option.bind_some, hvalue, Option.bind_some, hsemicolon, Option.bind_some, guard_eq_some hend,
    Option.bind_some]

/-- The script assigns the value that it was made from. -/
theorem readInitialState_assignment (v : Json) :
    readInitialState (assignment v) = some v := by
  have hname : skipSpace (assignment v)
      = js "window.__INITIAL_STATE__" ++ (js " =" ++ 32 :: (stringify v ++
        js ";\n                    ")) := by
    rw [assignment, List.append_assoc]
    rfl
  have hvalue {k : Nat} (hk : (stringify v).length ≤ k) :
      readValue k (32 :: (stringify v ++ js ";\n                    "))
        = some (v, js ";\n                    ") := by
    rw [readValue_skipSpace k rfl]
    exact readValue_stringify v hk _ rfl
  have hequals (s : JsString) : expect 61 (js " =" ++ s) = some s := rfl
  apply readInitialState_eq_some hname (hequals _)
  · apply hvalue
    rw [List.length_cons, List.length_append]
    omega
  · rfl
  · rfl

/-- A value arrives exactly when its strings are inert. -/
theorem handsOver_iff_inert (componentHTML : JsString) (v : Json) :
    HandsOver componentHTML v ↔ Inert v.strings := by
  have hend : Html.State.scriptData.behindEnd
      (assignment v ++ (js "</script" ++ documentEnd componentHTML))
        = some (documentEnd componentHTML) ↔ Inert v.strings :=
    behindEnd_inline v (List.forall_mem_of_all rfl) (List.forall_mem_of_all rfl) _
  rw [← hend]
  constructor
  · rintro ⟨script, hscript, -⟩
    exact ((firstScript_eq_iff (behindStart_pageHTML componentHTML v)).mp hscript).1
  · intro hend
    refine ⟨assignment v, ?_, readInitialState_assignment v⟩
    exact (firstScript_eq_iff (behindStart_pageHTML componentHTML v)).mpr ⟨hend, rfl⟩

theorem scan_of_notMem {s : JsString} (h : 60 ∉ s) : scan isShown .plain s = some .plain := by
  induction s with
  | nil => rfl
  | cons c s ih =>
    rw [List.mem_cons, not_or] at h
    rw [scan_plain_skip (Ne.symm h.1), ih h.2]

/-- Strings without a `<` are inert. -/
theorem inert_of_notMem {strings : List JsString} (h : ∀ s ∈ strings, 60 ∉ s) : Inert strings := by
  have hscan : scanStrings .plain strings = some .plain := by
    induction strings with
    | nil => rfl
    | cons s strings ih =>
      rw [List.forall_mem_cons] at h
      rw [scanStrings_cons, scan_of_notMem h.1, Option.bind_some, ih h.2]
  rw [Inert, hscan]
  rfl

/-- The state of a store arrives exactly when its strings are inert. -/
theorem handsOver_iff (componentHTML : JsString) (heap : Heap) (state : TimelineState) :
    HandsOver componentHTML (storeState (state.toJson heap)) ↔
      Inert (storeState (state.toJson heap)).strings :=
  handsOver_iff_inert componentHTML _

/-- A state with one item, by its name. -/
def namedState (name : String) : TimelineState :=
  { timelineState with timelineItems := [{ linkedItem one [] with name := .value (js name) }] }

/-- Markup that neither closes the script nor hides its end. -/
theorem handsOver_iff_markup :
    HandsOver [] (storeState ((namedState "a < b </b> <!-- -->").toJson initialHeap)) :=
  (handsOver_iff [] initialHeap (namedState "a < b </b> <!-- -->")).mpr (by decide)

/-- A name that closes the script, and one with which the script is never closed. -/
theorem not_handsOver :
    ¬HandsOver [] (storeState
        ((namedState "</script><script>alert(1)</script>").toJson initialHeap)) ∧
      ¬HandsOver [] (storeState ((namedState "<!-- <script>").toJson initialHeap)) := by
  constructor
  · rw [handsOver_iff_inert]
    decide
  · rw [handsOver_iff_inert]
    decide

end Timeline

import DockerEngine.Native.TimelineRequests
import DockerEngine.Spec.Timeline
import Mathlib.Tactic.Common

/-!
# The answers to overlapping requests

The reducer has one flag for all requests, and takes the items of whatever answer comes. So an
answer that comes while another request is waiting clears the flag, and the last answer to come
wins. A request that has failed is given to it as an answer with no items.

- `Client.Inv`: what holds while answers come one at a time
- `Client.latest_iff_inTurn`: the runs in which the flag is right and the last request wins
- `Client.errorMessage_eq`: the branch for failures is never taken
- `Call.not_reported`: what is left of a failed request
-/

namespace Timeline

open Js

/-- The items of an answer; there are none in an error. -/
def Answer.items : Answer → List TimelineItem
  | .ok items => items.getD []
  | .error _ => []

/-- The API service hides the errors. -/
@[simp] theorem Call.items_eq (answer : Answer) (call : Call) :
    call.items answer = .ok answer.items := by
  cases call <;> cases answer <;> rfl

@[simp] theorem Call.begin_eq (call : Call) (state : TimelineState) :
    call.begin state = { state with isRequested := true } := by
  cases call <;> rfl

@[simp] theorem Call.end_eq (answer : Answer) (call : Call) (state : TimelineState) :
    call.end answer state =
      { state with timelineItems := answer.items, isRequested := false } := by
  cases call <;> cases answer <;> rfl

namespace Client

variable {c c' : Client} {op : Op}

/-- Some request has not been answered. -/
def Waits (c : Client) : Prop := ∃ e ∈ c.requests, e.answer = none

instance : Decidable c.Waits := inferInstanceAs (Decidable (∃ e ∈ c.requests, e.answer = none))

/-- What is to hold at every moment: the flag says whether a request waits, and when none does,
    the items are those of the answer to the last one. -/
structure Latest (c : Client) : Prop where
  isRequested : c.state.isRequested = true ↔ c.Waits
  timelineItems : ¬c.Waits → ∀ last answer, c.requests.getLast? = some last →
    last.answer = some answer → c.state.timelineItems = answer.items

/-- An answer comes when no other request waits for one. -/
def InTurn (c : Client) (op : Op) : Prop :=
  ∀ i answer, op = .answer i answer →
    ∀ j e, c.requests[j]? = some e → j ≠ i → e.answer ≠ none

/-- What a step does. -/
inductive Moves (c : Client) : Op → Client → Prop
  | dispatch (call : Call) :
    Moves c (.dispatch call)
      ⟨{ c.state with isRequested := true }, c.requests ++ [⟨call, none⟩]⟩
  | answer {i : Nat} {call : Call} {answer : Answer} (hi : c.requests[i]? = some ⟨call, none⟩) :
    Moves c (.answer i answer)
      ⟨{ c.state with timelineItems := answer.items, isRequested := false },
        c.requests.set i ⟨call, some answer⟩⟩
  | updateFilterCriteria (filterCriteria : Ref) :
    Moves c (.updateFilterCriteria filterCriteria)
      ⟨{ c.state with filterCriteria }, c.requests⟩

theorem step_cases (h : c.step op = some c') : c.Moves op c' := by
  cases op with
  | dispatch call =>
    rw [step, Call.begin_eq] at h
    cases h
    exact .dispatch call
  | answer i answer =>
    rw [step] at h
    split at h
    · next call hi =>
      rw [Call.end_eq] at h
      cases h
      exact .answer hi
    · cases h
  | updateFilterCriteria filterCriteria =>
    cases h
    exact .updateFilterCriteria filterCriteria

/-! ## Answers that come in turn -/

/-- Requests have been answered in the order in which they were issued. -/
structure Inv (c : Client) : Prop extends c.Latest where
  inOrder : ∀ (i j : Nat) (e e' : Exchange), i ≤ j → c.requests[i]? = some e →
    c.requests[j]? = some e' → e'.answer ≠ none → e.answer ≠ none

theorem inv_init (h : c.requests = [] ∧ c.state.isRequested = false) : c.Inv := by
  obtain ⟨hnil, hflag⟩ := h
  refine ⟨⟨?_, ?_⟩, ?_⟩ <;> simp [Waits, hnil, hflag]

/-- When an answer comes in turn, its request was the last one. -/
theorem Inv.eq_last (h : c.Inv) {i : Nat} {call : Call} {answer : Answer}
    (hturn : c.InTurn (.answer i answer)) (hi : c.requests[i]? = some ⟨call, none⟩) :
    c.requests.length = i + 1 := by
  obtain ⟨hlt, -⟩ := List.getElem?_eq_some_iff.mp hi
  by_contra hlength
  have hnext : i + 1 < c.requests.length := by omega
  have hsome := List.getElem?_eq_getElem hnext
  have hanswered := hturn i answer rfl (i + 1) _ hsome (by omega)
  exact h.inOrder i (i + 1) _ _ (by omega) hi hsome hanswered rfl

theorem Inv.step (h : c.Inv) (hturn : c.InTurn op) (hstep : c.step op = some c') : c'.Inv := by
  cases step_cases hstep with
  | dispatch call =>
    have hwaits : Waits ⟨{ c.state with isRequested := true }, c.requests ++ [⟨call, none⟩]⟩ :=
      ⟨⟨call, none⟩, by simp, rfl⟩
    refine ⟨⟨iff_of_true rfl hwaits, fun hnot => absurd hwaits hnot⟩, ?_⟩
    intro i j e e' hij hi hj hanswered
    -- the new request is not answered, so `j` is one of the old ones
    rw [List.getElem?_append] at hj
    split at hj
    · next hlt =>
      rw [List.getElem?_append_left (by omega)] at hi
      exact h.inOrder i j e e' hij hi hj hanswered
    · next hge =>
      have hmem := List.mem_of_getElem? hj
      rw [List.mem_singleton] at hmem
      exact absurd (congrArg Exchange.answer hmem) hanswered
  | @answer i call answer hi =>
    have hlast := h.eq_last hturn hi
    have hall : ∀ (j : Nat) (e : Exchange),
        (c.requests.set i ⟨call, some answer⟩)[j]? = some e → e.answer ≠ none := by
      intro j e hj
      by_cases hji : j = i
      · subst hji
        rw [List.getElem?_set_self (by omega), Option.some.injEq] at hj
        rw [← hj]
        exact Option.some_ne_none answer
      · rw [List.getElem?_set_ne (Ne.symm hji)] at hj
        exact hturn i answer rfl j e hj hji
    have hwaits : ¬Waits ⟨{ c.state with timelineItems := answer.items, isRequested := false },
        c.requests.set i ⟨call, some answer⟩⟩ := by
      rintro ⟨e, hmem, hnone⟩
      obtain ⟨j, hj⟩ := List.mem_iff_getElem?.mp hmem
      exact hall j e hj hnone
    refine ⟨⟨iff_of_false Bool.false_ne_true hwaits, fun _ last answer' hget hanswer => ?_⟩,
      fun j _ e _ _ hj _ _ => hall j e hj⟩
    rw [List.getLast?_eq_getElem?, List.length_set, hlast, Nat.add_sub_cancel,
      List.getElem?_set_self (by omega), Option.some.injEq] at hget
    rw [← hget, Option.some.injEq] at hanswer
    rw [hanswer]
  | updateFilterCriteria filterCriteria => exact ⟨⟨h.isRequested, h.timelineItems⟩, h.inOrder⟩

/-- An answer that comes out of turn clears the flag while a request waits. -/
theorem not_latest_step (hturn : ¬c.InTurn op) (hstep : c.step op = some c') : ¬c'.Latest := by
  simp only [InTurn, not_forall, not_not] at hturn
  obtain ⟨i, answer, rfl, j, e, hj, hji, hnone⟩ := hturn
  cases step_cases hstep with
  | answer hi =>
    intro hlatest
    have hwaits := hlatest.isRequested.mpr
      ⟨e, List.mem_of_getElem? ((List.getElem?_set_ne (Ne.symm hji)).trans hj), hnone⟩
    cases hwaits

/-- In a run the flag is right at every moment and the last request wins exactly when all answers
    come in turn. -/
theorem latest_iff_inTurn {c c' : Client} {ops : List Op}
    (hinit : c.requests = [] ∧ c.state.isRequested = false) (hrun : system.run c ops = some c') :
    system.Always Latest c ops ↔ system.EveryStep InTurn c ops :=
  System.always_iff_everyStep (inv_init hinit) (fun _ hinv => hinv.toLatest)
    (fun _ _ _ hinv hturn hstep => hinv.step hturn hstep)
    (fun _ _ _ _ hturn hstep => not_latest_step hturn hstep) hrun

/-- A list that is loaded, and then filtered. -/
theorem latest_iff_inTurn_reload :
    system.Always Latest ⟨timelineState, []⟩
      [.dispatch .getTimelineItems, .answer 0 (.ok (some [linkedItem one []])),
        .dispatch (.filterTimelineItemsByDates (.text []) (.text [])), .answer 1 (.ok none)] := by
  refine (latest_iff_inTurn ⟨rfl, rfl⟩ rfl).mpr ?_
  refine .cons nofun rfl (.cons ?_ rfl (.cons nofun rfl (.cons ?_ rfl .nil)))
  -- the first request is the only one
  · rintro i answer ⟨⟩ j e hj hne
    rcases j with _ | j
    · exact absurd rfl hne
    · cases hj
  -- when the second one is answered, the first one has been
  · rintro i answer ⟨⟩ j e hj hne
    rcases j with _ | _ | j
    · cases hj
      nofun
    · exact absurd rfl hne
    · cases hj

/-- The list is filtered before its items have come, and the answer for the filter is first. -/
def overtaken : List Op :=
  [.dispatch .getTimelineItems,
    .dispatch (.filterTimelineItemsByDates (.text (js "2020-01-01")) (.text (js "2020-12-31"))),
    .answer 1 (.ok (some []))]

/-- The flag is clear while the first request waits; its answer then replaces that of the last. -/
theorem stale_items :
    ∃ c c', system.Reachable c ∧ c.state.isRequested = false ∧ c.Waits ∧
      system.step c (.answer 0 (.ok (some [linkedItem one []]))) = some c' ∧ ¬c'.Waits ∧
      (c'.requests.getLast?.bind fun last => last.answer) = some (.ok (some [])) ∧
      c'.state.timelineItems = [linkedItem one []] := by
  have hinit : system.Reachable ⟨timelineState, []⟩ := .init ⟨rfl, rfl⟩
  exact ⟨_, _, hinit.run overtaken rfl, rfl, by decide, rfl, by decide, rfl, rfl⟩

/-! ## Failures -/

/-- The message for a failure is never set. -/
theorem errorMessage_eq {ops : List Op} (h : system.run c ops = some c') :
    c'.state.errorMessage = c.state.errorMessage := by
  refine system.run_invariant (P := fun s => s.state.errorMessage = c.state.errorMessage) ?_ rfl h
  intro s op s' hs hstep
  cases step_cases hstep with
  | dispatch | answer | updateFilterCriteria => exact hs

end Client

namespace Call

/-- What a failed request is to leave behind: the items and the criteria that were there, and the
    message of its error; and not the same as an answer with no items. -/
structure Reported (listeners : Listeners) (call : Call) (state : TimelineState)
    (err : JsString) : Prop where
  timelineItems :
    (call.complete listeners (.error err) state).1.timelineItems = state.timelineItems
  filterCriteria :
    (call.complete listeners (.error err) state).1.filterCriteria = state.filterCriteria
  isRequested : (call.complete listeners (.error err) state).1.isRequested = false
  errorMessage : (call.complete listeners (.error err) state).1.errorMessage = some err
  distinct :
    call.complete listeners (.error err) state ≠ call.complete listeners (.ok (some [])) state

theorem settle_error (listeners : Listeners) (call : Call) (err : JsString) :
    call.settle listeners (.error err) = call.settle listeners (.ok (some [])) := by
  funext state
  rw [settle, settle, items_eq, items_eq, Answer.items, Answer.items, Option.getD_some]

/-- Without listeners that throw, an action does what it does in a client. -/
theorem complete_silent (answer : Answer) (call : Call) (state : TimelineState) :
    call.complete (fun _ => none) answer state = (call.end answer (call.begin state), .ok ()) := by
  rw [end_eq, begin_eq]
  simp [complete, settle, Listeners.dispatch, dispatch, timelineReducer]

/-- A failed request is never reported: it is taken for an answer with no items, whatever the
    listeners do, and what was shown is lost when they do nothing. -/
theorem not_reported (listeners : Listeners) (call : Call) (state : TimelineState)
    (err : JsString) :
    ¬Reported listeners call state err ∧
      call.complete listeners (.error err) state
        = call.complete listeners (.ok (some [])) state ∧
      call.complete (fun _ => none) (.error err) state
        = ({ state with timelineItems := [], isRequested := false }, .ok ()) := by
  have hempty : call.complete listeners (.error err) state
      = call.complete listeners (.ok (some [])) state := by
    rw [complete, complete, settle_error]
  refine ⟨fun hreported => hreported.distinct hempty, hempty, ?_⟩
  rw [complete_silent, end_eq, begin_eq]
  rfl

/-- The items are lost, and there is no message. -/
theorem lost_items :
    (getTimelineItems.complete (fun _ => none) (.error (js "Network Error"))
        { timelineState with timelineItems := [linkedItem one []] }).1 = timelineState := rfl

end Call

end Timeline

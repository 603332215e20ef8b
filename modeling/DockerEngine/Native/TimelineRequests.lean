import DockerEngine.ForStd.System
import DockerEngine.Native.Timeline

/-!
# Requests of the client (`shared/actions/timelineActions.js`)

An action that fetches items runs up to its `await`, and goes on when its answer has come. Any
number of them may be waiting, and their answers come in any order. What the actions dispatch
does not say which request it belongs to.

A listener of the store may throw, which `dispatch` passes on: `Call.complete` is the whole of an
action, for a store with listeners.
-/

namespace Timeline

open Js

/-! ## The actions -/

/-- `filterTimelineItemsByDates` of the API service. -/
def filterTimelineItemsByDates : Answer → Except JsString (List TimelineItem)
  | .ok items => .ok (items.getD [])
  | .error _ => .ok []

/-- What `filterTimelineItemsByDates` dispatches before it waits for the answer. -/
def filterTimelineItemsByDatesBegin (state : TimelineState) : TimelineState :=
  dispatch state .itemsRequest

/-- What it dispatches after that. -/
def filterTimelineItemsByDatesEnd (answer : Answer) (state : TimelineState) : TimelineState :=
  match filterTimelineItemsByDates answer with
  | .ok items => dispatch state (.itemsReceived items)
  | .error err => dispatch state (.itemsFailure err)

/-- An action that fetches items. -/
inductive Call where
  | getTimelineItems
  | filterTimelineItemsByDates (startDate endDate : DateField)
  deriving DecidableEq, Repr

def Call.begin : Call → TimelineState → TimelineState
  | getTimelineItems => getTimelineItemsBegin
  | filterTimelineItemsByDates _ _ => filterTimelineItemsByDatesBegin

def Call.end (answer : Answer) : Call → TimelineState → TimelineState
  | getTimelineItems => getTimelineItemsEnd answer
  | filterTimelineItemsByDates _ _ => filterTimelineItemsByDatesEnd answer

/-- What the API service makes of the answer. -/
def Call.items (answer : Answer) : Call → Except JsString (List TimelineItem)
  | getTimelineItems => getAllTimeLineItems answer
  | filterTimelineItemsByDates _ _ => Timeline.filterTimelineItemsByDates answer

/-! ## A client -/

/-- A request, with its answer when it has come. -/
structure Exchange where
  call : Call
  answer : Option Answer

/-- The state of the store, and the requests in the order in which they were issued. -/
structure Client where
  state : TimelineState
  requests : List Exchange

inductive Op where
  | dispatch (call : Call)
  /-- The answer to the `i`-th request comes. -/
  | answer (i : Nat) (answer : Answer)
  | updateFilterCriteria (filterCriteria : Ref)

namespace Client

def step (c : Client) : Op → Option Client
  | .dispatch call => some ⟨call.begin c.state, c.requests ++ [⟨call, none⟩]⟩
  | .answer i answer =>
    match c.requests[i]? with
    | some ⟨call, none⟩ => some ⟨call.end answer c.state, c.requests.set i ⟨call, some answer⟩⟩
    | _ => none
  | .updateFilterCriteria filterCriteria =>
    some { c with state := Timeline.dispatch c.state (.filterCriteriaUpdate filterCriteria) }

/-- A client starts with any items. -/
def system : System Client Op where
  init c := c.requests = [] ∧ c.state.isRequested = false
  step := step

end Client

/-! ## Listeners -/

/-- What the listeners of a store throw when they are told of a state. -/
abbrev Listeners := TimelineState → Option JsString

/-- `dispatch` of a store: the listeners are called when it has its new state. -/
def Listeners.dispatch (listeners : Listeners) (state : TimelineState) (action : Action) :
    TimelineState × Except JsString Unit :=
  let state := Timeline.dispatch state action
  match listeners state with
  | none => (state, .ok ())
  | some err => (state, .error err)

namespace Call

/-- The `try` statement of an action. -/
def settle (listeners : Listeners) (answer : Answer) (call : Call) (state : TimelineState) :
    TimelineState × Except JsString Unit :=
  let (state, outcome) :=
    match call.items answer with
    | .ok items => listeners.dispatch state (.itemsReceived items)
    | .error err => (state, .error err)
  match outcome with
  | .ok () => (state, .ok ())
  | .error err => listeners.dispatch state (.itemsFailure err)

/-- An action from its beginning to its end, when nothing else happens in between. -/
def complete (listeners : Listeners) (answer : Answer) (call : Call) (state : TimelineState) :
    TimelineState × Except JsString Unit :=
  match listeners.dispatch state .itemsRequest with
  | (state, .ok ()) => call.settle listeners answer state
  -- this is outside of the `try`, so the request is not sent
  | (state, .error err) => (state, .error err)

end Call

end Timeline

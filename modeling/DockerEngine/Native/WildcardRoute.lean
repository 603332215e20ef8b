import DockerEngine.Native.Timeline

/-!
# Server-side rendering (`server/routes/wildcardRoute.js`)

A page request makes a store, has the components of its route fetch their data, renders the
page, and puts the state of the store into it. A page is that state as JSON here, without the
slice of the router; when rendering throws, the response is the message instead. The heap is
what the requests of one server process share.
-/

namespace Timeline

open Js

/-! ## Routes (`shared/routes.js`) -/

inductive Component where
  | app
  | timelineContainer
  | about
  | notFoundPage
  deriving DecidableEq, Repr

/-- A request, by the route that it matches. -/
inductive Request where
  | index
  | about
  | timeline
  | event (event : Param)
  | notFound
  deriving DecidableEq, Repr

def Request.components : Request → List Component
  | index => [.app, .timelineContainer]
  | about => [.app, .about]
  | timeline => [.app, .timelineContainer]
  | event _ => [.app, .timelineContainer, .timelineContainer]
  | notFound => [.app, .notFoundPage]

/-- The parameter `event`. -/
def Request.param : Request → Option Param
  | event param => some param
  | index | about | timeline | notFound => none

/-! ## Fetching (`lib/fetchComponentState.js`) -/

inductive FetchAction where
  | getTimelineItems
  deriving DecidableEq, Repr

def Component.fetchData : Component → List FetchAction
  | timelineContainer => [.getTimelineItems]
  | app | about | notFoundPage => []

def FetchAction.begin : FetchAction → TimelineState → TimelineState
  | getTimelineItems => getTimelineItemsBegin

def FetchAction.end (answer : Answer) : FetchAction → TimelineState → TimelineState
  | getTimelineItems => getTimelineItemsEnd answer

/-- All actions are dispatched, and then their answers come. -/
def fetchComponentState (answer : Answer) (components : List Component) (state : TimelineState) :
    TimelineState :=
  let fetchDataActions := components.foldl (fun prev current => current.fetchData ++ prev) []
  let state := fetchDataActions.foldl (fun state action => action.begin state) state
  fetchDataActions.foldl (fun state action => action.end answer state) state

/-! ## The page -/

def TimelineState.toJson (heap : Heap) (state : TimelineState) : Json :=
  .ofMembers [
    (js "timelineItems", some (.array (state.timelineItems.map TimelineItem.toJson))),
    (js "isRequested", some (.bool state.isRequested)),
    (js "filterCriteria", some (heap state.filterCriteria).toJson),
    (js "errorMessage", state.errorMessage.map .string)]

/-- `renderToString`: what it leaves of the heap and in the store. -/
def renderToString (heap : Heap) (request : Request) (state : TimelineState) :
    Heap × Except TypeError TimelineState :=
  match request.components with
  | .app :: .timelineContainer :: _ =>
    -- a container does not render the container inside of it
    let (heap, props) := mapStateToProps heap state
    (heap, (render request.param props.timelineItems).map fun timelineItems =>
      { state with timelineItems })
  | _ => (heap, .ok state)

def renderView (heap : Heap) (request : Request) (state : TimelineState) :
    Heap × Except TypeError Json :=
  let (heap, state) := renderToString heap request state
  (heap, state.map fun state => state.toJson heap)

/-- The handler of a request, with the answer of the API to each of its calls. -/
def wildcardRoute (heap : Heap) (request : Request) (answer : Answer) :
    Heap × Except TypeError Json :=
  let state := timelineReducer none .init
  renderView heap request (fetchComponentState answer request.components state)

/-! ## A server -/

/-- A request, with the items in the database when it is served. -/
structure Visit where
  request : Request
  items : List TimelineItem
  deriving DecidableEq, Repr

def initialHeap : Heap := fun _ => initialCriteria

def serve (heap : Heap) (visit : Visit) : Heap × Except TypeError Json :=
  wildcardRoute heap visit.request (.ok (some visit.items))

/-- The heap of a server process that has served some requests. -/
def serveAll (history : List Visit) : Heap :=
  history.foldl (fun heap visit => (serve heap visit).1) initialHeap

/-- The response to a request that comes after others. -/
def respond (history : List Visit) (visit : Visit) : Except TypeError Json :=
  (serve (serveAll history) visit).2

end Timeline

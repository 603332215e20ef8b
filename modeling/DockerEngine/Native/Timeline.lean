import DockerEngine.Js.Date

/-!
# The timeline of the demo (`shared/`)

The actions, the reducer and the timeline container. An item belongs to the answer that it was
read from. The filter criteria are an object that stores refer to, and that is written in
place, so they live in a heap; the initial state of the module refers to one of them, and the
reducer copies the reference.

On the server a component is rendered once. What `render` gives is the items as it leaves them
in the store, or the error it throws; the markup, and the date range of the view, which
nothing reads on the server, are left out.
-/

namespace Timeline

open Js

/-! ## The items -/

structure Source where
  name : Property JsString
  link : Property JsString
  deriving DecidableEq, Repr

/-- A timeline item in an answer of the API. A number or a list is `none` for null. -/
structure TimelineItem where
  id : Option Number
  name : Property JsString
  short : Property JsString
  group : Property JsString
  content : Property JsString
  start : Property Int
  /-- `end` -/
  stop : Property Int
  timelineEvents : Option (List (Option Number))
  details : Option (List JsString)
  records : Option Number
  breachType : Property JsString
  sources : Option (List Source)
  targets : Property JsString
  affiliations : Property JsString
  className : Option JsString
  title : Option JsString
  deriving DecidableEq, Repr

def Source.toJson (source : Source) : Json :=
  .ofMembers [(js "name", source.name.toJson .string), (js "link", source.link.toJson .string)]

def TimelineItem.toJson (item : TimelineItem) : Json :=
  .ofMembers [
    (js "_id", some (.ofOption .number item.id)),
    (js "name", item.name.toJson .string),
    (js "short", item.short.toJson .string),
    (js "group", item.group.toJson .string),
    (js "content", item.content.toJson .string),
    (js "start", item.start.toJson fun t => .string (Date.toISOString t)),
    (js "end", item.stop.toJson fun t => .string (Date.toISOString t)),
    (js "timelineEvents",
      some (.ofOption (fun events => .array (events.map (.ofOption .number))) item.timelineEvents)),
    (js "details", some (.ofOption (fun details => .array (details.map .string)) item.details)),
    (js "records", some (.ofOption .number item.records)),
    (js "breachType", item.breachType.toJson .string),
    (js "sources",
      some (.ofOption (fun sources => .array (sources.map Source.toJson)) item.sources)),
    (js "targets", item.targets.toJson .string),
    (js "affiliations", item.affiliations.toJson .string),
    (js "className", item.className.map .string),
    (js "title", item.title.map .string)]

/-! ## The filter criteria -/

/-- A date of the criteria: a text, or a `Date` object. -/
inductive DateField where
  | text (s : JsString)
  | date (d : Date)
  | undefined
  deriving DecidableEq, Repr

/-- An object is true, and so is a text that is not empty. -/
def DateField.truthy : DateField → Bool
  | text s => s ≠ []
  | date _ => true
  | undefined => false

def DateField.toJson : DateField → Option Json
  | text s => some (.string s)
  | date d => some d.toJson
  | undefined => none

def DateField.ofOption : Option Date → DateField
  | some d => date d
  | none => undefined

structure FilterCriteria where
  startDate : DateField
  endDate : DateField
  stackOrientation : Bool
  deriving DecidableEq, Repr

def FilterCriteria.toJson (filterCriteria : FilterCriteria) : Json :=
  .ofMembers [
    (js "startDate", filterCriteria.startDate.toJson),
    (js "endDate", filterCriteria.endDate.toJson),
    (js "stackOrientation", some (.bool filterCriteria.stackOrientation))]

/-- A reference to an object with filter criteria. -/
abbrev Ref := Nat

abbrev Heap := Ref → FilterCriteria

def Heap.set (heap : Heap) (ref : Ref) (filterCriteria : FilterCriteria) : Heap := fun r =>
  if r = ref then filterCriteria else heap r

/-! ## The store (`reducers/`, `constants/initialState.js`) -/

structure TimelineState where
  timelineItems : List TimelineItem
  isRequested : Bool
  filterCriteria : Ref
  errorMessage : Option JsString
  deriving DecidableEq, Repr

/-- The object in the initial state of the module. -/
def sharedCriteria : Ref := 0

/-- The initial state: one object, which all stores of the process start with. -/
def timelineState : TimelineState := ⟨[], false, sharedCriteria, none⟩

/-- The filter criteria when the module has been loaded. -/
def initialCriteria : FilterCriteria := ⟨.text [], .text [], false⟩

inductive Action where
  /-- The action of `createStore`. -/
  | init
  | itemsRequest
  | itemsReceived (timelineItems : List TimelineItem)
  | itemsFailure (errorMessage : JsString)
  | filterCriteriaUpdate (filterCriteria : Ref)

/-- `timelineReducer`; the state is undefined when the store is made without one. -/
def timelineReducer (state : Option TimelineState) (action : Action) : TimelineState :=
  let state := state.getD timelineState
  match action with
  | .itemsRequest => { state with isRequested := true }
  | .itemsReceived timelineItems => { state with timelineItems, isRequested := false }
  | .itemsFailure errorMessage =>
    { state with isRequested := false, errorMessage := some errorMessage }
  | .filterCriteriaUpdate filterCriteria => { state with filterCriteria }
  | .init => state

def dispatch (state : TimelineState) (action : Action) : TimelineState :=
  timelineReducer (some state) action

/-- The `timelineItems` of an answer, if it has any, or the error of the request. -/
abbrev Answer := Except JsString (Option (List TimelineItem))

/-- `getAllTimeLineItems` of the API service. -/
def getAllTimeLineItems : Answer → Except JsString (List TimelineItem)
  | .ok items => .ok (items.getD [])
  | .error _ => .ok []

/-- What `getTimelineItems` dispatches before it waits for the answer. -/
def getTimelineItemsBegin (state : TimelineState) : TimelineState := dispatch state .itemsRequest

/-- What it dispatches after that. -/
def getTimelineItemsEnd (answer : Answer) (state : TimelineState) : TimelineState :=
  match getAllTimeLineItems answer with
  | .ok items => dispatch state (.itemsReceived items)
  | .error err => dispatch state (.itemsFailure err)

/-! ## Dates (`lib/utility.js`) -/

def getMinimumDate : List Date → Option Date
  | [] => none
  | d :: dates => some (dates.foldl (fun a b => if a.lt b then a else b) d)

def getMaximumDate : List Date → Option Date
  | [] => none
  | d :: dates => some (dates.foldl (fun a b => if b.lt a then a else b) d)

def startDates (items : List TimelineItem) : List Date := items.map fun i => Date.new i.start

def endDates (items : List TimelineItem) : List Date := items.map fun i => Date.new i.stop

/-- The criteria with the first start and the last end of the items. -/
def FilterCriteria.withDates (filterCriteria : FilterCriteria) (items : List TimelineItem) :
    FilterCriteria :=
  { filterCriteria with
    startDate := .ofOption (getMinimumDate (startDates items))
    endDate := .ofOption (getMaximumDate (endDates items)) }

/-! ## The container (`timelineContainer.js`) -/

structure Props where
  timelineItems : List TimelineItem
  filterCriteria : Ref
  deriving DecidableEq, Repr

/-- It writes the dates into the object that the state refers to. -/
def mapStateToProps (heap : Heap) (state : TimelineState) : Heap × Props :=
  let filterCriteria := heap state.filterCriteria
  let heap :=
    if (!filterCriteria.startDate.truthy && !filterCriteria.endDate.truthy) &&
        state.timelineItems ≠ [] then
      heap.set state.filterCriteria (filterCriteria.withDates state.timelineItems)
    else heap
  (heap, ⟨state.timelineItems, state.filterCriteria⟩)

/-- The parameter `event` of a route, by the number that it is compared as (`none`: no number that
    JSON has). -/
abbrev Param := Option Number

/-- `_id == id`: null is equal to undefined, and NaN to nothing. -/
def looseEq : Option Number → Option Param → Bool
  | some n, some (some m) => n = m
  | none, none => true
  | _, _ => false

/-- `{event, associatedEvents}`, with `none` for an empty event and for undefined. -/
structure TimelineEvent where
  event : Option TimelineItem
  associatedEvents : List (Option TimelineItem)
  deriving DecidableEq, Repr

def getTimelineEvent (id : Option Param) (events : List TimelineItem) :
    Except TypeError TimelineEvent :=
  match events.find? fun item => looseEq item.id id with
  | none => .ok ⟨none, []⟩
  | some event =>
    match event.timelineEvents with
    | none => .error ⟨js "map", .null⟩
    | some timelineEvents =>
      .ok ⟨some event, timelineEvents.map fun ae => events.find? fun item => item.id = ae⟩

def isDigit (c : UInt16) : Bool := 48 ≤ c && c ≤ 57

/-- `\w` -/
def isWord (c : UInt16) : Bool := isDigit c || (65 ≤ c && c ≤ 90) || (97 ≤ c && c ≤ 122) || c = 95

/-- `(\d{3})+(?!\d)` matches here. -/
def triples : JsString → Bool
  | a :: b :: c :: rest =>
    isDigit a && isDigit b && isDigit c && (!(rest.head?.any isDigit) || triples rest)
  | _ => false

/-- `replace(/\B(?=(\d{3})+(?!\d))/g, ",")`, behind `last`. -/
def addCommas (last : Option UInt16) : JsString → JsString
  | [] => []
  | c :: s =>
    -- `\B`: word characters on both sides, or on none
    let rest := c :: addCommas (some c) s
    if last.any isWord = isWord c ∧ triples (c :: s) then js "," ++ rest else rest

def isBreach (item : TimelineItem) : Bool := item.group = .value (js "breach")

def primaryDetails (item : TimelineItem) : Except TypeError JsString :=
  if isBreach item then
    match item.records with
    | none => .error ⟨js "toString", .null⟩
    | some records => .ok (js "# Records: " ++ addCommas none records.text)
  else
    match item.affiliations with
    | .value (c :: s) => .ok (js "AF: " ++ c :: s)
    | _ => .ok (js "AF: " ++ js "unknown")

def secondaryDetails (item : TimelineItem) : JsString :=
  if isBreach item then js "Type: " ++ item.breachType.template
  else js "Targets: " ++ item.targets.template

def itemTitle (item : TimelineItem) : Except TypeError JsString :=
  match item.details with
  | none => .error ⟨js "0", .null⟩
  | some [] => .error ⟨js "substring", .undefined⟩
  | some (detail :: _) => .ok (detail.take 35 ++ js "...")

def itemContent (item : TimelineItem) (primary : JsString) : JsString :=
  js "\n                        <a class=\"timeline-event_link\" href=\"timeline/" ++
    (item.id.elim (js "null") Number.text) ++
    js "\">\n                                <div class=\"timeline-event_link-heading\">\n" ++
    js "                                    <h5>" ++ item.name.template ++
    js "</h5>\n                                </div>\n" ++
    js "                                <div class=\"timeline-event_link-info\">\n" ++
    js "                                    <div class=\"timeline-event_link-info-detail\">\n\n" ++
    js "                                        <span>" ++ primary ++
    js "</span>\n                                    </div>\n" ++
    js "                                    <div class=\"timeline-event_link-info-detail\">" ++
    js "<span>" ++ secondaryDetails item ++
    js "</span></div>\n                                </div>\n" ++
    js "                        </a>\n                        "

def transformTimelineEvent (item : TimelineItem) : Except TypeError TimelineItem := do
  let primary ← primaryDetails item
  let title ← itemTitle item
  return { item with
    className := some (js "timeline-event")
    title := some title
    content := .value (itemContent item primary) }

def transformTimelineEvents (items : List TimelineItem) : Except TypeError (List TimelineItem) :=
  items.mapM transformTimelineEvent

/-- `associatedEvents.every(elem => elem.group == group)`, which stops at the first that fails. -/
def everyGroup (group : JsString) : List (Option TimelineItem) → Except TypeError Bool
  | [] => .ok true
  | none :: _ => .error ⟨js "group", .undefined⟩
  | some elem :: elems => if elem.group = .value group then everyGroup group elems else .ok false

def getAssociatedEventType (associatedEvents : List (Option TimelineItem)) :
    Except TypeError JsString := do
  let hackers ← everyGroup (js "hacker") associatedEvents
  let breaches ← everyGroup (js "breach") associatedEvents
  return if hackers then js "Hackers" else if breaches then js "Breaches"
    else js "Hackers and Breaches"

/-- `AssociatedEvents`; it is only rendered with events. -/
def renderAssociatedEvents (associatedEvents : List (Option TimelineItem)) :
    Except TypeError Unit := do
  let _ ← getAssociatedEventType associatedEvents
  associatedEvents.forM fun
    | none => .error ⟨js "_id", .undefined⟩
    | some _ => .ok ()

def renderTimelineEventDetails (timelineEvent : TimelineEvent) : Except TypeError Unit := do
  match timelineEvent.event with
  | none => .error ⟨js "map", .undefined⟩
  | some event =>
    if event.details = none then .error ⟨js "map", .null⟩
    if timelineEvent.associatedEvents ≠ [] then
      renderAssociatedEvents timelineEvent.associatedEvents

/-- `TimelineContainer.render`. -/
def render (event : Option Param) (timelineItems : List TimelineItem) :
    Except TypeError (List TimelineItem) := do
  let historyPoint ← getTimelineEvent event timelineItems
  let augmentedTimelineItems ← transformTimelineEvents timelineItems
  if event.isSome then renderTimelineEventDetails historyPoint
  return augmentedTimelineItems

end Timeline

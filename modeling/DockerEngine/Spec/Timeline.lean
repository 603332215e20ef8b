import DockerEngine.Native.Timeline
import DockerEngine.ForStd.Except

/-!
# What the timeline container can render

`render` throws at an item that it cannot print, at an event whose list of associated events is
null, and on the page of an event when the event, or one of its associated events, is not
among the items.

- `render_ok`: when `render` does not throw
- `event_safe_iff`: the same for items that can be printed, where only a reference to what is
  not in the list can be the reason
-/

namespace Timeline

open Js

/-! ## The items -/

/-- A breach has its number of records, and there are details. -/
def TimelineItem.Printable (item : TimelineItem) : Prop :=
  (isBreach item = true → item.records ≠ none) ∧ item.details.getD [] ≠ []

theorem primaryDetails_ok (item : TimelineItem) :
    (∃ s, primaryDetails item = .ok s) ↔ (isBreach item = true → item.records ≠ none) := by
  unfold primaryDetails
  split
  · next hbreach => cases item.records <;> simp [hbreach]
  · next hbreach =>
    refine iff_of_true ?_ fun h => absurd h hbreach
    split <;> exact ⟨_, rfl⟩

theorem itemTitle_ok (item : TimelineItem) :
    (∃ s, itemTitle item = .ok s) ↔ item.details.getD [] ≠ [] := by
  unfold itemTitle
  split <;> simp [*]

theorem transformTimelineEvent_ok (item : TimelineItem) :
    (∃ item', transformTimelineEvent item = .ok item') ↔ item.Printable := by
  rw [transformTimelineEvent, Except.bind_isOk, TimelineItem.Printable, ← primaryDetails_ok,
    ← itemTitle_ok]
  constructor
  · rintro ⟨primary, hprimary, htitle⟩
    obtain ⟨title, htitle, -⟩ := Except.bind_isOk.mp htitle
    exact ⟨⟨primary, hprimary⟩, title, htitle⟩
  · rintro ⟨⟨primary, hprimary⟩, title, htitle⟩
    exact ⟨primary, hprimary, Except.bind_isOk.mpr ⟨title, htitle, _, rfl⟩⟩

theorem transformTimelineEvents_ok (items : List TimelineItem) :
    (∃ items', transformTimelineEvents items = .ok items') ↔ ∀ item ∈ items, item.Printable := by
  rw [transformTimelineEvents, Except.mapM_isOk]
  exact forall₂_congr fun item _ => transformTimelineEvent_ok item

/-! ## The page of an event -/

theorem everyGroup_ok (group : JsString) {events : List (Option TimelineItem)}
    (h : none ∉ events) : ∃ b, everyGroup group events = .ok b := by
  induction events with
  | nil => exact ⟨true, rfl⟩
  | cons event events ih =>
    rw [List.mem_cons, not_or] at h
    cases event with
    | none => exact absurd rfl h.1
    | some event =>
      rw [everyGroup]
      split
      · exact ih h.2
      · exact ⟨false, rfl⟩

theorem renderAssociatedEvents_ok (events : List (Option TimelineItem)) :
    (∃ u, renderAssociatedEvents events = .ok u) ↔ none ∉ events := by
  rw [renderAssociatedEvents, Except.bind_isOk]
  constructor
  · rintro ⟨type, -, hrender⟩ hnone
    obtain ⟨u, hu⟩ := Except.forM_isOk.mp hrender none hnone
    cases hu
  · intro hnone
    obtain ⟨hackers, hhackers⟩ := everyGroup_ok (js "hacker") hnone
    obtain ⟨breaches, hbreaches⟩ := everyGroup_ok (js "breach") hnone
    -- the type is found, so what is left is to print the events
    refine ⟨_, by simp [getAssociatedEventType, hhackers, hbreaches, bind, Except.bind]; rfl, ?_⟩
    refine Except.forM_isOk.mpr fun event hevent => ?_
    cases event with
    | none => exact absurd hevent hnone
    | some event => exact ⟨_, rfl⟩

theorem renderTimelineEventDetails_ok (timelineEvent : TimelineEvent) :
    (∃ u, renderTimelineEventDetails timelineEvent = .ok u) ↔
      ∃ event, timelineEvent.event = some event ∧ event.details ≠ none ∧
        none ∉ timelineEvent.associatedEvents := by
  unfold renderTimelineEventDetails
  cases hevent : timelineEvent.event with
  | none => simp
  | some event =>
    by_cases hdetails : event.details = none
    · simp [hdetails, bind, Except.bind]
    · by_cases hnil : timelineEvent.associatedEvents = []
      · simp [hdetails, hnil, pure, Except.pure]
      · simpa [hdetails, hnil, bind, Except.bind, pure, Except.pure] using
          renderAssociatedEvents_ok timelineEvent.associatedEvents

/-! ## The container -/

/-- The event that `getTimelineEvent` finds. -/
def findEvent (id : Option Param) (items : List TimelineItem) : Option TimelineItem :=
  items.find? fun item => looseEq item.id id

/-- What `render` relies on. -/
structure Renderable (event : Option Param) (items : List TimelineItem) : Prop where
  printable : ∀ item ∈ items, item.Printable
  timelineEvents : ∀ item, findEvent event items = some item → item.timelineEvents ≠ none
  event : event.isSome = true → ∃ item, findEvent event items = some item ∧
    ∀ ae ∈ item.timelineEvents.getD [], ∃ associated ∈ items, associated.id = ae

theorem getTimelineEvent_ok (id : Option Param) (items : List TimelineItem) :
    (∃ e, getTimelineEvent id items = .ok e) ↔
      ∀ item, findEvent id items = some item → item.timelineEvents ≠ none := by
  unfold getTimelineEvent findEvent
  cases items.find? fun item => looseEq item.id id with
  | none => simp
  | some item => cases hevents : item.timelineEvents <;> simp [hevents]

/-- The associated events are items of the list, or undefined. -/
theorem getTimelineEvent_eq {id : Option Param} {items : List TimelineItem} {e : TimelineEvent}
    (h : getTimelineEvent id items = .ok e) :
    e.event = findEvent id items ∧
      e.associatedEvents = (e.event.elim [] fun item => item.timelineEvents.getD []).map fun ae =>
        items.find? fun item => item.id = ae := by
  unfold getTimelineEvent at h
  split at h
  · next hfind => cases h; exact ⟨hfind.symm, rfl⟩
  · next item hfind =>
    split at h
    · cases h
    · next events hevents => cases h; exact ⟨hfind.symm, by simp [hevents]⟩

theorem findEvent_mem {id : Option Param} {items : List TimelineItem} {item : TimelineItem}
    (h : findEvent id items = some item) : item ∈ items := List.mem_of_find?_eq_some h

/-- Every associated event is among the items. -/
theorem none_notMem_associatedEvents {id : Option Param} {items : List TimelineItem}
    {e : TimelineEvent} {item : TimelineItem} (h : getTimelineEvent id items = .ok e)
    (hitem : e.event = some item) :
    none ∉ e.associatedEvents ↔
      ∀ ae ∈ item.timelineEvents.getD [], ∃ associated ∈ items, associated.id = ae := by
  simp [(getTimelineEvent_eq h).2, hitem]

theorem eventPage_ok {event : Option Param} {items : List TimelineItem} {e : TimelineEvent}
    (h : getTimelineEvent event items = .ok e) (hprintable : ∀ item ∈ items, item.Printable) :
    (∃ u, renderTimelineEventDetails e = .ok u) ↔
      ∃ item, findEvent event items = some item ∧
        ∀ ae ∈ item.timelineEvents.getD [], ∃ associated ∈ items, associated.id = ae := by
  rw [renderTimelineEventDetails_ok]
  refine exists_congr fun item => ?_
  rw [← (getTimelineEvent_eq h).1]
  refine and_congr_right fun hitem => ?_
  rw [none_notMem_associatedEvents h hitem, and_iff_right]
  intro hdetails
  have hmem : item ∈ items := findEvent_mem ((getTimelineEvent_eq h).1 ▸ hitem)
  exact (hprintable item hmem).2 (by rw [hdetails]; rfl)

theorem render_ok (event : Option Param) (items : List TimelineItem) :
    (∃ items', render event items = .ok items') ↔ Renderable event items := by
  unfold render
  rw [Except.bind_isOk]
  constructor
  · rintro ⟨e, he, hrest⟩
    obtain ⟨items', htransform, hrest⟩ := Except.bind_isOk.mp hrest
    have hprintable := (transformTimelineEvents_ok items).mp ⟨items', htransform⟩
    refine ⟨hprintable, (getTimelineEvent_ok event items).mp ⟨e, he⟩, fun hevent => ?_⟩
    -- on the page of an event its details are rendered as well
    rw [if_pos hevent] at hrest
    obtain ⟨u, hu, -⟩ := Except.bind_isOk.mp hrest
    exact (eventPage_ok he hprintable).mp ⟨u, hu⟩
  · rintro ⟨hprintable, hevents, hpage⟩
    obtain ⟨e, he⟩ := (getTimelineEvent_ok event items).mpr hevents
    obtain ⟨items', htransform⟩ := (transformTimelineEvents_ok items).mpr hprintable
    refine ⟨e, he, Except.bind_isOk.mpr ⟨items', htransform, ?_⟩⟩
    split
    · next hevent =>
      obtain ⟨u, hu⟩ := (eventPage_ok he hprintable).mpr (hpage hevent)
      exact Except.bind_isOk.mpr ⟨u, hu, items', rfl⟩
    · exact ⟨items', rfl⟩

/-! ## References that lead out of the list -/

theorem everyGroup_error {group : JsString} {events : List (Option TimelineItem)}
    {err : TypeError} (h : everyGroup group events = .error err) : err.ofValue = .undefined := by
  induction events with
  | nil => cases h
  | cons event events ih =>
    cases event with
    | none =>
      cases h
      rfl
    | some event =>
      rw [everyGroup] at h
      split at h
      · exact ih h
      · cases h

theorem renderAssociatedEvents_error {events : List (Option TimelineItem)} {err : TypeError}
    (h : renderAssociatedEvents events = .error err) : err.ofValue = .undefined := by
  rcases Except.bind_eq_error.mp h with htype | ⟨_, -, hrender⟩
  · rcases Except.bind_eq_error.mp htype with hhackers | ⟨_, -, hrest⟩
    · exact everyGroup_error hhackers
    · rcases Except.bind_eq_error.mp hrest with hbreaches | ⟨_, -, hpure⟩
      · exact everyGroup_error hbreaches
      · cases hpure
  · obtain ⟨event, -, hevent⟩ := Except.forM_eq_error hrender
    cases event with
    | none =>
      cases hevent
      rfl
    | some event => cases hevent

theorem renderTimelineEventDetails_error {timelineEvent : TimelineEvent} {err : TypeError}
    (hdetails : ∀ event, timelineEvent.event = some event → event.details ≠ none)
    (h : renderTimelineEventDetails timelineEvent = .error err) : err.ofValue = .undefined := by
  unfold renderTimelineEventDetails at h
  split at h
  · cases h
    rfl
  · next event hevent =>
    rw [if_neg (hdetails event hevent)] at h
    simp only [pure, Except.pure] at h
    split at h
    · exact renderAssociatedEvents_error h
    · cases h

/-- An item as the database has it: there are details, a breach has its number of records, and
    the list of the associated events is there. -/
structure TimelineItem.WellFormed (item : TimelineItem) : Prop where
  printable : item.Printable
  timelineEvents : item.timelineEvents ≠ none

variable {event : Option Param} {items : List TimelineItem}

/-- No property of null is read. -/
theorem render_error {err : TypeError} (hitems : ∀ item ∈ items, item.WellFormed)
    (h : render event items = .error err) : err.ofValue = .undefined := by
  obtain ⟨e, he⟩ := (getTimelineEvent_ok event items).mpr fun item hfind =>
    (hitems item (findEvent_mem hfind)).timelineEvents
  obtain ⟨items', htransform⟩ := (transformTimelineEvents_ok items).mpr fun item hitem =>
    (hitems item hitem).printable
  have hdetails : ∀ item, e.event = some item → item.details ≠ none := by
    intro item hitem hnone
    rw [(getTimelineEvent_eq he).1] at hitem
    exact (hitems item (findEvent_mem hitem)).printable.2 (by rw [hnone]; rfl)
  unfold render at h
  rw [he, htransform] at h
  -- what is left is the page of the event
  simp only [bind, Except.bind] at h
  split at h
  · split at h
    · next hrender =>
      cases h
      exact renderTimelineEventDetails_error hdetails hrender
    · cases h
  · cases h

/-- The items that the page of an event refers to are in the list. -/
structure Closed (event : Option Param) (items : List TimelineItem) : Prop where
  found : event.isSome = true → ∃ item, findEvent event items = some item
  associatedEvents : ∀ item, findEvent event items = some item →
    ∀ ae ∈ item.timelineEvents.getD [], ∃ associated ∈ items, associated.id = ae

theorem render_isOk_iff (hitems : ∀ item ∈ items, item.WellFormed) :
    (∀ property, render event items ≠ .error ⟨property, .undefined⟩) ↔
      ∃ items', render event items = .ok items' := by
  constructor
  · intro hsafe
    cases hrender : render event items with
    | ok items' => exact ⟨items', rfl⟩
    | error err =>
      have hundefined := render_error hitems hrender
      exact absurd (by rw [hrender, ← hundefined]) (hsafe err.property)
  · rintro ⟨items', hrender⟩ property herr
    rw [hrender] at herr
    cases herr

theorem associatedEvents_mem {e : TimelineEvent} (h : getTimelineEvent event items = .ok e)
    (hclosed : Closed event items) :
    ∀ ae ∈ e.associatedEvents, ∃ item ∈ items, ae = some item := by
  obtain ⟨hevent, hassociated⟩ := getTimelineEvent_eq h
  intro ae hmem
  cases hfind : findEvent event items with
  | none =>
    rw [hassociated, hevent, hfind] at hmem
    cases hmem
  | some item =>
    have hnone := (none_notMem_associatedEvents h (hevent.trans hfind)).mpr
      (hclosed.associatedEvents item hfind)
    cases ae with
    | none => exact absurd hmem hnone
    | some associated =>
      rw [hassociated, List.mem_map] at hmem
      obtain ⟨id, -, hid⟩ := hmem
      exact ⟨associated, List.mem_of_find?_eq_some hid, rfl⟩

/-- The associated events are items of the list, and nothing is read from undefined, exactly when
    the list has the event of the page, and what this event is associated with. -/
theorem event_safe_iff (event : Option Param) (items : List TimelineItem)
    (hitems : ∀ item ∈ items, item.WellFormed) :
    ((∃ e, getTimelineEvent event items = .ok e ∧
        ∀ ae ∈ e.associatedEvents, ∃ item ∈ items, ae = some item) ∧
      ∀ property, render event items ≠ .error ⟨property, .undefined⟩) ↔ Closed event items := by
  rw [render_isOk_iff hitems, render_ok]
  constructor
  · rintro ⟨⟨e, he, hlisted⟩, hrender⟩
    refine ⟨fun hevent => ?_, fun item hfind => ?_⟩
    · obtain ⟨item, hfind, -⟩ := hrender.event hevent
      exact ⟨item, hfind⟩
    · have hnone : none ∉ e.associatedEvents := by
        intro hmem
        obtain ⟨item, -, hitem⟩ := hlisted none hmem
        cases hitem
      exact (none_notMem_associatedEvents he ((getTimelineEvent_eq he).1.trans hfind)).mp hnone
  · intro hclosed
    have hevents : ∀ item, findEvent event items = some item → item.timelineEvents ≠ none :=
      fun item hfind => (hitems item (findEvent_mem hfind)).timelineEvents
    obtain ⟨e, he⟩ := (getTimelineEvent_ok event items).mpr hevents
    refine ⟨⟨e, he, associatedEvents_mem he hclosed⟩, ?_, hevents, fun hevent => ?_⟩
    · exact fun item hitem => (hitems item hitem).printable
    · obtain ⟨item, hfind⟩ := hclosed.found hevent
      exact ⟨item, hfind, hclosed.associatedEvents item hfind⟩

def zero : Number := ⟨js "0", rfl⟩

def one : Number := ⟨js "1", rfl⟩

def two : Number := ⟨js "2", rfl⟩

/-- An item with an id and the ids of its associated events. -/
def linkedItem (id : Number) (timelineEvents : List Number) : TimelineItem where
  id := some id
  name := .absent
  short := .absent
  group := .absent
  content := .absent
  start := .absent
  stop := .absent
  timelineEvents := some (timelineEvents.map some)
  details := some [js "details"]
  records := some zero
  breachType := .absent
  sources := some []
  targets := .absent
  affiliations := .absent
  className := none
  title := none

theorem linkedItem_wellFormed (id : Number) (timelineEvents : List Number) :
    (linkedItem id timelineEvents).WellFormed := by
  refine ⟨⟨fun hbreach => ?_, ?_⟩, ?_⟩ <;> simp [linkedItem]

/-- The page of an event, with the event that it is associated with. -/
theorem event_safe_iff_linked :
    (∃ e, getTimelineEvent (some (some one)) [linkedItem one [two], linkedItem two []] = .ok e ∧
        ∀ ae ∈ e.associatedEvents,
          ∃ item ∈ [linkedItem one [two], linkedItem two []], ae = some item) ∧
      ∀ property, render (some (some one)) [linkedItem one [two], linkedItem two []]
        ≠ .error ⟨property, .undefined⟩ := by
  have hitems : ∀ item ∈ [linkedItem one [two], linkedItem two []], item.WellFormed := by
    intro item hitem
    simp only [List.mem_cons, List.not_mem_nil, or_false] at hitem
    rcases hitem with rfl | rfl <;> apply linkedItem_wellFormed
  have hfind : findEvent (some (some one)) [linkedItem one [two], linkedItem two []]
      = some (linkedItem one [two]) := rfl
  refine (event_safe_iff _ _ hitems).mpr ⟨fun _ => ⟨_, hfind⟩, fun item hitem ae hae => ?_⟩
  rw [hfind] at hitem
  cases hitem
  obtain rfl : ae = some two := List.mem_singleton.mp hae
  exact ⟨linkedItem two [], by simp, rfl⟩

/-- The page of an event before the items have come, and when what the event is associated with has
    been filtered out. -/
theorem event_unsafe :
    render (some (some one)) [] = .error ⟨js "map", .undefined⟩ ∧
      (linkedItem one [two]).WellFormed ∧
      getTimelineEvent (some (some one)) [linkedItem one [two]]
        = .ok ⟨some (linkedItem one [two]), [none]⟩ ∧
      render (some (some one)) [linkedItem one [two]] = .error ⟨js "group", .undefined⟩ := by
  exact ⟨rfl, linkedItem_wellFormed _ _, rfl, rfl⟩

end Timeline

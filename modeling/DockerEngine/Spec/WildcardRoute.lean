import DockerEngine.Native.WildcardRoute
import DockerEngine.Spec.Timeline
import Mathlib.Data.List.Induction

/-!
# What requests leave behind

The stores of all requests refer to the filter criteria of the initial state. The first
request that shows the timeline with items writes their dates into them, and they stay there
for as long as the server runs.

- `serveAll_shared`: the shared criteria after some requests
- `respond_eq`: a response as a function of them
- `respond_fresh`: when a response is that of a server that has just started
-/

namespace Timeline

open Js

/-- The timeline is on the page. -/
def Request.showsTimeline : Request → Bool
  | index | timeline | event _ => true
  | about | notFound => false

/-- The request shows the timeline, and there are items. -/
def Visit.setsDates (visit : Visit) : Bool :=
  visit.request.showsTimeline && !visit.items.isEmpty

/-- The page can be rendered. -/
def Visit.Renders (visit : Visit) : Prop :=
  visit.request.showsTimeline = true → Renderable visit.request.param visit.items

/-- The items that the page shows, as rendering leaves them. -/
def Visit.rendered (visit : Visit) : Except TypeError (List TimelineItem) :=
  if visit.request.showsTimeline then render visit.request.param visit.items else .ok []

theorem Visit.rendered_ok (visit : Visit) :
    (∃ items, visit.rendered = .ok items) ↔ visit.Renders := by
  unfold Visit.rendered Visit.Renders
  split
  · next hshows => simp [hshows, render_ok]
  · next hshows => simp [hshows]

/-! ## The criteria -/

def FilterCriteria.dated (filterCriteria : FilterCriteria) : Bool :=
  filterCriteria.startDate.truthy || filterCriteria.endDate.truthy

/-- What a request makes of the shared criteria. -/
def Visit.update (visit : Visit) (filterCriteria : FilterCriteria) : FilterCriteria :=
  if visit.setsDates && !filterCriteria.dated then filterCriteria.withDates visit.items
  else filterCriteria

/-- The criteria after some requests: those of the first that shows the timeline with items. -/
def criteriaAfter (history : List Visit) : FilterCriteria :=
  match history.find? Visit.setsDates with
  | none => initialCriteria
  | some visit => initialCriteria.withDates visit.items

theorem getMinimumDate_startDates {items : List TimelineItem} (h : items ≠ []) :
    ∃ d, getMinimumDate (startDates items) = some d := by
  cases items with
  | nil => exact absurd rfl h
  | cons item items => exact ⟨_, rfl⟩

theorem getMaximumDate_endDates {items : List TimelineItem} (h : items ≠ []) :
    ∃ d, getMaximumDate (endDates items) = some d := by
  cases items with
  | nil => exact absurd rfl h
  | cons item items => exact ⟨_, rfl⟩

theorem withDates_dated (filterCriteria : FilterCriteria) {items : List TimelineItem}
    (h : items ≠ []) : (filterCriteria.withDates items).dated = true := by
  obtain ⟨d, hd⟩ := getMinimumDate_startDates h
  simp [FilterCriteria.dated, FilterCriteria.withDates, hd, DateField.ofOption, DateField.truthy]

theorem Visit.setsDates_items {visit : Visit} (h : visit.setsDates = true) : visit.items ≠ [] := by
  simp only [Visit.setsDates, Bool.and_eq_true, Bool.not_eq_true', List.isEmpty_eq_false_iff] at h
  exact h.2

/-- Once there are dates, they stay. -/
theorem Visit.update_of_dated (visit : Visit) {filterCriteria : FilterCriteria}
    (h : filterCriteria.dated = true) : visit.update filterCriteria = filterCriteria := by
  simp [Visit.update, h]

theorem criteriaAfter_append (history : List Visit) (visit : Visit) :
    criteriaAfter (history ++ [visit]) = visit.update (criteriaAfter history) := by
  unfold criteriaAfter
  rw [List.find?_append]
  cases hfind : history.find? Visit.setsDates with
  | none =>
    have hdated : initialCriteria.dated = false := rfl
    cases hsets : visit.setsDates <;> simp [Visit.update, hsets, hdated]
  -- the dates of the first such request stay
  | some first =>
    have hitems : first.items ≠ [] := Visit.setsDates_items (List.find?_some hfind)
    exact (visit.update_of_dated (withDates_dated _ hitems)).symm

/-! ## One request -/

/-- A store has the shared criteria, whatever it has fetched. -/
theorem fetchComponentState_eq (visit : Visit) :
    fetchComponentState (.ok (some visit.items)) visit.request.components
        (timelineReducer none .init) =
      { timelineState with
        timelineItems := if visit.request.showsTimeline then visit.items else [] } := by
  obtain ⟨request, items⟩ := visit
  cases request <;> rfl

/-- The state in the page. -/
def pageState (filterCriteria : FilterCriteria) (items : List TimelineItem) : Json :=
  { timelineState with timelineItems := items }.toJson fun _ => filterCriteria

@[simp] theorem Heap.set_self (heap : Heap) (ref : Ref) (filterCriteria : FilterCriteria) :
    heap.set ref filterCriteria ref = filterCriteria := if_pos rfl

/-- Rendering the timeline updates the shared criteria. -/
theorem mapStateToProps_shared (heap : Heap) (visit : Visit)
    (hshows : visit.request.showsTimeline = true) :
    (mapStateToProps heap { timelineState with timelineItems := visit.items }).1 sharedCriteria =
      visit.update (heap sharedCriteria) := by
  have hcond : (visit.setsDates && !(heap sharedCriteria).dated) =
      ((!(heap sharedCriteria).startDate.truthy && !(heap sharedCriteria).endDate.truthy) &&
        decide (visit.items ≠ [])) := by
    cases hitems : visit.items <;>
      simp [Visit.setsDates, FilterCriteria.dated, hshows, hitems, Bool.not_or]
  rw [Visit.update, hcond, ← heap.set_self sharedCriteria ((heap sharedCriteria).withDates _)]
  exact apply_ite (fun heap : Heap => heap sharedCriteria) _ _ _

theorem renderToString_shows {request : Request} (h : request.showsTimeline = true) (heap : Heap)
    (state : TimelineState) :
    renderToString heap request state =
      ((mapStateToProps heap state).1,
        (render request.param state.timelineItems).map fun timelineItems =>
          { state with timelineItems }) := by
  cases request <;> first | rfl | cases h

theorem renderToString_hides {request : Request} (h : request.showsTimeline = false) (heap : Heap)
    (state : TimelineState) : renderToString heap request state = (heap, .ok state) := by
  cases request <;> first | rfl | cases h

theorem serve_eq (heap : Heap) (visit : Visit) :
    (serve heap visit).1 sharedCriteria = visit.update (heap sharedCriteria) ∧
      (serve heap visit).2 =
        visit.rendered.map (pageState (visit.update (heap sharedCriteria))) := by
  unfold serve wildcardRoute renderView
  simp only [fetchComponentState_eq]
  cases hshows : visit.request.showsTimeline with
  | true =>
    have hheap := mapStateToProps_shared heap visit hshows
    rw [renderToString_shows hshows, if_pos rfl, Visit.rendered, if_pos hshows]
    refine ⟨hheap, ?_⟩
    rw [← hheap]
    cases render visit.request.param visit.items <;> rfl
  | false =>
    have hupdate : visit.update (heap sharedCriteria) = heap sharedCriteria := by
      simp [Visit.update, Visit.setsDates, hshows]
    rw [renderToString_hides hshows, hupdate, Visit.rendered, hshows]
    exact ⟨rfl, rfl⟩

/-! ## A server -/

/-- What a server process keeps. -/
theorem serveAll_shared (history : List Visit) :
    serveAll history sharedCriteria = criteriaAfter history := by
  induction history using List.reverseRecOn with
  | nil => rfl
  | append_singleton history visit ih =>
    rw [serveAll, List.foldl_append, List.foldl_cons, List.foldl_nil, ← serveAll,
      (serve_eq _ _).1, ih, criteriaAfter_append]

theorem respond_eq (history : List Visit) (visit : Visit) :
    respond history visit =
      visit.rendered.map (pageState (visit.update (criteriaAfter history))) := by
  rw [respond, (serve_eq _ _).2, serveAll_shared]

/-! ## Independence -/

theorem pageState_inj {c c' : FilterCriteria} {items : List TimelineItem} :
    pageState c items = pageState c' items ↔ c.toJson = c'.toJson := by
  simp [pageState, TimelineState.toJson, Json.ofMembers, timelineState]

/-- The first start and the last end of the items are the same. -/
def SameDates (items items' : List TimelineItem) : Prop :=
  getMinimumDate (startDates items) = getMinimumDate (startDates items') ∧
    getMaximumDate (endDates items) = getMaximumDate (endDates items')

theorem withDates_toJson {items items' : List TimelineItem} (h : items ≠ []) (h' : items' ≠ []) :
    (initialCriteria.withDates items).toJson = (initialCriteria.withDates items').toJson ↔
      SameDates items items' := by
  obtain ⟨d, hd⟩ := getMinimumDate_startDates h
  obtain ⟨e, he⟩ := getMaximumDate_endDates h
  obtain ⟨d', hd'⟩ := getMinimumDate_startDates h'
  obtain ⟨e', he'⟩ := getMaximumDate_endDates h'
  simp [FilterCriteria.toJson, FilterCriteria.withDates, hd, he, hd', he', DateField.ofOption,
    DateField.toJson, Json.ofMembers, SameDates, Date.toJson_inj]

/-- With dates the criteria are not those of a server that has just started. -/
theorem withDates_toJson_ne {items : List TimelineItem} (h : items ≠ []) :
    (initialCriteria.withDates items).toJson ≠ initialCriteria.toJson := by
  obtain ⟨d, hd⟩ := getMinimumDate_startDates h
  intro heq
  simp [FilterCriteria.toJson, FilterCriteria.withDates, hd, DateField.ofOption, DateField.toJson,
    Json.ofMembers, initialCriteria, d.toJson_ne_empty] at heq

/-- Responses that are not the same differ in the criteria, on a page that can be rendered. -/
theorem respond_eq_iff (history history' : List Visit) (visit : Visit) :
    respond history visit = respond history' visit ↔
      ¬ visit.Renders ∨ (visit.update (criteriaAfter history)).toJson =
        (visit.update (criteriaAfter history')).toJson := by
  rw [respond_eq, respond_eq, ← visit.rendered_ok]
  cases visit.rendered with
  | error err => simp [Except.map]
  | ok items => simp [Except.map, pageState_inj]

/-- A response is that of a server that has just started exactly when the page cannot be
    rendered, or no request before it has shown the timeline with items, or both the first that
    has and this one show it with the same dates. -/
theorem respond_fresh (history : List Visit) (visit : Visit) :
    respond history visit = respond [] visit ↔
      ¬ visit.Renders ∨ (∀ v ∈ history, v.setsDates = false) ∨
        ∃ first, history.find? Visit.setsDates = some first ∧ visit.setsDates = true ∧
          SameDates first.items visit.items := by
  rw [respond_eq_iff]
  refine or_congr_right ?_
  cases hfind : history.find? Visit.setsDates with
  | none =>
    have hnone : ∀ v ∈ history, v.setsDates = false := by simpa using hfind
    refine iff_of_true ?_ (.inl hnone)
    simp [criteriaAfter, hfind]
  | some first =>
    have hsets : first.setsDates = true := List.find?_some hfind
    have hsome : ¬ ∀ v ∈ history, v.setsDates = false := fun hnone => by
      simp [hnone first (List.mem_of_find?_eq_some hfind)] at hsets
    have hitems : first.items ≠ [] := Visit.setsDates_items hsets
    have hafter : criteriaAfter history = initialCriteria.withDates first.items := by
      simp [criteriaAfter, hfind]
    rw [hafter, visit.update_of_dated (withDates_dated _ hitems), or_iff_right hsome]
    cases hvisit : visit.setsDates with
    -- a server that has just started takes the dates from the items of this request
    | true =>
      have hupdate : visit.update (criteriaAfter []) = initialCriteria.withDates visit.items := by
        rw [Visit.update, hvisit]
        rfl
      rw [hupdate, withDates_toJson hitems (Visit.setsDates_items hvisit)]
      simp
    -- or has no dates at all
    | false =>
      have hupdate : visit.update (criteriaAfter []) = initialCriteria := by
        rw [Visit.update, hvisit]
        rfl
      simp [hupdate, withDates_toJson_ne hitems]

/-- An item that has little more than dates. -/
def datedItem (start stop : Int) : TimelineItem where
  id := some one
  name := .absent
  short := .absent
  group := .absent
  content := .absent
  start := .value start
  stop := .value stop
  timelineEvents := some []
  details := some [js "details"]
  records := some zero
  breachType := .absent
  sources := some []
  targets := .absent
  affiliations := .absent
  className := none
  title := none

/-- The timeline of 2005 is shown with the dates of 2003, which an earlier request left. -/
theorem respond_not_fresh :
    ¬ ∀ (history : List Visit) (visit : Visit), respond history visit = respond [] visit := by
  intro h
  let earlier : Visit := ⟨.index, [datedItem 1049155200000 1054339200000]⟩
  let visit : Visit := ⟨.index, [datedItem 1114905600000 1117497600000]⟩
  have hrenders : visit.Renders := fun _ =>
    ⟨by simp [visit, TimelineItem.Printable, datedItem, isBreach], by decide, nofun⟩
  have hdates := (respond_eq_iff [earlier] [] visit).mp (h _ _)
  have hearlier : visit.update (criteriaAfter [earlier]) =
      ⟨.date (some 1049155200000), .date (some 1054339200000), false⟩ := by decide
  have hfresh : visit.update (criteriaAfter []) =
      ⟨.date (some 1114905600000), .date (some 1117497600000), false⟩ := by decide
  have hdiffer : Date.toISOString 1049155200000 ≠ Date.toISOString 1114905600000 := by decide
  rw [hearlier, hfresh] at hdates
  simp [hrenders, FilterCriteria.toJson, Json.ofMembers, DateField.toJson, Date.toJson,
    hdiffer] at hdates

end Timeline

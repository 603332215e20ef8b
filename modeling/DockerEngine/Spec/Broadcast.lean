import DockerEngine.Native.Broadcast

/-!
# What the writers of a broadcaster are offered

A broadcaster with many writers does for each of them what it would do if it had no other.
`due` says what that is; it looks at one writer and at its own answers only. Evicting writers
by their elements is what makes this so: the elements that stay are those that did not fail,
in the same order.

- `mem_values_step`, `offered_step`: what one call does to one writer
- `offered_foldl`: what the calls that follow do to a writer that is not on the list yet
- `writers_offered`: the writers of any run
-/

namespace Docker

open Go

variable {W : Type u}

/-! ## The purpose: one writer alone -/

namespace BroadcastOp

/-- The writer that is added. -/
def adds : BroadcastOp W → Option W
  | addWriter writer => some writer
  | _ => none

/-- What is offered to the writers on the list. -/
def payloads : BroadcastOp W → List (List UInt8)
  | write p _ => [p]
  | _ => []

/-- The call after which `w` is offered nothing more. -/
def Ends (w : W) : BroadcastOp W → Prop
  | addWriter _ => False
  | removeWriter writer => writer = w
  | write p answer => answer.fails p w = true

instance [DecidableEq W] (w : W) (op : BroadcastOp W) : Decidable (op.Ends w) :=
  match op with
  | addWriter _ => inferInstanceAs (Decidable False)
  | removeWriter writer => inferInstanceAs (Decidable (writer = w))
  | write p answer => inferInstanceAs (Decidable (answer.fails p w = true))

/-- The same call, to which `w` gives the same answer. -/
inductive SameFor (w : W) : BroadcastOp W → BroadcastOp W → Prop where
  | addWriter (writer : W) : SameFor w (.addWriter writer) (.addWriter writer)
  | removeWriter (writer : W) : SameFor w (.removeWriter writer) (.removeWriter writer)
  | write (p : List UInt8) {answer answer' : Answer W} (h : answer w = answer' w) :
      SameFor w (.write p answer) (.write p answer')

/-- The answers of the other writers have no part in what becomes of `w`. -/
theorem SameFor.eq {w : W} {op op' : BroadcastOp W} (h : op.SameFor w op') :
    op.adds = op'.adds ∧ op.payloads = op'.payloads ∧ (op.Ends w ↔ op'.Ends w) := by
  cases h with
  | addWriter writer => exact ⟨rfl, rfl, .rfl⟩
  | removeWriter writer => exact ⟨rfl, rfl, .rfl⟩
  | write p hanswer =>
    have hends (answer : Answer W) :
        (BroadcastOp.write p answer).Ends w ↔ (answer w).2 ≠ none ∨ (answer w).1 ≠ p.length := by
      simp [Ends, Answer.fails]
    exact ⟨rfl, rfl, by rw [hends, hends, hanswer]⟩

end BroadcastOp

/-- The writers that are added. -/
def added (ops : List (BroadcastOp W)) : List W := ops.filterMap BroadcastOp.adds

theorem mem_added_cons {op : BroadcastOp W} {ops : List (BroadcastOp W)} {w : W} :
    w ∈ added (op :: ops) ↔ op.adds = some w ∨ w ∈ added ops := by
  simp only [added, List.mem_filterMap, List.mem_cons, exists_eq_or_imp]

section

variable [DecidableEq W]

/-- What a writer on the list is offered: every payload, up to and including the one it fails at,
    or up to its `RemoveWriter`. -/
def takenUntil (w : W) : List (BroadcastOp W) → List (List UInt8)
  | [] => []
  | op :: ops => op.payloads ++ if op.Ends w then [] else takenUntil w ops

/-- What a writer is offered: nothing up to its `AddWriter`. -/
def due (w : W) : List (BroadcastOp W) → List (List UInt8)
  | [] => []
  | op :: ops => if op.adds = some w then takenUntil w ops else due w ops

variable {w : W} {ops ops' : List (BroadcastOp W)}

theorem takenUntil_congr (h : List.Forall₂ (BroadcastOp.SameFor w) ops ops') :
    takenUntil w ops = takenUntil w ops' := by
  induction h with
  | nil => rfl
  | cons hop _ ih =>
    obtain ⟨_, hpayloads, hends⟩ := hop.eq
    simp only [takenUntil, hpayloads, hends, ih]

/-- What comes after the end of `w` changes nothing. -/
theorem takenUntil_ends {pre post : List (BroadcastOp W)} {op : BroadcastOp W}
    (hends : op.Ends w) : takenUntil w (pre ++ op :: post) = takenUntil w (pre ++ [op]) := by
  induction pre with
  | nil => simp [takenUntil, hends]
  | cons first pre ih => simp only [List.cons_append, takenUntil, ih]

theorem due_ends {pre post : List (BroadcastOp W)} {op : BroadcastOp W} (hw : w ∈ added pre)
    (hends : op.Ends w) : due w (pre ++ op :: post) = due w (pre ++ [op]) := by
  induction pre with
  | nil => simp [added] at hw
  | cons first pre ih =>
    simp only [List.cons_append, due, takenUntil_ends hends]
    split
    · rfl
    · next hadds => exact ih ((mem_added_cons.mp hw).resolve_left hadds)

theorem due_congr (h : List.Forall₂ (BroadcastOp.SameFor w) ops ops') :
    due w ops = due w ops' := by
  induction h with
  | nil => rfl
  | cons hop hrest ih =>
    obtain ⟨hadds, _, _⟩ := hop.eq
    simp only [due, hadds, ih, takenUntil_congr hrest]

end

theorem added_congr {w : W} {ops ops' : List (BroadcastOp W)}
    (h : List.Forall₂ (BroadcastOp.SameFor w) ops ops') : added ops = added ops' := by
  induction h with
  | nil => rfl
  | cons hop _ ih =>
    obtain ⟨hadds, _, _⟩ := hop.eq
    simp only [added, List.filterMap_cons, hadds] at ih ⊢
    rw [ih]

namespace WriteBroadcaster

variable {b : WriteBroadcaster W}

/-! ## One call -/

/-- The first loop of `Write`: everybody is offered the payload, those that fail are collected. -/
theorem foldl_writeTo (p : List UInt8) (answer : Answer W) (elements : List (Element W))
    (offers : List (W × List UInt8)) (failed : List (Element W)) :
    elements.foldl (writeTo p answer) (offers, failed) =
      (offers ++ elements.map (fun e => (e.value, p)),
        failed ++ elements.filter fun e => answer.fails p e.value) := by
  induction elements generalizing offers failed with
  | nil => simp
  | cons e elements ih =>
    rw [List.foldl_cons, writeTo, ih]
    cases hfails : answer.fails p e.value with
    | false => simp [hfails]
    | true => simp [hfails]

/-- The writers that fail are gone, the others are left. -/
theorem values_write (b : WriteBroadcaster W) (p : List UInt8) (answer : Answer W) :
    (b.write p answer).2.writers.values =
      b.writers.values.filter fun writer => !answer.fails p writer := by
  rw [write, foldl_writeTo, List.nil_append, LinkedList.values, LinkedList.values,
    LinkedList.removeAll_filter, List.filter_map]
  rfl

theorem offers_write (b : WriteBroadcaster W) (p : List UInt8) (answer : Answer W) :
    (b.write p answer).2.offers = b.offers ++ b.writers.values.map fun writer => (writer, p) := by
  rw [write, foldl_writeTo, LinkedList.values, List.map_map]
  rfl

variable [DecidableEq W]

/-- A payload that everybody on the list is offered, `w` is offered as often as it is there. -/
theorem offered_map (p : List UInt8) (w : W) (values : List W) :
    (values.map fun writer => (writer, p)).filterMap
        (fun offer => if offer.1 = w then some offer.2 else none) =
      List.replicate (values.count w) p := by
  induction values with
  | nil => rfl
  | cons writer values ih =>
    by_cases hw : writer = w
    · simp [hw, ih, List.replicate_succ]
    · simp [hw, ih]

/-- `RemoveWriter` of a writer that is on the list once. -/
theorem values_removeWriter (hnodup : b.writers.values.Nodup) (writer : W) :
    (b.removeWriter writer).writers.values = b.writers.values.erase writer := by
  unfold removeWriter
  split
  · next e he =>
    have hvalue : e.value = writer := by simpa using List.find?_some he
    rw [← hvalue]
    exact LinkedList.values_remove hnodup (List.mem_of_find?_eq_some he)
  · next hnone =>
    have hnot : writer ∉ b.writers.values := by
      intro hmem
      obtain ⟨e, he, hvalue⟩ := List.mem_map.mp hmem
      simpa [hvalue] using List.find?_eq_none.mp hnone e he
    exact (List.erase_of_not_mem hnot).symm

/-- Who is on the list after a call. -/
theorem mem_values_step (hnodup : b.writers.values.Nodup) (op : BroadcastOp W) (w : W) :
    w ∈ (b.step op).writers.values ↔
      w ∈ b.writers.values ∧ ¬op.Ends w ∨ op.adds = some w := by
  cases op with
  | addWriter writer =>
    simp [step, addWriter, BroadcastOp.Ends, BroadcastOp.adds, eq_comm]
  | removeWriter writer =>
    rw [step, values_removeWriter hnodup, hnodup.mem_erase_iff]
    simp [BroadcastOp.Ends, BroadcastOp.adds, and_comm, eq_comm]
  | write p answer =>
    rw [step, values_write]
    simp [BroadcastOp.Ends, BroadcastOp.adds]

/-- What a call offers to one writer. -/
theorem offered_step (hnodup : b.writers.values.Nodup) (op : BroadcastOp W) (w : W) :
    (b.step op).offered w =
      b.offered w ++ if w ∈ b.writers.values then op.payloads else [] := by
  cases op with
  | addWriter writer => simp [step, addWriter, offered, BroadcastOp.payloads]
  | removeWriter writer =>
    have hoffers : (b.removeWriter writer).offers = b.offers := by
      unfold removeWriter
      split <;> rfl
    simp [step, offered, hoffers, BroadcastOp.payloads]
  | write p answer =>
    -- a writer that is on the list is there once
    rw [step, offered, offers_write, List.filterMap_append, offered_map]
    congr 1
    split
    · next hmem => rw [List.count_eq_one_of_mem hnodup hmem]; rfl
    · next hnot => rw [List.count_eq_zero_of_not_mem hnot]; rfl

/-! ## Runs -/

/-- The writers on the list and those that will be added are all distinct. -/
def Distinct (b : WriteBroadcaster W) (ops : List (BroadcastOp W)) : Prop :=
  (b.writers.values ++ added ops).Nodup

omit [DecidableEq W] in
theorem Distinct.nodup {ops : List (BroadcastOp W)} (h : b.Distinct ops) :
    b.writers.values.Nodup :=
  List.Nodup.of_append_left h

theorem Distinct.step {op : BroadcastOp W} {ops : List (BroadcastOp W)}
    (h : b.Distinct (op :: ops)) : (b.step op).Distinct ops := by
  have hnodup := h.nodup
  unfold Distinct at h ⊢
  cases op with
  | addWriter writer =>
    simpa [added, BroadcastOp.adds, WriteBroadcaster.step, addWriter] using h
  -- whoever is taken off the list only makes it shorter
  | removeWriter writer =>
    rw [WriteBroadcaster.step, values_removeWriter hnodup]
    exact h.sublist (List.Sublist.append_right List.erase_sublist _)
  | write p answer =>
    rw [WriteBroadcaster.step, values_write]
    exact h.sublist (List.Sublist.append_right List.filter_sublist _)

/-- A writer that is not on the list, and is not added any more, is offered nothing. -/
theorem offered_foldl_detached {w : W} {ops : List (BroadcastOp W)} (h : b.Distinct ops)
    (hw : w ∉ b.writers.values) (hadded : w ∉ added ops) :
    (ops.foldl step b).offered w = b.offered w := by
  induction ops generalizing b with
  | nil => rfl
  | cons op ops ih =>
    rw [mem_added_cons, not_or] at hadded
    obtain ⟨hadds, hrest⟩ := hadded
    have hstay : w ∉ (b.step op).writers.values := by
      rw [mem_values_step h.nodup]
      rintro (⟨hmem, _⟩ | hnow)
      · exact hw hmem
      · exact hadds hnow
    rw [List.foldl_cons, ih h.step hstay hrest, offered_step h.nodup, if_neg hw, List.append_nil]

/-- A writer on the list is offered everything up to its end. -/
theorem offered_foldl_attached {w : W} {ops : List (BroadcastOp W)} (h : b.Distinct ops)
    (hw : w ∈ b.writers.values) :
    (ops.foldl step b).offered w = b.offered w ++ takenUntil w ops := by
  induction ops generalizing b with
  | nil => simp [takenUntil]
  | cons op ops ih =>
    have hoffered := offered_step h.nodup op w
    rw [if_pos hw] at hoffered
    have hadded : w ∉ added (op :: ops) := List.disjoint_of_nodup_append h hw
    rw [mem_added_cons, not_or] at hadded
    obtain ⟨hadds, hrest⟩ := hadded
    rw [List.foldl_cons, takenUntil]
    by_cases hends : op.Ends w
    · -- the writer is gone, and as it was added once it does not come back
      have hgone : w ∉ (b.step op).writers.values := by
        rw [mem_values_step h.nodup]
        rintro (⟨_, hnot⟩ | hnow)
        · exact hnot hends
        · exact hadds hnow
      rw [offered_foldl_detached h.step hgone hrest, hoffered, if_pos hends, List.append_nil]
    · have hstay : w ∈ (b.step op).writers.values :=
        (mem_values_step h.nodup op w).mpr (.inl ⟨hw, hends⟩)
      rw [ih h.step hstay, hoffered, if_neg hends, List.append_assoc]

/-- A writer that is not on the list yet is offered what is due to it. -/
theorem offered_foldl {w : W} {ops : List (BroadcastOp W)} (h : b.Distinct ops)
    (hw : w ∉ b.writers.values) :
    (ops.foldl step b).offered w = b.offered w ++ due w ops := by
  induction ops generalizing b with
  | nil => simp [due]
  | cons op ops ih =>
    have hoffered := offered_step h.nodup op w
    rw [if_neg hw, List.append_nil] at hoffered
    rw [List.foldl_cons, due]
    by_cases hadds : op.adds = some w
    · have hnow : w ∈ (b.step op).writers.values :=
        (mem_values_step h.nodup op w).mpr (.inr hadds)
      rw [offered_foldl_attached h.step hnow, hoffered, if_pos hadds]
    · have hstay : w ∉ (b.step op).writers.values := by
        rw [mem_values_step h.nodup]
        rintro (⟨hmem, _⟩ | hnow)
        · exact hw hmem
        · exact hadds hnow
      rw [ih h.step hstay, hoffered, if_neg hadds]

omit [DecidableEq W] in
theorem distinct_new {ops : List (BroadcastOp W)} (h : (added ops).Nodup) :
    (new : WriteBroadcaster W).Distinct ops := by
  simpa [Distinct, new, LinkedList.new, LinkedList.values] using h

/-- In every run with distinct writers, each of them is offered what is due to it, and nothing
    after the call that ends it; the answers of the others change nothing; and a `Write` returns
    the length of its payload. -/
theorem writers_offered {ops : List (BroadcastOp W)} (h : (added ops).Nodup) :
    (∀ w, (run ops).offered w = due w ops) ∧
    (∀ w pre op post, ops = pre ++ op :: post → w ∈ added pre → op.Ends w →
      (run ops).offered w = (run (pre ++ [op])).offered w) ∧
    (∀ w ops', List.Forall₂ (BroadcastOp.SameFor w) ops ops' →
      (run ops').offered w = (run ops).offered w) ∧
    ∀ (p : List UInt8) (answer : Answer W), ((run ops).write p answer).1 = (p.length, none) := by
  have hdue : ∀ {ops : List (BroadcastOp W)}, (added ops).Nodup → ∀ w,
      (run ops).offered w = due w ops := by
    intro ops h w
    rw [run, offered_foldl (distinct_new h) (by simp [new, LinkedList.new, LinkedList.values])]
    rfl
  refine ⟨hdue h, ?_, ?_, fun _ _ => rfl⟩
  · rintro w pre op post rfl hw hends
    have hpre : (added (pre ++ [op])).Nodup := by
      have hsub : (pre ++ [op]).Sublist (pre ++ op :: post) := by simp
      exact h.sublist (hsub.filterMap _)
    rw [hdue h, hdue hpre, due_ends hw hends]
  · intro w ops' hsame
    rw [hdue (added_congr hsame ▸ h), hdue h, due_congr hsame]

/-! ## Three writers, one of which fails for a while -/

def allTaken (p : List UInt8) : Answer Nat := fun _ => (p.length, none)

/-- Writer 0 fails. -/
def firstFails (p : List UInt8) : Answer Nat := fun writer =>
  if writer = 0 then (0, some (str "Fake fail")) else (p.length, none)

def threeWriters : List (BroadcastOp Nat) :=
  [.addWriter 0, .addWriter 1, .write [1] (allTaken [1]), .addWriter 2, .write [2] (allTaken [2]),
    .removeWriter 1, .write [3] (allTaken [3]), .write [4] (firstFails [4]),
    .write [5] (allTaken [5])]

theorem writers_offered_three :
    (run threeWriters).offered 0 = [[1], [2], [3], [4]] ∧
      (run threeWriters).offered 1 = [[1], [2]] ∧
      (run threeWriters).offered 2 = [[2], [3], [4], [5]] := by
  have hdistinct : (added threeWriters).Nodup := by decide
  obtain ⟨hdue, _, _, _⟩ := writers_offered hdistinct
  exact ⟨hdue 0, hdue 1, hdue 2⟩

end WriteBroadcaster

end Docker

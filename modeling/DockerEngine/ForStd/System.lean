import Mathlib.Data.List.Induction

/-!
# Transition systems with guarded, executable steps

A `System` is a predicate for its initial states and a step function: `step s e`
is `some s'` when event `e` can happen in state `s`, and `none` when it cannot.

Two ways of speaking about runs are used side by side:

* `run s es` replays a concrete list of events, so that a scenario can be evaluated
  (`runVia ok s es` checks a restriction on its steps as it goes);
* `ReachableVia ok` collects the states of all runs in which every step satisfies `ok`,
  and carries the induction principle for invariants. `Reachable` is the case
  without a restriction on the steps.
-/

/-- Initial states, and what an event does to a state (`none`: it cannot happen there). -/
structure System (σ : Type u) (ε : Type v) where
  init : σ → Prop
  step : σ → ε → Option σ

namespace System

variable {σ : Type u} {ε : Type v} (sys : System σ ε)

/-- Replay a list of events; `none` when one of them cannot happen. -/
def run : σ → List ε → Option σ
  | s, [] => some s
  | s, e :: es => (sys.step s e).bind fun s' => run s' es

/-- The states of the runs all of whose steps satisfy `ok`. -/
inductive ReachableVia (ok : σ → ε → Prop) : σ → Prop
  | init {s : σ} : sys.init s → ReachableVia ok s
  | step {s s' : σ} {e : ε} :
      ReachableVia ok s → ok s e → sys.step s e = some s' → ReachableVia ok s'

/-- The states of all runs. -/
abbrev Reachable : σ → Prop := sys.ReachableVia fun _ _ => True

/-- Replay a list of events; `none` when one of them cannot happen or does not satisfy `ok`. -/
def runVia (ok : σ → ε → Prop) [∀ s e, Decidable (ok s e)] : σ → List ε → Option σ
  | s, [] => some s
  | s, e :: es => if ok s e then (sys.step s e).bind fun s' => runVia ok s' es else none

variable {sys} {ok : σ → ε → Prop} {s s' : σ}

@[simp] theorem run_nil : sys.run s [] = some s := rfl

@[simp] theorem run_cons (e : ε) (es : List ε) :
    sys.run s (e :: es) = (sys.step s e).bind fun s' => sys.run s' es := rfl

/-- What every step preserves, every replay preserves. -/
theorem run_invariant (sys : System σ ε) {P : σ → Prop}
    (hstep : ∀ s e s', P s → sys.step s e = some s' → P s')
    {es : List ε} (hs : P s) (hrun : sys.run s es = some s') : P s' := by
  induction es generalizing s with
  | nil => cases hrun; exact hs
  | cons e es ih =>
    obtain ⟨s₁, hs₁, hrest⟩ := Option.bind_eq_some_iff.mp hrun
    exact ih (hstep s e s₁ hs hs₁) hrest

/-- What the events of a replay preserve. -/
theorem run_invariant_of_events (sys : System σ ε) {P : σ → Prop} {ok : ε → Prop}
    (hstep : ∀ s e s', P s → ok e → sys.step s e = some s' → P s')
    {es : List ε} (hok : ∀ e ∈ es, ok e) (hs : P s) (hrun : sys.run s es = some s') : P s' := by
  induction es generalizing s with
  | nil => cases hrun; exact hs
  | cons e es ih =>
    obtain ⟨s₁, hs₁, hrest⟩ := Option.bind_eq_some_iff.mp hrun
    obtain ⟨he, hes⟩ := List.forall_mem_cons.mp hok
    exact ih hes (hstep s e s₁ hs he hs₁) hrest

/-- Steps that lower a measure until `Q` holds: a run to a state with `Q`. -/
theorem run_to (sys : System σ ε) {P Q : σ → Prop} (measure : σ → Nat)
    (hstep : ∀ s, P s → Q s ∨ ∃ e s', sys.step s e = some s' ∧ P s' ∧ measure s' < measure s)
    {s : σ} (hs : P s) : ∃ es s', sys.run s es = some s' ∧ P s' ∧ Q s' := by
  -- Induction on the measure
  generalize hk : measure s = k
  induction k using Nat.strongRecOn generalizing s with
  | ind k ih =>
    obtain hq | ⟨e, s₁, hs₁, hp₁, hlt⟩ := hstep s hs
    · exact ⟨[], s, rfl, hs, hq⟩
    · obtain ⟨es, s', hrun, hp', hq'⟩ := ih _ (hk ▸ hlt) hp₁ rfl
      exact ⟨e :: es, s', by rw [run_cons, hs₁, Option.bind_some, hrun], hp', hq'⟩

/-- An invariant: true initially, and preserved by every step that satisfies `ok`. -/
theorem ReachableVia.invariant {P : σ → Prop} (h : sys.ReachableVia ok s)
    (hinit : ∀ s, sys.init s → P s)
    (hstep : ∀ s e s', P s → ok s e → sys.step s e = some s' → P s') : P s := by
  induction h with
  | init hs => exact hinit _ hs
  | step _ hok hstep' ih => exact hstep _ _ _ ih hok hstep'

/-- A run that keeps to a restriction keeps to every weaker one. -/
theorem ReachableVia.mono {ok' : σ → ε → Prop} (h : sys.ReachableVia ok s)
    (himp : ∀ s e, ok s e → ok' s e) : sys.ReachableVia ok' s := by
  induction h with
  | init hs => exact .init hs
  | step _ hok hstep ih => exact ih.step (himp _ _ hok) hstep

/-- A replay that checks `ok` at every step stays in `ReachableVia ok`. -/
theorem ReachableVia.runVia [∀ s e, Decidable (ok s e)] (h : sys.ReachableVia ok s) (es : List ε)
    (hrun : sys.runVia ok s es = some s') : sys.ReachableVia ok s' := by
  induction es generalizing s with
  | nil => cases hrun; exact h
  | cons e es ih =>
    rw [System.runVia] at hrun
    split at hrun
    · next hok =>
      obtain ⟨s₁, hs₁, hrest⟩ := Option.bind_eq_some_iff.mp hrun
      exact ih (h.step hok hs₁) hrest
    · simp at hrun

/-- Every replay from a reachable state ends in a reachable state. -/
theorem Reachable.run (h : sys.Reachable s) (es : List ε)
    (hrun : sys.run s es = some s') : sys.Reachable s' := by
  induction es generalizing s with
  | nil => cases hrun; exact h
  | cons e es ih =>
    obtain ⟨s₁, hs₁, hrest⟩ := Option.bind_eq_some_iff.mp hrun
    exact ih (h.step trivial hs₁) hrest

/-- A simulation: every step is a step of the other system or is not seen there. -/
theorem ReachableVia.simulation {τ : Type w} {δ : Type x} {sys' : System τ δ} (f : σ → τ)
    (h : sys.ReachableVia ok s) (hinit : ∀ s, sys.init s → sys'.init (f s))
    (hstep : ∀ s e s', sys.Reachable s → ok s e → sys.step s e = some s' →
      f s' = f s ∨ ∃ e', sys'.step (f s) e' = some (f s')) : sys'.Reachable (f s) := by
  induction h with
  | init hs => exact .init (hinit _ hs)
  | @step s s' e hvia hok hs' ih =>
    have hreach := @ReachableVia.mono _ _ sys ok _ (fun _ _ => True) hvia fun _ _ _ => trivial
    rcases hstep s e s' hreach hok hs' with heq | ⟨e', hs''⟩
    · rw [heq]
      exact ih
    · exact ih.step trivial hs''

/-- A restriction that marks exactly the runs which go wrong: a step that keeps to it does not go
    wrong, one that does not keep to it does, and what went wrong stays so. -/
theorem Reachable.via_iff {Wrong : σ → Prop} (h : sys.Reachable s)
    (hinit : ∀ s, sys.init s → ¬Wrong s)
    (hkeeps : ∀ s e s', sys.Reachable s → ¬Wrong s → ok s e → sys.step s e = some s' → ¬Wrong s')
    (hbreaks : ∀ s e s', ¬ok s e → sys.step s e = some s' → Wrong s')
    (hstays : ∀ s e s', Wrong s → sys.step s e = some s' → Wrong s') :
    sys.ReachableVia ok s ↔ ¬Wrong s := by
  constructor
  · intro hvia
    induction hvia with
    | init hs => exact hinit _ hs
    | step hvia hok hstep ih =>
      have hreach := @ReachableVia.mono _ _ sys ok _ (fun _ _ => True) hvia fun _ _ _ => trivial
      exact hkeeps _ _ _ hreach (ih hreach) hok hstep
  · intro hright
    induction h with
    | init hs => exact .init hs
    | @step s s' e _ _ hstep ih =>
      have hright' : ¬Wrong s := fun hwrong => hright (hstays s e s' hwrong hstep)
      by_cases hok : ok s e
      · exact (ih hright').step hok hstep
      · exact absurd (hbreaks s e s' hok hstep) hright

/-- The runs that go on from a state. -/
def after (sys : System σ ε) (s : σ) : System σ ε where
  init := (· = s)
  step := sys.step

/-- What holds now, and every step that satisfies `ok` preserves, holds from now on. -/
theorem ReachableVia.after_invariant {P : σ → Prop} (h : (sys.after s).ReachableVia ok s')
    (hs : P s) (hstep : ∀ s e s', P s → ok s e → sys.step s e = some s' → P s') : P s' :=
  h.invariant (fun _ heq => heq ▸ hs) hstep

/-! ### The states and the steps of one run -/

/-- All states of a replay have the property. -/
def Always (sys : System σ ε) (P : σ → Prop) (s : σ) (es : List ε) : Prop :=
  ∀ es₁ s₁, es₁ <+: es → sys.run s es₁ = some s₁ → P s₁

/-- All steps of a replay satisfy the restriction. -/
def EveryStep (sys : System σ ε) (ok : σ → ε → Prop) (s : σ) (es : List ε) : Prop :=
  ∀ es₁ e s₁, es₁ ++ [e] <+: es → sys.run s es₁ = some s₁ → ok s₁ e

theorem run_append (es es' : List ε) :
    sys.run s (es ++ es') = (sys.run s es).bind fun s' => sys.run s' es' := by
  induction es generalizing s with
  | nil => rfl
  | cons e es ih =>
    rw [List.cons_append, run_cons, run_cons, Option.bind_assoc]
    exact congrArg _ (funext fun _ => ih)

theorem run_concat (es : List ε) (e : ε) :
    sys.run s (es ++ [e]) = (sys.run s es).bind fun s' => sys.step s' e := by
  rw [run_append]
  refine congrArg _ (funext fun s' => ?_)
  rw [run_cons]
  exact Option.bind_fun_some _

/-- What is said of a state together with the events that led to it. -/
theorem run_history {P : List ε → σ → Prop} {ok : ε → Prop} (hs : P [] s)
    (hstep : ∀ es s₁ e s₂, ok e → P es s₁ → sys.step s₁ e = some s₂ → P (es ++ [e]) s₂)
    {es : List ε} (hok : ∀ e ∈ es, ok e) (hrun : sys.run s es = some s') : P es s' := by
  -- Induction on the replay, from its end
  induction es using List.reverseRecOn generalizing s' with
  | nil =>
    cases hrun
    exact hs
  | append_singleton es e ih =>
    rw [run_concat] at hrun
    obtain ⟨s₁, hrun₁, hstep₁⟩ := Option.bind_eq_some_iff.mp hrun
    have hbefore := ih (fun e he => hok e (List.mem_append_left _ he)) hrun₁
    exact hstep es s₁ e s' (hok e (List.mem_append_right _ List.mem_cons_self)) hbefore hstep₁

/-- What holds initially, and is preserved by the steps of a replay, holds all the time. -/
theorem always_of_steps {Inv : σ → Prop} {es : List ε} (hinv : Inv s)
    (hstep : ∀ es₁ e s₁ s₂, es₁ ++ [e] <+: es → sys.run s es₁ = some s₁ → Inv s₁ →
      sys.step s₁ e = some s₂ → Inv s₂) : sys.Always Inv s es := by
  intro es₁ s₁ hprefix hrun
  -- Induction on the replay, from its end
  induction es₁ using List.reverseRecOn generalizing s₁ with
  | nil =>
    cases hrun
    exact hinv
  | append_singleton es₀ e ih =>
    rw [run_concat] at hrun
    obtain ⟨s₀, hrun₀, hstep₀⟩ := Option.bind_eq_some_iff.mp hrun
    have hinv₀ := ih s₀ ((List.prefix_append es₀ [e]).trans hprefix) hrun₀
    exact hstep es₀ e s₀ s₁ hprefix hrun₀ hinv₀ hstep₀

/-- A restriction under which an invariant holds, and that no step may miss: what follows from the
    invariant holds all the time exactly in the replays that keep to the restriction. -/
theorem always_iff_everyStep {Inv P : σ → Prop} {es : List ε} (hinv : Inv s)
    (hgood : ∀ s, Inv s → P s)
    (hkeeps : ∀ s e s', Inv s → ok s e → sys.step s e = some s' → Inv s')
    (hbreaks : ∀ s e s', Inv s → ¬ok s e → sys.step s e = some s' → ¬P s')
    (hrun : sys.run s es = some s') : sys.Always P s es ↔ sys.EveryStep ok s es := by
  constructor
  · intro halways
    -- a step that misses the restriction would show
    have hok : ∀ es₁ e s₁ s₂, es₁ ++ [e] <+: es → sys.run s es₁ = some s₁ → Inv s₁ →
        sys.step s₁ e = some s₂ → ok s₁ e := by
      intro es₁ e s₁ s₂ hprefix hrun₁ hinv₁ hstep
      by_contra hnot
      apply hbreaks s₁ e s₂ hinv₁ hnot hstep
      apply halways (es₁ ++ [e]) s₂ hprefix
      rw [run_concat, hrun₁, Option.bind_some, hstep]
    have halwaysInv : sys.Always Inv s es := always_of_steps hinv
      fun es₁ e s₁ s₂ hprefix hrun₁ hinv₁ hstep =>
        hkeeps s₁ e s₂ hinv₁ (hok es₁ e s₁ s₂ hprefix hrun₁ hinv₁ hstep) hstep
    intro es₁ e s₁ hprefix hrun₁
    obtain ⟨es₂, rfl⟩ := hprefix
    have hrun₂ := hrun
    rw [run_append, run_concat, hrun₁, Option.bind_some] at hrun₂
    obtain ⟨s₂, hstep, -⟩ := Option.bind_eq_some_iff.mp hrun₂
    have hprefix₁ : es₁ <+: es₁ ++ [e] ++ es₂ :=
      (List.prefix_append es₁ [e]).trans (List.prefix_append _ es₂)
    exact hok es₁ e s₁ s₂ (List.prefix_append _ es₂) hrun₁ (halwaysInv es₁ s₁ hprefix₁ hrun₁) hstep
  · intro hevery es₁ s₁ hprefix hrun₁
    apply hgood
    exact always_of_steps hinv (fun es₀ e s₀ s₂ hprefix₀ hrun₀ hinv₀ hstep =>
      hkeeps s₀ e s₂ hinv₀ (hevery es₀ e s₀ hprefix₀ hrun₀) hstep) es₁ s₁ hprefix hrun₁

theorem EveryStep.nil : sys.EveryStep ok s [] := by
  intro es₁ e s₁ hprefix
  exact absurd (List.prefix_nil.mp hprefix) (List.append_ne_nil_of_right_ne_nil es₁ (by simp))

/-- One more step in front. -/
theorem EveryStep.cons {e : ε} {es : List ε} (hok : ok s e) (hstep : sys.step s e = some s')
    (h : sys.EveryStep ok s' es) : sys.EveryStep ok s (e :: es) := by
  intro es₁ e₁ s₁ hprefix hrun
  cases es₁ with
  | nil =>
    obtain rfl : e₁ = e := (List.cons_prefix_cons.mp hprefix).1
    cases hrun
    exact hok
  | cons e₂ es₂ =>
    obtain ⟨rfl, hrest⟩ := List.cons_prefix_cons.mp hprefix
    rw [run_cons, hstep, Option.bind_some] at hrun
    exact h es₂ e₁ s₁ hrest hrun

/-! ### What can still happen -/

/-- Some replay from here ends in a state with `Q`. -/
def Can (sys : System σ ε) (Q : σ → Prop) (s : σ) : Prop :=
  ∃ es s', sys.run s es = some s' ∧ Q s'

theorem Can.now {Q : σ → Prop} (h : Q s) : sys.Can Q s := ⟨[], s, rfl, h⟩

/-- One more step in front. -/
theorem Can.step {Q : σ → Prop} (e : ε) (hstep : sys.step s e = some s') (h : sys.Can Q s') :
    sys.Can Q s := by
  obtain ⟨es, s₁, hrun, hq⟩ := h
  exact ⟨e :: es, s₁, by rw [run_cons, hstep, Option.bind_some, hrun], hq⟩

/-- From a first goal to a second one. -/
theorem Can.trans {P Q : σ → Prop} (h : sys.Can P s) (hnext : ∀ s', P s' → sys.Can Q s') :
    sys.Can Q s := by
  obtain ⟨es, s₁, hrun, hp⟩ := h
  obtain ⟨es', s₂, hrun', hq⟩ := hnext s₁ hp
  exact ⟨es ++ es', s₂, by rw [run_append, hrun, Option.bind_some, hrun'], hq⟩

/-- What all steps preserve and what excludes `Q` keeps it away for ever. -/
theorem Can.never {P Q : σ → Prop} (hstep : ∀ s e s', P s → sys.step s e = some s' → P s')
    (hexcludes : ∀ s, P s → ¬Q s) (hs : P s) : ¬sys.Can Q s := by
  rintro ⟨es, s', hrun, hq⟩
  exact hexcludes s' (sys.run_invariant hstep hs hrun) hq

end System

import DockerEngine.Native.State
import Mathlib.Data.Fintype.Basic

/-!
# Lost wake-ups in `Wait`

`Wait` tests `Running` before it takes the mutex. A waiter that has seen a running
container and is not asleep yet is in the window: a broadcast does not reach it. If no
waiter is in the window when `setStopped` broadcasts, then from there on nobody falls
asleep any more (`Settled`); if one is, it can sleep for ever.

- `no_lost_wakeup`: the runs in which the window is empty at that broadcast
- `window_loses`: a waiter in the window at that broadcast can be lost
- `lost_wakeup`: a run that loses its only waiter
-/

namespace Docker

variable {ι : Type u} [DecidableEq ι]

/-- Between a test of `Running` that was true and falling asleep. -/
def Waiting.InWindow (s : Waiting ι) (i : ι) : Prop :=
  s.waitPc i = .lock ∨ s.waitPc i = .enqueue

/-- `setStopped` is finished, the container is not running, and someone still sleeps. -/
def Waiting.Lost (s : Waiting ι) (i : ι) : Prop :=
  s.changes = [] ∧ s.state.running = false ∧ Thread.waiter i ∈ s.cond.sleeping

/-- The setter is about to do the broadcast of `setStopped`. -/
def Waiting.stopping (s : Waiting ι) : Bool :=
  match s.changes, s.setterPc with
  | [.setStopped _], .broadcast => true
  | _, _ => false

/-- When `setStopped` broadcasts, nobody is in the window. -/
def WindowClosed (s : Waiting ι) : Thread ι → Prop
  | .setter => s.stopping = true → ∀ i, ¬s.InWindow i
  | .waiter _ => True

instance [Fintype ι] (s : Waiting ι) (t : Thread ι) : Decidable (WindowClosed s t) :=
  match t with
  | .setter => inferInstanceAs (Decidable (s.stopping = true →
      ∀ i, ¬(s.waitPc i = .lock ∨ s.waitPc i = .enqueue)))
  | .waiter _ => inferInstanceAs (Decidable True)

/-! ## What a step does -/

/-- The steps of a waiter: where it is then, and what they do to the mutex and the condition. -/
inductive Waiting.Waits (s : Waiting ι) (i : ι) : WaitPc → Cond (Thread ι) → Prop where
  | running (hpc : s.waitPc i = .test) (hrun : s.state.running = true) : Waits s i .lock s.cond
  | stopped (hpc : s.waitPc i = .test) (hrun : s.state.running = false) : Waits s i .ret s.cond
  | lock (hpc : s.waitPc i = .lock) (hfree : s.cond.owner = none) :
      Waits s i .enqueue ⟨some (.waiter i), s.cond.sleeping⟩
  | sleep (hpc : s.waitPc i = .enqueue) (hmine : s.cond.owner = some (.waiter i)) :
      Waits s i .asleep ⟨none, s.cond.sleeping ++ [.waiter i]⟩
  | wake (hpc : s.waitPc i = .asleep) (hfree : s.cond.owner = none)
      (hawake : .waiter i ∉ s.cond.sleeping) :
      Waits s i .unlock ⟨some (.waiter i), s.cond.sleeping⟩
  | unlock (hpc : s.waitPc i = .unlock) (hmine : s.cond.owner = some (.waiter i)) :
      Waits s i .test ⟨none, s.cond.sleeping⟩
  | ret (hpc : s.waitPc i = .ret) : Waits s i (.done s.state.exitCode) s.cond

theorem waitStep_cases {s s' : Waiting ι} {i : ι} (h : s.waitStep i = some s') :
    ∃ pc cond, s' = s.goto i pc cond ∧ s.Waits i pc cond := by
  unfold Waiting.waitStep at h
  cases hpc : s.waitPc i with
  | test =>
    simp only [hpc] at h
    split at h
    · next hrun =>
      cases h
      exact ⟨_, _, rfl, .running hpc hrun⟩
    · next hrun =>
      cases h
      exact ⟨_, _, rfl, .stopped hpc (Bool.eq_false_iff.mpr hrun)⟩
  | lock =>
    simp only [hpc, Option.map_eq_some_iff] at h
    obtain ⟨cond, hcond, rfl⟩ := h
    obtain ⟨hown, rfl⟩ := Cond.lock_eq_some hcond
    exact ⟨_, _, rfl, .lock hpc hown⟩
  | enqueue =>
    simp only [hpc, Option.map_eq_some_iff] at h
    obtain ⟨cond, hcond, rfl⟩ := h
    obtain ⟨hown, rfl⟩ := Cond.wait_eq_some hcond
    exact ⟨_, _, rfl, .sleep hpc hown⟩
  | asleep =>
    simp only [hpc, Option.map_eq_some_iff] at h
    obtain ⟨cond, hcond, rfl⟩ := h
    obtain ⟨hawake, hown, rfl⟩ := Cond.wake_eq_some hcond
    exact ⟨_, _, rfl, .wake hpc hown hawake⟩
  | unlock =>
    simp only [hpc, Option.map_eq_some_iff] at h
    obtain ⟨cond, hcond, rfl⟩ := h
    obtain ⟨hown, rfl⟩ := Cond.unlock_eq_some hcond
    exact ⟨_, _, rfl, .unlock hpc hown⟩
  | ret =>
    simp only [hpc] at h
    cases h
    exact ⟨_, _, rfl, .ret hpc⟩
  | done code =>
    simp only [hpc] at h
    simp at h

/-- The steps of the setter, in the first of its calls. -/
inductive Waiting.Sets (s : Waiting ι) (change : Change) (changes : List Change) :
    Waiting ι → Prop where
  | write (hpc : s.setterPc = .write) :
      Sets s change changes { s with state := change.apply s.state, setterPc := .lock }
  | lock (hpc : s.setterPc = .lock) (hfree : s.cond.owner = none) :
      Sets s change changes
        { s with cond := ⟨some .setter, s.cond.sleeping⟩, setterPc := .broadcast }
  | broadcast (hpc : s.setterPc = .broadcast) :
      Sets s change changes { s with cond := ⟨s.cond.owner, []⟩, setterPc := .unlock }
  | unlock (hpc : s.setterPc = .unlock) (hmine : s.cond.owner = some .setter) :
      Sets s change changes
        { s with cond := ⟨none, s.cond.sleeping⟩, changes, setterPc := .write }

theorem setterStep_cases {s s' : Waiting ι} (h : s.setterStep = some s') :
    ∃ change changes, s.changes = change :: changes ∧ s.Sets change changes s' := by
  unfold Waiting.setterStep at h
  split at h
  · simp at h
  · next change changes hc hpc =>
    cases h
    exact ⟨_, _, hc, .write hpc⟩
  · next change changes hc hpc =>
    obtain ⟨cond, hcond, rfl⟩ := Option.map_eq_some_iff.mp h
    obtain ⟨hown, rfl⟩ := Cond.lock_eq_some hcond
    exact ⟨change, _, hc, .lock hpc hown⟩
  · next change changes hc hpc =>
    cases h
    exact ⟨change, _, hc, .broadcast hpc⟩
  · next change changes hc hpc =>
    obtain ⟨cond, hcond, rfl⟩ := Option.map_eq_some_iff.mp h
    obtain ⟨hown, rfl⟩ := Cond.unlock_eq_some hcond
    exact ⟨change, _, hc, .unlock hpc hown⟩

/-! ## After the last broadcast -/

/-- The container is not running, nobody sleeps, and nobody is about to. -/
structure Waiting.Settled (s : Waiting ι) : Prop where
  stopped : s.state.running = false
  awake : s.cond.sleeping = []
  closed : ∀ i, ¬s.InWindow i

theorem Waiting.Settled.waitStep {s s' : Waiting ι} {i : ι} (hs : s.Settled)
    (h : s.waitStep i = some s') : s'.Settled := by
  obtain ⟨pc, cond, rfl, hcase⟩ := waitStep_cases h
  have hclosed := hs.closed i
  -- the only way into the window is a test that found the container running
  have hnew : cond.sleeping = [] ∧ pc ≠ .lock ∧ pc ≠ .enqueue := by
    cases hcase with
    | running _ hrun =>
      rw [hs.stopped] at hrun
      simp at hrun
    | lock hpc => exact absurd (.inl hpc) hclosed
    | sleep hpc => exact absurd (.inr hpc) hclosed
    | stopped | wake | unlock | ret => exact ⟨hs.awake, by simp⟩
  refine ⟨hs.stopped, hnew.1, fun j => ?_⟩
  by_cases hj : j = i
  · subst hj
    simpa [Waiting.InWindow, Waiting.goto] using hnew.2
  · have hj' := hs.closed j
    simpa [Waiting.InWindow, Waiting.goto, hj] using hj'

/-! ## The invariant -/

/-- Who holds the mutex, and how far the run has come. -/
structure Waiting.Inv (s : Waiting ι) : Prop where
  enqueueing : ∀ i, s.waitPc i = .enqueue → s.cond.owner = some (.waiter i)
  progress :
    (∃ pid exitCode, s.changes = [.setRunning pid, .setStopped exitCode]) ∨
    (∃ exitCode, s.changes = [.setStopped exitCode] ∧
      (s.setterPc ≠ .write → s.state.running = false) ∧ (s.setterPc = .unlock → s.Settled)) ∨
    (s.changes = [] ∧ s.Settled)

omit [DecidableEq ι] in
theorem Waiting.Inv.start (pid exitCode : Int) : (Waiting.start (ι := ι) pid exitCode).Inv :=
  ⟨fun _ h => (nomatch h), .inl ⟨pid, exitCode, rfl⟩⟩

theorem Waiting.Inv.waitStep {s s' : Waiting ι} {i : ι} (hs : s.Inv)
    (h : s.waitStep i = some s') : s'.Inv := by
  have hsettled : s.Settled → s'.Settled := fun hset => hset.waitStep h
  obtain ⟨pc, cond, rfl, hcase⟩ := waitStep_cases h
  refine ⟨fun j hj => ?_, ?_⟩
  · by_cases hji : j = i
    · subst hji
      -- only taking the mutex leads to `enqueue`
      have hpc : pc = .enqueue := by simpa [Waiting.goto] using hj
      subst hpc
      cases hcase with
      | lock => rfl
    · -- another waiter holds the mutex, so `i` cannot have taken or released it
      have hown := hs.enqueueing j (by simpa [Waiting.goto, hji] using hj)
      have hne : s.cond.owner ≠ some (.waiter i) := by
        rw [hown]
        simp [hji]
      have hsome : s.cond.owner ≠ none := by
        rw [hown]
        simp
      cases hcase with
      | running | stopped | ret => exact hown
      | lock _ hfree => exact absurd hfree hsome
      | sleep _ hmine => exact absurd hmine hne
      | wake _ hfree => exact absurd hfree hsome
      | unlock _ hmine => exact absurd hmine hne
  · rcases hs.progress with hrun | ⟨exitCode, hc, hrun, hset⟩ | ⟨hc, hset⟩
    · exact .inl hrun
    · exact .inr (.inl ⟨exitCode, hc, hrun, fun hpc => hsettled (hset hpc)⟩)
    · exact .inr (.inr ⟨hc, hsettled hset⟩)

theorem Waiting.Inv.setterStep {s s' : Waiting ι} (hs : s.Inv) (hok : WindowClosed s .setter)
    (h : s.setterStep = some s') : s'.Inv := by
  obtain ⟨change, changes, hc, hcase⟩ := setterStep_cases h
  have henq : ∀ i, s'.waitPc i = .enqueue → s'.cond.owner = some (.waiter i) := by
    intro i hi
    cases hcase with
    | write | broadcast => exact hs.enqueueing i hi
    -- whoever is about to enqueue holds the mutex, so the setter cannot take or release it
    | lock _ hfree =>
      rw [hs.enqueueing i hi] at hfree
      simp at hfree
    | unlock _ hmine =>
      rw [hs.enqueueing i hi] at hmine
      simp at hmine
  refine ⟨henq, ?_⟩
  rcases hs.progress with ⟨pid, exitCode, hc'⟩ | ⟨exitCode, hc', hrun, hset⟩ | ⟨hc', -⟩
  · -- still in `setRunning`, or just done with it
    rw [hc'] at hc
    cases hc
    cases hcase with
    | write | lock | broadcast => exact .inl ⟨pid, exitCode, hc'⟩
    | unlock => exact .inr (.inl ⟨exitCode, rfl, fun h => absurd rfl h, fun h => nomatch h⟩)
  · rw [hc'] at hc
    cases hc
    cases hcase with
    | write => exact .inr (.inl ⟨exitCode, hc', fun _ => rfl, fun h => nomatch h⟩)
    | lock hpc =>
      -- the fields were written before
      have hstop := hrun (by rw [hpc]; simp)
      exact .inr (.inl ⟨exitCode, hc', fun _ => hstop, fun h => nomatch h⟩)
    | broadcast hpc =>
      -- everyone asleep is woken, and the window is empty
      have hstop := hrun (by rw [hpc]; simp)
      exact .inr (.inl ⟨exitCode, hc', fun _ => hstop,
        fun _ => ⟨hstop, rfl, hok (by simp [Waiting.stopping, hc', hpc])⟩⟩)
    | unlock hpc =>
      -- from now on nothing changes
      have hsettled := hset hpc
      exact .inr (.inr ⟨rfl, hsettled.stopped, hsettled.awake, hsettled.closed⟩)
  · rw [hc'] at hc
    simp at hc

/-! ## All interleavings -/

/-- In every interleaving of a run with any number of waiters in which no waiter is in
    the window when `setStopped` broadcasts, nobody is left asleep once it is finished. -/
theorem no_lost_wakeup {s : Waiting ι} (h : (waitSystem ι).ReachableVia WindowClosed s) (i : ι) :
    ¬s.Lost i := by
  have hinv : s.Inv := by
    refine h.invariant (fun s₀ h₀ => ?_) (fun s₁ t s₂ hs hok hstep => ?_)
    · obtain ⟨pid, exitCode, rfl⟩ := h₀
      exact Waiting.Inv.start pid exitCode
    · cases t with
      | setter => exact hs.setterStep hok hstep
      | waiter j => exact hs.waitStep hstep
  rintro ⟨hc, -, hmem⟩
  rcases hinv.progress with ⟨pid, exitCode, hc'⟩ | ⟨exitCode, hc', -⟩ | ⟨-, hset⟩
  · rw [hc] at hc'
    simp at hc'
  · rw [hc] at hc'
    simp at hc'
  · rw [hset.awake] at hmem
    exact absurd hmem (List.not_mem_nil)

/-- A waiter that falls asleep in time and is woken. -/
theorem no_lost_wakeup_pair :
    ∃ s, (waitSystem (Fin 2)).ReachableVia WindowClosed s ∧ s.changes = [] ∧
      s.waitPc 0 = .done 3 ∧ s.waitPc 1 = .asleep ∧ ¬s.Lost 1 := by
  have hinit : (waitSystem (Fin 2)).ReachableVia WindowClosed (Waiting.start 7 3) :=
    .init ⟨7, 3, rfl⟩
  have hreach := hinit.runVia [.setter, .setter, .setter, .setter, .waiter 1, .waiter 1,
    .waiter 1, .setter, .waiter 0, .waiter 0, .setter, .setter, .setter] rfl
  exact ⟨_, hreach, rfl, rfl, rfl, no_lost_wakeup hreach 1⟩

/-- If a waiter is in the window when `setStopped` broadcasts, then it is lost as soon as
    the setter and this waiter go on. -/
theorem window_loses {s : Waiting ι} {i : ι} {exitCode : Int}
    (hc : s.changes = [.setStopped exitCode]) (hpc : s.setterPc = .broadcast)
    (hstop : s.state.running = false) (hown : s.cond.owner = some .setter)
    (hi : s.waitPc i = .lock) :
    ∃ s', (waitSystem ι).run s [.setter, .setter, .waiter i, .waiter i] = some s' ∧ s'.Lost i := by
  obtain ⟨state, ⟨owner, sleeping⟩, changes, setterPc, waitPc⟩ := s
  simp only at hc hpc hstop hown hi
  subst hc hpc hown
  refine ⟨⟨state, ⟨none, [.waiter i]⟩, [], .write,
    Function.update (Function.update waitPc i .enqueue) i .asleep⟩, ?_,
    rfl, hstop, List.mem_singleton_self _⟩
  simp [System.run, waitSystem, Waiting.step, Waiting.setterStep, Waiting.waitStep, Waiting.goto,
    Cond.broadcast, Cond.unlock, Cond.lock, Cond.wait, hi]

/-- A lost waiter sleeps for ever: no step of anyone wakes it. -/
theorem Waiting.Lost.forever {s s' : Waiting ι} {i : ι} {ts : List (Thread ι)} (hs : s.Lost i)
    (hrun : (waitSystem ι).run s ts = some s') : s'.Lost i := by
  refine System.run_invariant _ (P := fun s => s.Lost i) (fun s₁ t s₂ hs hstep => ?_) hs hrun
  obtain ⟨hc, hstop, hmem⟩ := hs
  cases t with
  | setter =>
    obtain ⟨change, changes, hc', -⟩ := setterStep_cases hstep
    rw [hc] at hc'
    simp at hc'
  | waiter j =>
    obtain ⟨pc, cond, rfl, hcase⟩ := waitStep_cases hstep
    refine ⟨hc, hstop, ?_⟩
    show Thread.waiter i ∈ cond.sleeping
    cases hcase with
    | sleep => exact List.mem_append_left _ hmem
    | running | stopped | lock | wake | unlock | ret => exact hmem

/-- The only waiter tests `Running`, the container stops, and then the waiter goes to sleep. -/
theorem lost_wakeup :
    ∃ s, (waitSystem Unit).Reachable s ∧ s.Lost () ∧
      (waitSystem Unit).run (Waiting.start 7 0)
        [.setter, .setter, .setter, .setter, .waiter (), .setter, .setter, .setter, .setter,
          .waiter (), .waiter ()] = some s := by
  have hinit : (waitSystem Unit).Reachable (Waiting.start 7 0) := .init ⟨7, 0, rfl⟩
  have hreach := hinit.run [.setter, .setter, .setter, .setter, .waiter (), .setter,
    .setter, .setter, .setter, .waiter (), .waiter ()] rfl
  exact ⟨_, hreach, ⟨rfl, rfl, List.mem_singleton_self _⟩, rfl⟩

end Docker

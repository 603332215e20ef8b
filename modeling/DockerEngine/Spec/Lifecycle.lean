import DockerEngine.Native.Lifecycle
import DockerEngine.ForStd.List

/-!
# One monitor at a time

`Start` never looks at `Running`. If it gets past `allocateNetwork` only while the
container is not running and no other `Start` is past it, then at most one thread at a
time is busy: a `Start` past that point, or a monitor that has not reported back yet
(`setStopped`). The network and `Running` belong to the busy thread.

- `one_monitor`: all runs in which `allocateNetwork` succeeds under that condition only
- `two_monitors`: a run with a second `Start`, in which a monitor finds no network
-/

namespace Docker.Lifecycle

/-! ## Busy threads -/

/-- Past `allocateNetwork`. -/
def StartPc.inFlight : StartPc → Bool
  | .ensureMounted | .allocateNetwork => false
  | _ => true

/-- The container was marked as running. -/
def StartPc.marked : StartPc → Bool
  | .save | .goMonitor => true
  | _ => false

/-- A monitor that has not reported back. -/
def MonitorPc.unfinished : MonitorPc → Bool
  | .save => false
  | _ => true

/-- The network is still to be released. -/
def MonitorPc.connected : MonitorPc → Bool
  | .cmdWait | .waiting _ | .exitStatus | .networkRelease => true
  | _ => false

def Pc.inFlight : Pc → Bool
  | .start pc => pc.inFlight
  | _ => false

def Pc.unfinished : Pc → Bool
  | .monitor pc => pc.unfinished
  | _ => false

def Pc.busy (pc : Pc) : Bool := pc.inFlight || pc.unfinished

/-- The thread relies on `Running`. -/
def Pc.marked : Pc → Bool
  | .start pc => pc.marked
  | .monitor pc => pc.unfinished
  | _ => false

/-- The thread relies on `container.network`. -/
def Pc.connected : Pc → Bool
  | .start pc => pc.inFlight
  | .monitor pc => pc.connected
  | _ => false

theorem Pc.busy_of_marked {pc : Pc} (h : pc.marked = true) : pc.busy = true := by
  cases pc with
  | start pc => cases pc <;> first | rfl | cases h
  | monitor pc => exact h
  | stop pc => cases h
  | done => cases h

theorem Pc.busy_of_connected {pc : Pc} (h : pc.connected = true) : pc.busy = true := by
  cases pc with
  | start pc => cases pc <;> first | rfl | cases h
  | monitor pc => cases pc <;> first | rfl | cases h
  | stop pc => cases h
  | done => cases h

theorem afterStop_not_busy (a : AfterStop) : a.pc.busy = false := by
  cases a <;> rfl

theorem killCaller_not_busy (c : KillCaller) : c.pc.busy = false := by
  cases c with
  | client => rfl
  | lxcKillFailed a => rfl
  | timedOut a => exact afterStop_not_busy a

/-! ## The invariant -/

/-- What a busy thread relies on. -/
def Life.Supports (s : Life) (pc : Pc) : Prop :=
  (pc.marked = true → s.running = true) ∧ (pc.connected = true → s.network ≠ none)

theorem Life.supports_idle (s : Life) {pc : Pc} (h : pc.busy = false) : s.Supports pc := by
  constructor
  · intro hm
    rw [Pc.busy_of_marked hm] at h
    simp at h
  · intro hc
    rw [Pc.busy_of_connected hc] at h
    simp at h

/-- At most one thread is busy, and it finds what it relies on. -/
structure Life.Inv (s : Life) : Prop where
  single : s.threads.countP Pc.busy ≤ 1
  supported : ∀ pc ∈ s.threads, s.Supports pc

/-- The condition: the network of a `Start` is allocated only while the container is not
    running and no other `Start` is past its own allocation. -/
def AllocatesIdle (s : Life) : Event → Prop
  | .step k true => s.threads[k]? = some (.start .allocateNetwork) →
      s.running = false ∧ ∀ pc ∈ s.threads, pc.inFlight = false
  | _ => True

instance (s : Life) (e : Event) : Decidable (AllocatesIdle s e) :=
  match e with
  | .step k true => inferInstanceAs (Decidable (s.threads[k]? = some (.start .allocateNetwork) →
      s.running = false ∧ ∀ pc ∈ s.threads, pc.inFlight = false))
  | .step _ false | .request _ | .exit _ => inferInstanceAs (Decidable True)

section

variable {s s' : Life} {k : Nat} {pc pc' : Pc}

/-- A thread that is not busy after its step, and changed neither network nor `Running`. -/
theorem Life.Inv.idle (hs : s.Inv) (pc' : Pc) (hk : s.threads[k]? = some pc)
    (hpc' : pc'.busy = false) (hthreads : s'.threads = s.threads.set k pc')
    (hnet : s'.network = s.network) (hrun : s'.running = s.running) : s'.Inv := by
  constructor
  -- the count goes down by the old thread, if that was busy
  · have hcount := List.countP_set_add (p := Pc.busy) (b := pc') hk
    have hle := hs.single
    rw [hpc'] at hcount
    rw [hthreads]
    simp only [Bool.false_eq_true, if_false] at hcount
    omega
  · intro q hq
    rw [hthreads] at hq
    rcases List.mem_or_eq_of_mem_set hq with hq | rfl
    · have hsup := hs.supported q hq
      exact ⟨fun h => hrun ▸ hsup.1 h, fun h => hnet ▸ hsup.2 h⟩
    · exact s'.supports_idle hpc'

/-- The busy thread may change network and `Running` as its next step needs them. -/
theorem Life.Inv.busy (hs : s.Inv) (pc' : Pc) (hk : s.threads[k]? = some pc) (hpc : pc.busy = true)
    (hthreads : s'.threads = s.threads.set k pc') (hsup : s'.Supports pc') : s'.Inv := by
  constructor
  -- one busy thread is replaced, so the count does not go up
  · have hcount := List.countP_set_add (p := Pc.busy) (b := pc') hk
    have hle := hs.single
    rw [hpc] at hcount
    rw [hthreads]
    simp only [if_true] at hcount
    split at hcount <;> omega
  · intro q hq
    rw [hthreads] at hq
    -- the busy thread was the only one, so the others rely on nothing
    rcases List.eq_or_not_of_mem_set hs.single hk hpc hq with rfl | hq
    · exact hsup
    · exact s'.supports_idle hq

/-- The thread that becomes busy when nobody is. -/
theorem Life.Inv.enter (hidle : ∀ q ∈ s.threads, q.busy = false) (hk : s.threads[k]? = some pc)
    (hthreads : s'.threads = s.threads.set k pc') (hsup : s'.Supports pc') : s'.Inv := by
  constructor
  -- nobody was busy: the new thread is the only one
  · have hcount := List.countP_set_add (p := Pc.busy) (b := pc') hk
    have hzero : s.threads.countP Pc.busy = 0 :=
      List.countP_eq_zero.mpr fun q hq => Bool.eq_false_iff.mp (hidle q hq)
    rw [hzero] at hcount
    rw [hthreads]
    split at hcount <;> split at hcount <;> omega
  · intro q hq
    rw [hthreads] at hq
    rcases List.mem_or_eq_of_mem_set hq with hq | rfl
    · exact s'.supports_idle (hidle q hq)
    · exact hsup

theorem Life.Inv.crash (hs : s.Inv) : s.crash.Inv := ⟨hs.single, hs.supported⟩

/-! ## Every step keeps it -/

theorem Life.Inv.startStep {pc : StartPc} {ok : Bool} (hs : s.Inv)
    (hk : s.threads[k]? = some (.start pc)) (hok : AllocatesIdle s (.step k ok)) :
    (s.startStep k ok pc).Inv := by
  have hmem := List.mem_of_getElem? hk
  have hsup := hs.supported _ hmem
  cases pc with
  | ensureMounted =>
    refine hs.idle (if ok then .start .allocateNetwork else .done) hk ?_ rfl rfl rfl
    cases ok <;> rfl
  | allocateNetwork =>
    cases ok with
    | false => exact hs.idle _ hk rfl rfl rfl rfl
    | true =>
      -- not running, so no monitor is at work, and no `Start` is in flight
      obtain ⟨hrun, hflight⟩ := hok hk
      have hidle : ∀ q ∈ s.threads, q.busy = false := by
        intro q hq
        have hunf : q.unfinished = false := by
          cases q with
          | monitor q =>
            refine Bool.eq_false_iff.mpr fun h => ?_
            have := (hs.supported _ hq).1 h
            rw [hrun] at this
            simp at this
          | start q => rfl
          | stop q => rfl
          | done => rfl
        rw [Pc.busy, hflight q hq, hunf]
        rfl
      exact Life.Inv.enter hidle hk rfl ⟨fun h => (nomatch h), fun _ => Option.some_ne_none _⟩
  | generateLXCConfig =>
    refine hs.busy (if ok then .start .gateway else .done) hk rfl rfl ?_
    cases ok with
    | false => exact Life.supports_idle _ rfl
    | true => exact ⟨fun h => (nomatch h), fun _ => hsup.2 rfl⟩
  | gateway =>
    simp only [Life.startStep]
    split
    · exact hs.busy _ hk rfl rfl ⟨fun h => (nomatch h), fun _ => hsup.2 rfl⟩
    · exact hs.crash
  | newCmd => exact hs.busy _ hk rfl rfl ⟨fun h => (nomatch h), fun _ => hsup.2 rfl⟩
  | startCmd =>
    simp only [Life.startStep]
    split
    · split
      · exact hs.busy _ hk rfl rfl ⟨fun h => (nomatch h), fun _ => hsup.2 rfl⟩
      · exact hs.busy _ hk rfl rfl (Life.supports_idle _ rfl)
    · exact hs.crash
  | setRunning =>
    simp only [Life.startStep]
    split
    · split
      · exact hs.busy _ hk rfl rfl ⟨fun _ => rfl, fun _ => hsup.2 rfl⟩
      · exact hs.crash
    · exact hs.crash
  | save => exact hs.busy _ hk rfl rfl ⟨fun _ => hsup.1 rfl, fun _ => hsup.2 rfl⟩
  | goMonitor =>
    -- the busy thread ends, and the monitor it leaves behind is the busy one
    have hmid : (s.goto k .done).Inv := hs.busy _ hk rfl rfl (Life.supports_idle _ rfl)
    have hcount := List.countP_set_add (p := Pc.busy) (b := Pc.done) hk
    have hle := hs.single
    have hbusy : (Pc.start .goMonitor).busy = true := rfl
    have hdone : Pc.done.busy = false := rfl
    have hwait : (Pc.monitor .cmdWait).busy = true := rfl
    constructor
    · show (s.threads.set k .done ++ [Pc.monitor .cmdWait]).countP Pc.busy ≤ 1
      simp only [List.countP_append, List.countP_cons, List.countP_nil, hbusy, hdone, hwait,
        Bool.false_eq_true, if_true, if_false] at hcount ⊢
      omega
    · intro q hq
      rcases List.mem_append.mp hq with hq | hq
      · exact hmid.supported q hq
      · rw [List.mem_singleton.mp hq]
        exact ⟨fun _ => hsup.1 rfl, fun _ => hsup.2 rfl⟩

theorem Life.Inv.monitorStep {pc : MonitorPc} (hs : s.Inv)
    (hk : s.threads[k]? = some (.monitor pc)) (hstep : s.monitorStep k pc = some s') : s'.Inv := by
  have hsup := hs.supported _ (List.mem_of_getElem? hk)
  cases pc with
  | cmdWait =>
    simp only [Life.monitorStep] at hstep
    split at hstep
    · split at hstep
      · cases hstep
        exact hs.busy _ hk rfl rfl ⟨fun _ => hsup.1 rfl, fun _ => hsup.2 rfl⟩
      · cases hstep
        exact hs.busy _ hk rfl rfl ⟨fun _ => hsup.1 rfl, fun _ => hsup.2 rfl⟩
    · cases hstep
      exact hs.crash
  | waiting c =>
    simp only [Life.monitorStep] at hstep
    split at hstep
    · split at hstep
      · cases hstep
        exact hs.busy _ hk rfl rfl ⟨fun _ => hsup.1 rfl, fun _ => hsup.2 rfl⟩
      · simp at hstep
    · simp at hstep
  | exitStatus =>
    simp only [Life.monitorStep] at hstep
    split at hstep
    · split at hstep
      · cases hstep
        exact hs.busy _ hk rfl rfl ⟨fun _ => hsup.1 rfl, fun _ => hsup.2 rfl⟩
      · cases hstep
        exact hs.crash
    · cases hstep
      exact hs.crash
  | networkRelease =>
    simp only [Life.monitorStep] at hstep
    split at hstep
    · cases hstep
      exact hs.busy _ hk rfl rfl ⟨fun _ => hsup.1 rfl, fun h => nomatch h⟩
    · cases hstep
      exact hs.crash
  | networkClear =>
    cases hstep
    exact hs.busy _ hk rfl rfl ⟨fun _ => hsup.1 rfl, fun h => nomatch h⟩
  | closeStreams =>
    cases hstep
    exact hs.busy _ hk rfl rfl ⟨fun _ => hsup.1 rfl, fun h => nomatch h⟩
  | umount =>
    cases hstep
    exact hs.busy _ hk rfl rfl ⟨fun _ => hsup.1 rfl, fun h => nomatch h⟩
  | newStdin =>
    cases hstep
    exact hs.busy _ hk rfl rfl ⟨fun _ => hsup.1 rfl, fun h => nomatch h⟩
  | setStopped =>
    -- the monitor reports back and is not busy any more
    cases hstep
    exact hs.busy _ hk rfl rfl (Life.supports_idle _ rfl)
  | save =>
    cases hstep
    exact hs.idle _ hk rfl rfl rfl rfl

theorem Life.Inv.stopStep {pc : StopPc} {ok : Bool} (hs : s.Inv)
    (hk : s.threads[k]? = some (.stop pc)) (hstep : s.stopStep k ok pc = some s') : s'.Inv := by
  cases pc with
  -- a thread that stops a container is never the busy one
  | stop a =>
    cases hstep
    refine hs.idle (if s.running then .stop (.lxcKill a) else a.pc) hk ?_ rfl rfl rfl
    split
    · rfl
    · exact afterStop_not_busy a
  | lxcKill a =>
    cases hstep
    refine hs.idle
      (if ok then .stop (.waitTimeout a) else .stop (.kill (.lxcKillFailed a))) hk ?_
      rfl rfl rfl
    cases ok <;> rfl
  | waitTimeout a =>
    simp only [Life.stopStep] at hstep
    split at hstep
    · split at hstep
      · simp at hstep
      · cases hstep
        exact hs.idle _ hk (afterStop_not_busy a) rfl rfl rfl
    · cases hstep
      exact hs.idle _ hk rfl rfl rfl rfl
  | kill c =>
    cases hstep
    refine hs.idle (if s.running then .stop (.processKill c) else c.pc) hk ?_ rfl rfl rfl
    split
    · rfl
    · exact killCaller_not_busy c
  | processKill c =>
    simp only [Life.stopStep] at hstep
    split at hstep
    · split at hstep
      · cases hstep
        refine hs.idle (if ok then .stop (.wait c) else .done) hk ?_ rfl rfl rfl
        cases ok <;> rfl
      · cases hstep
        exact hs.crash
    · cases hstep
      exact hs.crash
  | wait c =>
    simp only [Life.stopStep] at hstep
    split at hstep
    · simp at hstep
    · cases hstep
      exact hs.idle _ hk (killCaller_not_busy c) rfl rfl rfl

theorem request_not_busy (r : Request) : r.pc.busy = false := by
  cases r <;> rfl

theorem Life.Inv.step {e : Event} (hs : s.Inv) (hok : AllocatesIdle s e)
    (hstep : s.step e = some s') : s'.Inv := by
  unfold Life.step at hstep
  split at hstep
  · simp at hstep
  cases e with
  | request r =>
    cases hstep
    constructor
    · show (s.threads ++ [r.pc]).countP Pc.busy ≤ 1
      simpa [List.countP_append, List.countP_cons, request_not_busy r] using hs.single
    · intro q hq
      rcases List.mem_append.mp hq with hq | hq
      · exact hs.supported q hq
      · rw [List.mem_singleton.mp hq]
        exact Life.supports_idle _ (request_not_busy r)
  | exit c =>
    simp only at hstep
    split at hstep
    · split at hstep
      · cases hstep
        exact ⟨hs.single, hs.supported⟩
      · simp at hstep
    · simp at hstep
  | step k ok =>
    obtain ⟨pc, hk, hstep⟩ := Option.bind_eq_some_iff.mp hstep
    cases pc with
    | start pc =>
      cases hstep
      exact hs.startStep hk hok
    | monitor pc => exact hs.monitorStep hk hstep
    | stop pc => exact hs.stopStep hk hstep
    | done => cases hstep

end

/-! ## All runs -/

/-- In every run in which a `Start` gets past `allocateNetwork` only while the container
    is not running and no other `Start` is past it: at most one monitor has not reported
    back, and a monitor that reaches the release of the network finds one. -/
theorem one_monitor {s : Life} (h : lifeSystem.ReachableVia AllocatesIdle s) :
    s.threads.countP Pc.unfinished ≤ 1 ∧
    (.monitor .networkRelease ∈ s.threads → s.network ≠ none) := by
  have hinv : s.Inv := by
    -- a fresh container has no threads
    refine h.invariant (fun s₀ h₀ => ?_) (fun _ _ _ hs hok hstep => hs.step hok hstep)
    rw [show s₀ = Life.fresh from h₀]
    exact ⟨Nat.zero_le _, fun pc hpc => absurd hpc (List.not_mem_nil)⟩
  constructor
  -- an unfinished monitor is busy
  · have hle : s.threads.countP Pc.unfinished ≤ s.threads.countP Pc.busy := by
      apply List.countP_mono_left
      intro pc _ hpc
      rw [Pc.busy, hpc, Bool.or_true]
    exact Nat.le_trans hle hinv.single
  · intro hmem
    exact (hinv.supported _ hmem).2 rfl

/-- A whole `Start` of thread `k`. -/
def startEvents (k : Nat) : List Event := List.replicate 9 (.step k true)

/-- Two runs of the container, one after the other. -/
theorem one_monitor_restarted :
    ∃ s, lifeSystem.ReachableVia AllocatesIdle s ∧ s.cmds.length = 2 ∧ s.running = true ∧
      s.threads.countP Pc.unfinished ≤ 1 := by
  have hinit : lifeSystem.ReachableVia AllocatesIdle Life.fresh := .init rfl
  have hreach := hinit.runVia
    (.request .start :: startEvents 0 ++ [.step 1 true, .exit 0] ++
      List.replicate 9 (.step 1 true) ++ .request .start :: startEvents 2) rfl
  exact ⟨_, hreach, rfl, rfl, (one_monitor hreach).1⟩

/-- A second `Start` of a running container: two monitors wait, the second one takes the
    network away, and the first one reaches its release without a network. -/
theorem two_monitors :
    ∃ s, lifeSystem.Reachable s ∧ s.panicked = false ∧ s.threads.countP Pc.unfinished = 2 ∧
      .monitor .networkRelease ∈ s.threads ∧ s.network = none := by
  have hinit : lifeSystem.Reachable Life.fresh := .init rfl
  have hreach := hinit.run
    (.request .start :: startEvents 0 ++ [.step 1 true] ++
      .request .start :: startEvents 2 ++ [.step 3 true, .exit 1, .step 3 true, .step 3 true,
        .step 3 true, .step 3 true, .exit 0, .step 1 true, .step 1 true]) rfl
  exact ⟨_, hreach, rfl, rfl, by decide, rfl⟩

end Docker.Lifecycle

import DockerEngine.Native.Fields
import DockerEngine.ForStd.List

/-!
# The exit code that `Wait` returns

`Wait` reads `Running` and then `ExitCode`. Between the two assignments of `setStopped` it finds
the 0 that `setRunning` has left there, and so it does when the next run has begun between its
two reads.

- `Inv.step`: what the fields say at any time
- `wait_exitCode`: the runs in which each `ExitCode` is read when it is the last run's
- `read_exitCode`: what is read otherwise
-/

namespace Docker.Fields

/-- `setRunning` has set `Running`. -/
def StartPc.marked : StartPc → Bool
  | running _ => false
  | _ => true

/-- `setStopped` has reset `Running`. -/
def StopPc.marked : StopPc → Bool
  | running => false
  | _ => true

namespace Runs

/-- The exit codes of the runs whose processes have exited. -/
def codes (s : Runs) : List Int := s.monitors.map Monitor.exitCode

/-- A call of `Wait` is not ahead of the run it waits for, and has returned the exit code of its run
    if that was the last one. -/
structure WaitInv (s : Runs) (w : WaitCall) : Prop where
  issued : w.issued ≤ s.started
  ret : w.pc = .ret → w.issued ≤ s.ended
  returned : ∀ c, w.pc = .done c → w.issued ≤ w.returned ∧
    ∀ k, w.issued = k + 1 → w.returned = k + 1 → s.codes[k]? = some c

structure Inv (s : Runs) : Prop where
  running : s.state.running = decide (s.ended < s.started)
  started : s.started ≤ s.ended + 1
  monitors : s.ended ≤ s.monitors.length ∧ s.monitors.length ≤ s.started
  marked : ∀ k m, s.monitors[k]? = some m → (m.pc.marked = true ↔ k < s.ended)
  start : ∀ pc, s.start = some pc →
    s.monitors.length = s.ended ∧ (pc.marked = true ↔ s.ended < s.started)
  fresh : s.written = none → s.state.exitCode = 0
  written : ∀ k, s.written = some k → k < s.ended ∧ s.codes[k]? = some s.state.exitCode
  waits : ∀ w ∈ s.waits, s.WaitInv w

/-- The step of a call of `Wait` that reads `ExitCode` when exactly the runs have ended that had
    been marked running when it was issued is taken only when the field was written last by the
    `setStopped` of the last of them. -/
def ReadsOwn (s : Runs) : Op → Prop
  | .waitStep i => ∀ w ∈ s.waits[i]?, w.pc = .ret → w.issued = s.ended → 0 < s.ended →
      s.written = some (s.ended - 1)
  | _ => True

instance (s : Runs) (op : Op) : Decidable (s.ReadsOwn op) :=
  match op with
  | .waitStep i => inferInstanceAs (Decidable (∀ w ∈ s.waits[i]?, w.pc = .ret →
      w.issued = s.ended → 0 < s.ended → s.written = some (s.ended - 1)))
  | .start _ | .startStep | .exit _ | .monitorStep _ | .wait => inferInstanceAs (Decidable True)

theorem Inv.new : Runs.new.Inv where
  running := rfl
  started := by decide
  monitors := by decide
  marked k m h := by simp [Runs.new] at h
  start pc h := by simp [Runs.new] at h
  fresh _ := rfl
  written k h := by simp [Runs.new] at h
  waits w h := by simp [Runs.new] at h

variable {s s' : Runs}

/-! ## Steps that touch no field -/

/-- Only the condition variable, and the place in a broadcast, has changed. -/
theorem Inv.frame (h : s.Inv) (hstate : s'.state.running = s.state.running)
    (hcode : s'.state.exitCode = s.state.exitCode) (hstarted : s'.started = s.started)
    (hended : s'.ended = s.ended) (hwritten : s'.written = s.written) (hwaits : s'.waits = s.waits)
    (hstart : ∀ pc', s'.start = some pc' → ∃ pc, s.start = some pc ∧ pc.marked = pc'.marked)
    (hmonitors : s'.monitors.map (fun m => (m.pc.marked, m.exitCode)) =
      s.monitors.map fun m => (m.pc.marked, m.exitCode)) : s'.Inv := by
  have hlen : s'.monitors.length = s.monitors.length := by
    simpa using congrArg List.length hmonitors
  have hcodes : s'.codes = s.codes := by
    have hsnd := congrArg (List.map Prod.snd) hmonitors
    simpa [codes, Function.comp_def] using hsnd
  constructor
  · rw [hstate, hstarted, hended]
    exact h.running
  · rw [hstarted, hended]
    exact h.started
  · rw [hlen, hstarted, hended]
    exact h.monitors
  · intro k m' hm'
    -- the monitor that stood at this place before was as far as this one
    have hget := congrArg (fun l => l[k]?) hmonitors
    simp only [List.getElem?_map, hm', Option.map_some] at hget
    obtain ⟨m, hm, heq⟩ := Option.map_eq_some_iff.mp hget.symm
    rw [Prod.mk.injEq] at heq
    rw [hended, ← heq.1]
    exact h.marked k m hm
  · intro pc' hpc'
    obtain ⟨pc, hpc, hmarked⟩ := hstart pc' hpc'
    rw [hlen, hended, hstarted, ← hmarked]
    exact h.start pc hpc
  · rw [hwritten, hcode]
    exact h.fresh
  · rw [hwritten, hended, hcodes, hcode]
    exact h.written
  · intro w hw
    rw [hwaits] at hw
    have hinv := h.waits w hw
    constructor
    · rw [hstarted]
      exact hinv.issued
    · rw [hended]
      exact hinv.ret
    · rw [hcodes]
      exact hinv.returned

/-- What holds of a call of `Wait` still holds later on. -/
theorem WaitInv.mono {w : WaitCall} (h : s.WaitInv w) (hstarted : s.started ≤ s'.started)
    (hended : s.ended ≤ s'.ended)
    (hcodes : ∀ (k : Nat) (c : Int), s.codes[k]? = some c → s'.codes[k]? = some c) :
    s'.WaitInv w where
  issued := Nat.le_trans h.issued hstarted
  ret hpc := Nat.le_trans (h.ret hpc) hended
  returned c hpc := by
    obtain ⟨hle, hcode⟩ := h.returned c hpc
    exact ⟨hle, fun k hissued hreturned => hcodes k c (hcode k hissued hreturned)⟩

theorem codes_setPc {k : Nat} {m : Monitor} (hm : s.monitors[k]? = some m) (pc : StopPc) :
    (s.setPc k m pc).codes = s.codes := List.map_set_of_eq hm rfl

/-! ## The steps of `setRunning` -/

theorem Inv.start_call (h : s.Inv) {pid : Int} (hended : s.started = s.ended) :
    Inv { s with start := some (.running pid) } := by
  obtain ⟨hlo, hhi⟩ := h.monitors
  refine { h with start := fun pc hpc => ?_, waits := fun w hw => ?_ }
  · obtain rfl := Option.some.inj hpc
    show s.monitors.length = s.ended ∧ (false = true ↔ s.ended < s.started)
    constructor
    · omega
    · simp [hended]
  · exact (h.waits w hw).mono (Nat.le_refl _) (Nat.le_refl _) fun k c hc => hc

/-- The steps from the assignment of `Pid` on. -/
theorem Inv.moveStart (h : s.Inv) {pc : StartPc} (hpc : s.start = some pc) {pid : Int}
    {cond : Cond Thread} {next : Option StartPc} (hnext : ∀ pc' ∈ next, pc.marked = pc'.marked) :
    Inv { s with state := { s.state with pid }, cond, start := next } := by
  refine h.frame rfl rfl rfl rfl rfl rfl ?_ rfl
  intro pc' hpc'
  exact ⟨pc, hpc, hnext pc' hpc'⟩

theorem Inv.startStep (h : s.Inv) (hstep : s.startStep = some s') : s'.Inv := by
  obtain ⟨hlo, hhi⟩ := h.monitors
  unfold Runs.startStep at hstep
  split at hstep
  · simp at hstep
  · -- `Running` is set: the run begins
    next pid hpc =>
    cases hstep
    obtain ⟨hlen, hmarked⟩ := h.start _ hpc
    have hnot : ¬s.ended < s.started := fun hlt => Bool.false_ne_true (hmarked.mpr hlt)
    have heq : s.started = s.ended := by omega
    constructor
    · show true = decide (s.ended < s.started + 1)
      simp [heq]
    · show s.started + 1 ≤ s.ended + 1
      omega
    · show s.ended ≤ s.monitors.length ∧ s.monitors.length ≤ s.started + 1
      omega
    · exact h.marked
    · intro pc hpc'
      obtain rfl := Option.some.inj hpc'
      show s.monitors.length = s.ended ∧ (true = true ↔ s.ended < s.started + 1)
      constructor
      · exact hlen
      · simp [heq]
    · exact h.fresh
    · exact h.written
    · intro w hw
      exact (h.waits w hw).mono (Nat.le_succ _) (Nat.le_refl _) fun k c hc => hc
  · -- `ExitCode` is 0 again
    next pid hpc =>
    cases hstep
    have hstart := h.start _ hpc
    refine { h with start := fun pc hpc' => ?_, fresh := fun _ => rfl, written := ?_, waits := ?_ }
    · obtain rfl := Option.some.inj hpc'
      exact hstart
    · exact fun k hk => nomatch hk
    · intro w hw
      exact (h.waits w hw).mono (Nat.le_refl _) (Nat.le_refl _) fun k c hc => hc
  · next pid hpc =>
    cases hstep
    exact h.moveStart hpc (by simp [StartPc.marked])
  · next hpc =>
    obtain ⟨cond, -, rfl⟩ := Option.map_eq_some_iff.mp hstep
    exact h.moveStart hpc (by simp [StartPc.marked])
  · next hpc =>
    cases hstep
    exact h.moveStart hpc (by simp [StartPc.marked])
  · next hpc =>
    obtain ⟨cond, -, rfl⟩ := Option.map_eq_some_iff.mp hstep
    exact h.moveStart hpc (by simp)

/-! ## The steps of `setStopped` -/

/-- The monitor of the last run is the only one that has not reset `Running`. -/
theorem Inv.exit_call (h : s.Inv) {exitCode : Int} (hnone : s.start = none)
    (hlt : s.monitors.length < s.started) :
    Inv { s with monitors := s.monitors ++ [⟨.running, exitCode⟩] } := by
  obtain ⟨hlo, hhi⟩ := h.monitors
  have hstarted := h.started
  have hkeep : ∀ (k : Nat) (c : Int), s.codes[k]? = some c →
      (codes { s with monitors := s.monitors ++ [⟨.running, exitCode⟩] })[k]? = some c := by
    intro k c hc
    rw [codes, List.map_append]
    exact List.getElem?_concat_of_some hc
  constructor
  · exact h.running
  · exact h.started
  · show s.ended ≤ (s.monitors ++ [_]).length ∧ (s.monitors ++ [_]).length ≤ s.started
    rw [List.length_append, List.length_singleton]
    omega
  · -- the new monitor has reset nothing, and no run has ended since
    intro k m hm
    obtain hm | ⟨rfl, rfl⟩ := List.getElem?_concat_cases hm
    · exact h.marked k m hm
    · show false = true ↔ s.monitors.length < s.ended
      rw [Bool.false_eq_true, false_iff]
      omega
  · intro pc hpc
    have hpc' : s.start = some pc := hpc
    simp [hnone] at hpc'
  · exact h.fresh
  · intro k hk
    obtain ⟨hlt, hc⟩ := h.written k hk
    exact ⟨hlt, hkeep k _ hc⟩
  · intro w hw
    exact (h.waits w hw).mono (Nat.le_refl _) (Nat.le_refl _) hkeep

/-- The steps after the first assignment, but for that of `ExitCode`. -/
theorem Inv.moveMonitor (h : s.Inv) {k : Nat} {m : Monitor} (hm : s.monitors[k]? = some m)
    {pid : Int} {cond : Cond Thread} {pc : StopPc} (hpc : pc.marked = m.pc.marked) :
    Inv { s.setPc k m pc with state := { s.state with pid }, cond } := by
  refine h.frame rfl rfl rfl rfl rfl rfl (fun pc' hpc' => ⟨pc', hpc', rfl⟩) ?_
  apply List.map_set_of_eq hm
  show (pc.marked, m.exitCode) = (m.pc.marked, m.exitCode)
  rw [hpc]

theorem Inv.monitorStep (h : s.Inv) {k : Nat} {m : Monitor} (hm : s.monitors[k]? = some m)
    (hstep : s.monitorStep k m = some s') : s'.Inv := by
  obtain ⟨hlo, hhi⟩ := h.monitors
  have hstarted := h.started
  have hk : k < s.monitors.length := (List.getElem?_eq_some_iff.mp hm).1
  have hmarked := h.marked k m hm
  have hkeep : ∀ (j : Nat) (c : Int), s.codes[j]? = some c → ∀ pc, (s.setPc k m pc).codes[j]? =
      some c := by
    intro j c hc pc
    rw [codes_setPc hm]
    exact hc
  unfold Runs.monitorStep at hstep
  split at hstep
  · -- `Running` is reset: the run ends
    next hpc =>
    cases hstep
    have hnot : ¬k < s.ended := fun hlt => by
      rw [hpc] at hmarked
      exact Bool.false_ne_true (hmarked.mpr hlt)
    have hlast : k = s.ended := by omega
    have hlen : (s.setPc k m .pid).monitors.length = s.monitors.length := List.length_set
    constructor
    · show false = decide (s.ended + 1 < s.started)
      symm
      rw [decide_eq_false_iff_not]
      omega
    · show s.started ≤ s.ended + 1 + 1
      omega
    · show s.ended + 1 ≤ (s.setPc k m .pid).monitors.length ∧
        (s.setPc k m .pid).monitors.length ≤ s.started
      omega
    · intro j m' hm'
      show m'.pc.marked = true ↔ j < s.ended + 1
      have hm'' : (s.monitors.set k { m with pc := .pid })[j]? = some m' := hm'
      obtain ⟨rfl, rfl⟩ | ⟨hj, hold⟩ := List.getElem?_set_cases hm''
      · exact iff_of_true rfl (by omega)
      · rw [h.marked j m' hold]
        omega
    · intro pc hpc'
      -- a run whose monitor is there is not being started
      obtain ⟨hnone, -⟩ := h.start pc hpc'
      omega
    · exact h.fresh
    · intro j hj
      obtain ⟨hlt, hc⟩ := h.written j hj
      exact ⟨Nat.lt_succ_of_lt hlt, hkeep j _ hc _⟩
    · intro w hw
      exact (h.waits w hw).mono (Nat.le_refl _) (Nat.le_succ _) fun j c hc => hkeep j c hc _
  · next hpc =>
    cases hstep
    exact h.moveMonitor hm (by rw [hpc]; rfl)
  · -- `ExitCode` is that of this run
    next hpc =>
    cases hstep
    have hmove : Inv { s.setPc k m .lock with state := { s.state with pid := s.state.pid } } :=
      h.moveMonitor hm (by rw [hpc]; rfl)
    have hcode : (s.setPc k m .lock).codes[k]? = some m.exitCode := by
      rw [codes_setPc hm, codes, List.getElem?_map, hm]
      rfl
    refine { hmove with fresh := fun hw => (nomatch hw), written := fun j hj => ?_, waits := ?_ }
    · obtain rfl := Option.some.inj hj
      exact ⟨hmarked.mp (by rw [hpc]; rfl), hcode⟩
    · intro w hw
      exact (h.waits w hw).mono (Nat.le_refl _) (Nat.le_refl _) fun j c hc => hkeep j c hc _
  · next hpc =>
    obtain ⟨cond, -, rfl⟩ := Option.map_eq_some_iff.mp hstep
    exact h.moveMonitor hm (by rw [hpc]; rfl)
  · next hpc =>
    cases hstep
    exact h.moveMonitor hm (by rw [hpc]; rfl)
  · next hpc =>
    obtain ⟨cond, -, rfl⟩ := Option.map_eq_some_iff.mp hstep
    exact h.moveMonitor hm (by rw [hpc]; rfl)
  · simp at hstep

/-! ## The steps of `Wait` -/

theorem Inv.wait_call (h : s.Inv) :
    Inv { s with waits := s.waits ++ [⟨.test, s.started, 0⟩] } := by
  refine { h with waits := fun w hw => ?_ }
  rcases List.mem_append.mp hw with hw | hw
  · exact (h.waits w hw).mono (Nat.le_refl _) (Nat.le_refl _) fun k c hc => hc
  · rw [List.mem_singleton] at hw
    subst hw
    exact ⟨Nat.le_refl _, fun hpc => (nomatch hpc), fun c hpc => (nomatch hpc)⟩

/-- One call moves on. -/
theorem Inv.goto (h : s.Inv) {i : Nat} {w : WaitCall} {pc : WaitPc} {cond : Cond Thread}
    (hw : s.WaitInv { w with pc }) : (s.goto i w pc cond).Inv := by
  refine { h with waits := fun w' hw' => ?_ }
  have hinv : s.WaitInv w' := by
    rcases List.mem_or_eq_of_mem_set hw' with hw' | rfl
    · exact h.waits w' hw'
    · exact hw
  exact hinv.mono (Nat.le_refl _) (Nat.le_refl _) fun k c hc => hc

/-- What holds of a call that has not come to its second read. -/
theorem WaitInv.goto {w : WaitCall} (h : s.WaitInv w) {pc : WaitPc} (hret : pc ≠ .ret)
    (hdone : ∀ c, pc ≠ .done c) : s.WaitInv { w with pc } :=
  ⟨h.issued, fun hpc => absurd hpc hret, fun c hpc => absurd hpc (hdone c)⟩

theorem Inv.waitStep (h : s.Inv) {i : Nat} {w : WaitCall} (hw : s.waits[i]? = some w)
    (hok : ReadsOwn s (.waitStep i)) (hstep : s.waitStep i w = some s') : s'.Inv := by
  have hinv := h.waits w (List.mem_of_getElem? hw)
  -- what the call does with the mutex and the condition says nothing about the state
  have hcond {pc : WaitPc} (hret : pc ≠ .ret) (hdone : ∀ c, pc ≠ .done c)
      {result : Option (Cond Thread)} (hstep : result.map (s.goto i w pc) = some s') : s'.Inv := by
    obtain ⟨cond, -, rfl⟩ := Option.map_eq_some_iff.mp hstep
    exact h.goto (hinv.goto hret hdone)
  unfold Runs.waitStep at hstep
  split at hstep
  · next hpc =>
    cases hstep
    split
    · exact h.goto (hinv.goto (by simp) (by simp))
    · -- no run is on, so the runs that were on have ended
      next hrun =>
      refine h.goto ⟨hinv.issued, fun _ => ?_, fun c hpc' => (nomatch hpc')⟩
      show w.issued ≤ s.ended
      have hissued := hinv.issued
      rw [h.running, decide_eq_true_eq] at hrun
      omega
  · exact hcond (by simp) (by simp) hstep
  · exact hcond (by simp) (by simp) hstep
  · exact hcond (by simp) (by simp) hstep
  · exact hcond (by simp) (by simp) hstep
  · -- `ExitCode` is read
    next hpc =>
    cases hstep
    refine h.goto ⟨hinv.issued, fun hpc' => (nomatch hpc'), fun c hpc' => ⟨hinv.ret hpc, ?_⟩⟩
    intro k hissued hended
    cases hpc'
    have hissued : w.issued = k + 1 := hissued
    have hended : s.ended = k + 1 := hended
    have hwritten := hok w hw hpc (by omega) (by omega)
    rw [hended, Nat.add_sub_cancel] at hwritten
    exact (h.written k hwritten).2
  · simp at hstep

/-! ## Runs -/

theorem Inv.step {op : Op} (h : s.Inv) (hok : ReadsOwn s op) (hstep : s.step op = some s') :
    s'.Inv := by
  cases op with
  | start pid =>
    rw [Runs.step] at hstep
    split at hstep
    · next hfree =>
      cases hstep
      exact h.start_call hfree.2
    · simp at hstep
  | startStep => exact h.startStep hstep
  | exit exitCode =>
    rw [Runs.step] at hstep
    split at hstep
    · next hfree =>
      cases hstep
      exact h.exit_call hfree.1 hfree.2
    · simp at hstep
  | monitorStep k =>
    obtain ⟨m, hm, hstep⟩ := Option.bind_eq_some_iff.mp hstep
    exact h.monitorStep hm hstep
  | wait =>
    cases hstep
    exact h.wait_call
  | waitStep i =>
    obtain ⟨w, hw, hstep⟩ := Option.bind_eq_some_iff.mp hstep
    exact h.waitStep hw hok hstep

theorem Inv.of_reachable (h : runSystem.ReachableVia ReadsOwn s) : s.Inv := by
  apply h.invariant
  · rintro _ rfl
    exact .new
  · exact fun s op s' hs hok hstep => hs.step hok hstep

/-- When each `ExitCode` is read as the last run that ended has left it, every call of `Wait` that
    was issued after run `k` was marked running, and has returned before run `k + 1` ended, has
    returned the exit code of run `k`. -/
theorem wait_exitCode (h : runSystem.ReachableVia ReadsOwn s) {i : Nat} {w : WaitCall} {c : Int}
    {k : Nat} (hw : s.waits[i]? = some w) (hdone : w.pc = .done c) (hissued : k < w.issued)
    (hreturned : w.returned ≤ k + 1) : (s.monitors[k]?).map Monitor.exitCode = some c := by
  obtain ⟨hle, hcode⟩ := ((Inv.of_reachable h).waits w (List.mem_of_getElem? hw)).returned c hdone
  have hcodes := hcode k (by omega) (by omega)
  rw [codes, List.getElem?_map] at hcodes
  exact hcodes

/-- What is read at any other time: the 0 of a `setRunning`, or the exit code of an earlier run. -/
theorem read_exitCode (h : runSystem.ReachableVia ReadsOwn s) {k : Nat} (hended : s.ended = k + 1)
    (hwritten : s.written ≠ some k) :
    s.state.exitCode = 0 ∨ ∃ j < k, s.codes[j]? = some s.state.exitCode := by
  have hinv := Inv.of_reachable h
  cases hw : s.written with
  | none => exact .inl (hinv.fresh hw)
  | some j =>
    obtain ⟨hlt, hcode⟩ := hinv.written j hw
    have hne : j ≠ k := fun heq => hwritten (heq ▸ hw)
    exact .inr ⟨j, by omega, hcode⟩

/-! ## A run with the exit code 7 -/

/-- A run is started, its process exits, and somebody calls `Wait`. -/
def exited : List Op :=
  .start 1 :: List.replicate 6 .startStep ++ [.exit 7, .wait]

/-- The call reads `ExitCode` after `setStopped`. -/
theorem wait_exitCode_after :
    ∃ s w, runSystem.Reachable s ∧ s.waits[0]? = some w ∧ w.pc = .done 7 ∧
      (s.monitors[0]?).map Monitor.exitCode = some 7 := by
  have hinit : runSystem.ReachableVia ReadsOwn Runs.new := .init rfl
  have hs := hinit.runVia
    (exited ++ List.replicate 6 (.monitorStep 0) ++ [.waitStep 0, .waitStep 0]) rfl
  exact ⟨_, _, hs.mono fun _ _ _ => trivial, rfl, rfl,
    wait_exitCode hs (i := 0) rfl rfl (by decide) (by decide)⟩

/-- The call reads `ExitCode` between the assignments of `setStopped`, or after the next run was
    marked running. -/
theorem wait_zero :
    (∃ s w, runSystem.run Runs.new (exited ++ [.monitorStep 0, .waitStep 0, .waitStep 0]) = some s ∧
      s.waits[0]? = some w ∧ w = ⟨.done 0, 1, 1⟩ ∧
      (s.monitors[0]?).map Monitor.exitCode = some 7) ∧
    ∃ s w, runSystem.run Runs.new (exited ++ List.replicate 6 (.monitorStep 0) ++
        [.waitStep 0, .start 2, .startStep, .startStep, .waitStep 0]) = some s ∧
      s.waits[0]? = some w ∧ w = ⟨.done 0, 1, 1⟩ ∧
      (s.monitors[0]?).map Monitor.exitCode = some 7 :=
  ⟨⟨_, _, rfl, rfl, rfl, rfl⟩, ⟨_, _, rfl, rfl, rfl, rfl⟩⟩

end Runs

end Docker.Fields

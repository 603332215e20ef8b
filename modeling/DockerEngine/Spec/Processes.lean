import DockerEngine.Spec.Lifecycle

/-!
# One process at a time

In the runs of `one_monitor` the command that a monitor waits for is the one that was started last,
and the process of every earlier one has exited. So a container that is not running has no process,
and a monitor finds what it dereferences. What is left is `Kill`: between its test of `Running` and
`container.cmd.Process.Kill()` the container may have stopped, and another `Start` may have made
a command that is not started yet.

- `one_process`: which process of a container can be alive
- `panics_iff_kill`: the one step that ends the daemon
-/

namespace Docker.Lifecycle

/-- The process of the command is there. -/
def ExecCmd.alive (cmd : ExecCmd) : Bool := cmd.started && !cmd.exited

/-- No process of the container is alive. -/
def Quiet (cmds : List ExecCmd) : Prop := ∀ cmd ∈ cmds, cmd.alive = false

/-- The current command has been started, and no other process is alive. -/
structure Runs (current : Option Nat) (cmds : List ExecCmd) (c : Nat) (waited : Bool) : Prop where
  current : current = some c
  started : ∃ cmd, cmds[c]? = some cmd ∧ cmd.started = true ∧ cmd.waited = waited
  only : ∀ c' cmd, cmds[c']? = some cmd → cmd.alive = true → c' = c

/-- What a busy thread knows of the commands. -/
def Holds (current : Option Nat) (cmds : List ExecCmd) : Pc → Prop
  | .start .startCmd =>
    Quiet cmds ∧ ∃ c cmd, current = some c ∧ cmds[c]? = some cmd ∧ cmd.waited = false
  | .start .setRunning | .start .save | .start .goMonitor | .monitor .cmdWait =>
    ∃ c, Runs current cmds c false
  | .monitor (.waiting c) => Runs current cmds c true
  | .monitor .exitStatus =>
    Quiet cmds ∧ ∃ c cmd, current = some c ∧ cmds[c]? = some cmd ∧ cmd.reaped = true
  | _ => Quiet cmds

/-- What holds of the commands as long as one thread at most is busy. -/
structure Life.Steady (s : Life) : Prop extends s.Inv where
  holds : ∀ pc ∈ s.threads, pc.busy = true → Holds s.cmd s.cmds pc
  quiet : (∀ pc ∈ s.threads, pc.busy = false) → Quiet s.cmds

variable {s s' : Life} {k : Nat} {pc pc' : Pc} {cmds : List ExecCmd} {current : Option Nat}
  {c : Nat} {cmd cmd' : ExecCmd}

/-! ## What happens to one command -/

theorem Quiet.set (h : Quiet cmds) (hcmd : cmd.alive = false) : Quiet (cmds.set c cmd) := by
  intro q hq
  rcases List.mem_or_eq_of_mem_set hq with hq | rfl
  · exact h q hq
  · exact hcmd

theorem Quiet.concat (h : Quiet cmds) (hcmd : cmd.alive = false) : Quiet (cmds ++ [cmd]) := by
  intro q hq
  rcases List.mem_append.mp hq with hq | hq
  · exact h q hq
  · rw [List.mem_singleton.mp hq]
    exact hcmd

/-- A command is started while no process is alive. -/
theorem Quiet.start (h : Quiet cmds) (hcurrent : current = some c) (hc : cmds[c]? = some cmd)
    (hwaited : cmd.waited = false) :
    Runs current (cmds.set c { cmd with started := true }) c false := by
  have hlt := (List.getElem?_eq_some_iff.mp hc).1
  refine ⟨hcurrent, ⟨_, List.getElem?_set_self hlt, rfl, hwaited⟩, fun c' q hq halive => ?_⟩
  rcases List.getElem?_set_cases hq with ⟨hsame, -⟩ | ⟨-, hold⟩
  · exact hsame
  · rw [h q (List.mem_of_getElem? hold)] at halive
    cases halive

/-- The monitor begins to wait. -/
theorem Runs.wait (h : Runs current cmds c false) (hc : cmds[c]? = some cmd) :
    Runs current (cmds.set c { cmd with waited := true }) c true := by
  obtain ⟨cmd₀, hc₀, hstarted, -⟩ := h.started
  have hlt := (List.getElem?_eq_some_iff.mp hc).1
  rw [hc] at hc₀
  cases hc₀
  refine ⟨h.current, ⟨_, List.getElem?_set_self hlt, hstarted, rfl⟩, fun c' q hq halive => ?_⟩
  rcases List.getElem?_set_cases hq with ⟨hsame, -⟩ | ⟨-, hold⟩
  · exact hsame
  · exact h.only c' q hold halive

/-- The wait is over when the process has exited. -/
theorem Runs.reap {waited : Bool} (h : Runs current cmds c waited) (hc : cmds[c]? = some cmd)
    (hexited : cmd.exited = true) :
    Holds current (cmds.set c { cmd with reaped := true }) (.monitor .exitStatus) := by
  have hlt := (List.getElem?_eq_some_iff.mp hc).1
  refine ⟨fun q hq => ?_, c, _, h.current, List.getElem?_set_self hlt, rfl⟩
  obtain ⟨c', hc'⟩ := List.getElem?_of_mem hq
  rcases List.getElem?_set_cases hc' with ⟨-, rfl⟩ | ⟨hne, hold⟩
  · rw [ExecCmd.alive, hexited, Bool.not_true, Bool.and_false]
  · by_contra halive
    exact hne (h.only c' q hold (Bool.not_eq_false _ ▸ halive))

/-- A process exits. -/
theorem Runs.exit {waited : Bool} {c₀ : Nat} (h : Runs current cmds c₀ waited)
    (hc : cmds[c]? = some cmd) :
    Runs current (cmds.set c { cmd with exited := true }) c₀ waited := by
  have hlt := (List.getElem?_eq_some_iff.mp hc).1
  obtain ⟨cmd₀, hc₀, hstarted, hwaited⟩ := h.started
  refine ⟨h.current, ?_, fun c' q hq halive => ?_⟩
  · by_cases hsame : c = c₀
    · subst hsame
      rw [hc] at hc₀
      cases hc₀
      exact ⟨_, List.getElem?_set_self hlt, hstarted, hwaited⟩
    · exact ⟨cmd₀, by rw [List.getElem?_set_ne hsame]; exact hc₀, hstarted, hwaited⟩
  · rcases List.getElem?_set_cases hq with ⟨-, rfl⟩ | ⟨-, hold⟩
    · rw [ExecCmd.alive, Bool.not_true, Bool.and_false] at halive
      cases halive
    · exact h.only c' q hold halive

theorem not_alive_exited (cmd : ExecCmd) : { cmd with exited := true }.alive = false := by
  rw [ExecCmd.alive, Bool.not_true, Bool.and_false]

/-- What is known of the current command stays true when a process exits. -/
theorem exists_exit {p : ExecCmd → Prop} (hp : ∀ q : ExecCmd, p q → p { q with exited := true })
    (h : ∃ c₀ q, current = some c₀ ∧ cmds[c₀]? = some q ∧ p q) (hc : cmds[c]? = some cmd) :
    ∃ c₀ q, current = some c₀ ∧ (cmds.set c { cmd with exited := true })[c₀]? = some q ∧ p q := by
  obtain ⟨c₀, q, hcurrent, hc₀, hq⟩ := h
  have hlt := (List.getElem?_eq_some_iff.mp hc).1
  by_cases hsame : c = c₀
  · subst hsame
    rw [hc] at hc₀
    cases hc₀
    exact ⟨c, _, hcurrent, List.getElem?_set_self hlt, hp _ hq⟩
  · exact ⟨c₀, q, hcurrent, by rw [List.getElem?_set_ne hsame]; exact hc₀, hq⟩

theorem Holds.exit (h : Holds current cmds pc) (hc : cmds[c]? = some cmd) :
    Holds current (cmds.set c { cmd with exited := true }) pc := by
  have hquiet : Quiet cmds → Quiet (cmds.set c { cmd with exited := true }) :=
    fun hq => hq.set (not_alive_exited cmd)
  cases pc with
  | start pc =>
    cases pc with
    | startCmd => exact ⟨hquiet h.1, exists_exit (fun _ hq => hq) h.2 hc⟩
    | setRunning =>
      obtain ⟨c₀, hruns⟩ := h
      exact ⟨c₀, hruns.exit hc⟩
    | save =>
      obtain ⟨c₀, hruns⟩ := h
      exact ⟨c₀, hruns.exit hc⟩
    | goMonitor =>
      obtain ⟨c₀, hruns⟩ := h
      exact ⟨c₀, hruns.exit hc⟩
    | ensureMounted => exact hquiet h
    | allocateNetwork => exact hquiet h
    | generateLXCConfig => exact hquiet h
    | gateway => exact hquiet h
    | newCmd => exact hquiet h
  | monitor pc =>
    cases pc with
    | cmdWait =>
      obtain ⟨c₀, hruns⟩ := h
      exact ⟨c₀, hruns.exit hc⟩
    | waiting c₀ =>
      have hruns : Runs current cmds c₀ true := h
      exact hruns.exit hc
    | exitStatus => exact ⟨hquiet h.1, exists_exit (fun _ hq => hq) h.2 hc⟩
    | networkRelease => exact hquiet h
    | networkClear => exact hquiet h
    | closeStreams => exact hquiet h
    | umount => exact hquiet h
    | newStdin => exact hquiet h
    | setStopped => exact hquiet h
    | save => exact hquiet h
  | stop pc => exact hquiet h
  | done => exact hquiet h

/-! ## What happens to a thread -/

/-- A thread that is not busy before its step nor after it, and changes no command. -/
theorem Life.Steady.idle (hs : s.Steady) (pc' : Pc) (hk : s.threads[k]? = some pc)
    (hpc : pc.busy = false) (hpc' : pc'.busy = false) (hthreads : s'.threads = s.threads.set k pc')
    (hcmd : s'.cmd = s.cmd) (hcmds : s'.cmds = s.cmds) (hinv : s'.Inv) : s'.Steady where
  toInv := hinv
  holds := by
    intro q hq hbusy
    rw [hthreads] at hq
    rcases List.mem_or_eq_of_mem_set hq with hq | rfl
    · rw [hcmd, hcmds]
      exact hs.holds q hq hbusy
    · rw [hpc'] at hbusy
      cases hbusy
  quiet := by
    intro hidle
    rw [hcmds]
    apply hs.quiet
    intro q hq
    obtain ⟨j, hj⟩ := List.getElem?_of_mem hq
    by_cases hjk : j = k
    · subst hjk
      rw [hk] at hj
      cases hj
      exact hpc
    · apply hidle
      rw [hthreads]
      exact List.mem_of_getElem? (by rw [List.getElem?_set_ne (Ne.symm hjk)]; exact hj)

/-- The busy thread goes on, or ends. -/
theorem Life.Steady.busy (hs : s.Steady) (pc' : Pc) (hk : s.threads[k]? = some pc)
    (hpc : pc.busy = true) (hthreads : s'.threads = s.threads.set k pc')
    (hholds : pc'.busy = true → Holds s'.cmd s'.cmds pc')
    (hquiet : pc'.busy = false → Quiet s'.cmds) (hinv : s'.Inv) : s'.Steady where
  toInv := hinv
  holds := by
    intro q hq hbusy
    rw [hthreads] at hq
    rcases List.eq_or_not_of_mem_set hs.single hk hpc hq with rfl | hnot
    · exact hholds hbusy
    · rw [hnot] at hbusy
      cases hbusy
  quiet := by
    intro hidle
    have hlt := (List.getElem?_eq_some_iff.mp hk).1
    apply hquiet
    apply hidle
    rw [hthreads]
    exact List.mem_of_getElem? (List.getElem?_set_self hlt)

/-- The busy thread goes on. -/
theorem Life.Steady.goOn (hs : s.Steady) (pc' : Pc) (hk : s.threads[k]? = some pc)
    (hpc : pc.busy = true) (hpc' : pc'.busy = true) (hthreads : s'.threads = s.threads.set k pc')
    (hholds : Holds s'.cmd s'.cmds pc') (hinv : s'.Inv) : s'.Steady := by
  apply hs.busy pc' hk hpc hthreads (fun _ => hholds) _ hinv
  intro hidle
  rw [hpc'] at hidle
  cases hidle

/-- The busy thread is done with the process. -/
theorem Life.Steady.ends (hs : s.Steady) (pc' : Pc) (hk : s.threads[k]? = some pc)
    (hpc : pc.busy = true) (hpc' : pc'.busy = false) (hthreads : s'.threads = s.threads.set k pc')
    (hquiet : Quiet s'.cmds) (hinv : s'.Inv) : s'.Steady := by
  apply hs.busy pc' hk hpc hthreads _ (fun _ => hquiet) hinv
  intro hbusy
  rw [hpc'] at hbusy
  cases hbusy

theorem Life.Steady.crash (hs : s.Steady) : s.crash.Steady :=
  ⟨hs.toInv.crash, hs.holds, hs.quiet⟩

/-- While the container is not running and no `Start` is in flight, nobody is busy. -/
theorem Life.Inv.idle_of_stopped (hs : s.Inv) (hrun : s.running = false)
    (hflight : ∀ pc ∈ s.threads, pc.inFlight = false) : ∀ pc ∈ s.threads, pc.busy = false := by
  intro pc hpc
  rw [Pc.busy, hflight pc hpc, Bool.false_or]
  by_contra hunfinished
  have hmarked : pc.marked = true := by
    cases pc with
    | monitor pc => exact Bool.of_not_eq_false hunfinished
    | start pc => exact absurd rfl hunfinished
    | stop pc => exact absurd rfl hunfinished
    | done => exact absurd rfl hunfinished
  rw [(hs.supported pc hpc).1 hmarked] at hrun
  cases hrun

/-! ## Every step keeps it -/

theorem Life.Steady.startStep {pc : StartPc} {ok : Bool} (hs : s.Steady)
    (hk : s.threads[k]? = some (.start pc)) (hok : AllocatesIdle s (.step k ok)) :
    (s.startStep k ok pc).Steady := by
  have hinv := hs.toInv.startStep hk hok
  have hholds := hs.holds _ (List.mem_of_getElem? hk)
  cases pc with
  | ensureMounted =>
    refine hs.idle (if ok then .start .allocateNetwork else .done) hk rfl ?_ rfl rfl rfl hinv
    cases ok <;> rfl
  | allocateNetwork =>
    cases ok with
    | false => exact hs.idle _ hk rfl rfl rfl rfl rfl hinv
    | true =>
      obtain ⟨hrun, hflight⟩ := hok hk
      have hquiet := hs.quiet (hs.toInv.idle_of_stopped hrun hflight)
      refine ⟨hinv, fun q hq hbusy => ?_, fun _ => hquiet⟩
      -- no other thread is busy
      rcases List.mem_or_eq_of_mem_set hq with hq | rfl
      · rw [hs.toInv.idle_of_stopped hrun hflight q hq] at hbusy
        cases hbusy
      · exact hquiet
  | generateLXCConfig =>
    refine hs.busy (if ok then .start .gateway else .done) hk rfl rfl (fun _ => ?_)
      (fun _ => hholds rfl) hinv
    cases ok <;> exact hholds rfl
  | gateway =>
    simp only [Life.startStep] at hinv ⊢
    split at hinv
    · next hnet =>
      rw [if_pos hnet]
      exact hs.goOn _ hk rfl rfl rfl (hholds rfl) hinv
    · next hnet =>
      rw [if_neg hnet]
      exact hs.crash
  | newCmd =>
    have hquiet : Quiet (s.cmds ++ [ExecCmd.new]) := Quiet.concat (hholds rfl) rfl
    refine hs.goOn (.start .startCmd) hk rfl rfl rfl ?_ hinv
    exact ⟨hquiet, s.cmds.length, ExecCmd.new, rfl, List.getElem?_concat_length, rfl⟩
  | startCmd =>
    obtain ⟨hquiet, c, cmd, hcmd, hc, hwaited⟩ := hholds rfl
    simp only [Life.startStep, Life.currentCmd, hcmd, Option.bind_some, hc] at hinv ⊢
    split at hinv
    · next hstart =>
      rw [if_pos hstart]
      exact hs.goOn _ hk rfl rfl rfl ⟨c, hquiet.start hcmd hc hwaited⟩ hinv
    · next hstart =>
      rw [if_neg hstart]
      exact hs.ends _ hk rfl rfl rfl hquiet hinv
  | setRunning =>
    obtain ⟨c, hruns⟩ := hholds rfl
    obtain ⟨cmd, hc, hstarted, -⟩ := hruns.started
    simp only [Life.startStep, Life.currentCmd, hruns.current, Option.bind_some, hc,
      hstarted, if_true] at hinv ⊢
    exact hs.goOn _ hk rfl rfl rfl ⟨c, hruns⟩ hinv
  | save => exact hs.goOn _ hk rfl rfl rfl (hholds rfl) hinv
  | goMonitor =>
    refine ⟨hinv, fun q hq hbusy => ?_, fun hidle => ?_⟩
    · rcases List.mem_append.mp hq with hq | hq
      · rcases List.eq_or_not_of_mem_set hs.single hk rfl hq with rfl | hnot
        · cases hbusy
        · rw [hnot] at hbusy
          cases hbusy
      · rw [List.mem_singleton.mp hq]
        exact hholds rfl
    · have hbusy := hidle (.monitor .cmdWait) (List.mem_append_right _ List.mem_cons_self)
      cases hbusy

theorem Life.Steady.monitorStep {pc : MonitorPc} (hs : s.Steady)
    (hk : s.threads[k]? = some (.monitor pc)) (hstep : s.monitorStep k pc = some s') :
    s'.Steady := by
  have hinv := hs.toInv.monitorStep hk hstep
  have hholds := hs.holds _ (List.mem_of_getElem? hk)
  cases pc with
  | cmdWait =>
    obtain ⟨c, hruns⟩ := hholds rfl
    obtain ⟨cmd, hc, hstarted, hwaited⟩ := hruns.started
    have hfirst : cmd.started ∧ cmd.waited = false := ⟨hstarted, hwaited⟩
    simp only [Life.monitorStep, Life.currentCmd, hruns.current, Option.bind_some, hc,
      if_pos hfirst] at hstep
    cases hstep
    refine hs.goOn _ hk rfl rfl rfl ?_ hinv
    exact hruns.wait hc
  | waiting c =>
    have hruns : Runs s.cmd s.cmds c true := hholds rfl
    obtain ⟨cmd, hc, -, -⟩ := hruns.started
    simp only [Life.monitorStep, hc] at hstep
    split at hstep
    · next hexited =>
      cases hstep
      exact hs.goOn _ hk rfl rfl rfl (hruns.reap hc hexited) hinv
    · cases hstep
  | exitStatus =>
    obtain ⟨hquiet, c, cmd, hcmd, hc, hreaped⟩ := hholds rfl
    simp only [Life.monitorStep, Life.currentCmd, hcmd, Option.bind_some, hc, hreaped,
      if_true] at hstep
    cases hstep
    exact hs.goOn _ hk rfl rfl rfl hquiet hinv
  | networkRelease =>
    simp only [Life.monitorStep] at hstep
    split at hstep
    · cases hstep
      exact hs.goOn _ hk rfl rfl rfl (hholds rfl) hinv
    · cases hstep
      exact hs.crash
  | networkClear =>
    cases hstep
    exact hs.goOn _ hk rfl rfl rfl (hholds rfl) hinv
  | closeStreams =>
    cases hstep
    exact hs.goOn _ hk rfl rfl rfl (hholds rfl) hinv
  | umount =>
    cases hstep
    exact hs.goOn _ hk rfl rfl rfl (hholds rfl) hinv
  | newStdin =>
    cases hstep
    exact hs.goOn _ hk rfl rfl rfl (hholds rfl) hinv
  | setStopped =>
    cases hstep
    exact hs.ends _ hk rfl rfl rfl (hholds rfl) hinv
  | save =>
    cases hstep
    exact hs.idle _ hk rfl rfl rfl rfl rfl hinv

theorem Life.Steady.stopStep {pc : StopPc} {ok : Bool} (hs : s.Steady)
    (hk : s.threads[k]? = some (.stop pc)) (hstep : s.stopStep k ok pc = some s') :
    s'.Steady := by
  have hinv := hs.toInv.stopStep hk hstep
  cases pc with
  | stop a =>
    cases hstep
    refine hs.idle (if s.running then .stop (.lxcKill a) else a.pc) hk rfl ?_ rfl rfl rfl hinv
    split
    · rfl
    · exact afterStop_not_busy a
  | lxcKill a =>
    cases hstep
    refine hs.idle (if ok then .stop (.waitTimeout a) else .stop (.kill (.lxcKillFailed a))) hk
      rfl ?_ rfl rfl rfl hinv
    cases ok <;> rfl
  | waitTimeout a =>
    simp only [Life.stopStep] at hstep
    split at hstep
    · split at hstep
      · cases hstep
      · cases hstep
        exact hs.idle _ hk rfl (afterStop_not_busy a) rfl rfl rfl hinv
    · cases hstep
      exact hs.idle _ hk rfl rfl rfl rfl rfl hinv
  | kill c =>
    cases hstep
    refine hs.idle (if s.running then .stop (.processKill c) else c.pc) hk rfl ?_ rfl rfl rfl hinv
    split
    · rfl
    · exact killCaller_not_busy c
  | processKill c =>
    simp only [Life.stopStep] at hstep
    split at hstep
    · split at hstep
      · cases hstep
        refine hs.idle (if ok then .stop (.wait c) else .done) hk rfl ?_ rfl rfl rfl hinv
        cases ok <;> rfl
      · cases hstep
        exact hs.crash
    · cases hstep
      exact hs.crash
  | wait c =>
    simp only [Life.stopStep] at hstep
    split at hstep
    · cases hstep
    · cases hstep
      exact hs.idle _ hk rfl (killCaller_not_busy c) rfl rfl rfl hinv

theorem Life.Steady.step {e : Event} (hs : s.Steady) (hok : AllocatesIdle s e)
    (hstep : s.step e = some s') : s'.Steady := by
  have hinv := hs.toInv.step hok hstep
  unfold Life.step at hstep
  split at hstep
  · cases hstep
  cases e with
  | request r =>
    cases hstep
    refine ⟨hinv, fun q hq hbusy => ?_, fun hidle => ?_⟩
    · rcases List.mem_append.mp hq with hq | hq
      · exact hs.holds q hq hbusy
      · rw [List.mem_singleton.mp hq, request_not_busy r] at hbusy
        cases hbusy
    · exact hs.quiet fun q hq => hidle q (List.mem_append_left _ hq)
  | exit c =>
    simp only at hstep
    split at hstep
    · next cmd hc =>
      split at hstep
      · cases hstep
        refine ⟨hinv, fun q hq hbusy => (hs.holds q hq hbusy).exit hc, fun hidle => ?_⟩
        exact (hs.quiet hidle).set (not_alive_exited cmd)
      · cases hstep
    · cases hstep
  | step k ok =>
    obtain ⟨pc, hk, hstep⟩ := Option.bind_eq_some_iff.mp hstep
    cases pc with
    | start pc =>
      cases hstep
      exact hs.startStep hk hok
    | monitor pc => exact hs.monitorStep hk hstep
    | stop pc => exact hs.stopStep hk hstep
    | done => cases hstep

theorem Life.steady_of_reachable (h : lifeSystem.ReachableVia AllocatesIdle s) : s.Steady := by
  refine h.invariant (fun s₀ h₀ => ?_) (fun _ _ _ hs hok hstep => hs.step hok hstep)
  rw [show s₀ = Life.fresh from h₀]
  refine ⟨⟨Nat.zero_le _, fun pc hpc => ?_⟩, fun pc hpc => ?_, fun _ cmd hcmd => ?_⟩
  · exact absurd hpc List.not_mem_nil
  · exact absurd hpc List.not_mem_nil
  · exact absurd hcmd List.not_mem_nil

/-! ## All runs -/

/-- The process that is alive is that of the current command. -/
theorem Holds.cmd_eq (h : Holds current cmds pc) (hc : cmds[c]? = some cmd)
    (halive : cmd.alive = true) : current = some c := by
  have hquiet : ¬Quiet cmds := by
    intro hquiet
    rw [hquiet cmd (List.mem_of_getElem? hc)] at halive
    cases halive
  have hruns : ∀ {c₀ waited}, Runs current cmds c₀ waited → current = some c := by
    intro c₀ waited hruns
    rw [hruns.current, hruns.only c cmd hc halive]
  cases pc with
  | start pc =>
    cases pc with
    | startCmd => exact absurd h.1 hquiet
    | setRunning => exact hruns h.choose_spec
    | save => exact hruns h.choose_spec
    | goMonitor => exact hruns h.choose_spec
    | ensureMounted => exact absurd h hquiet
    | allocateNetwork => exact absurd h hquiet
    | generateLXCConfig => exact absurd h hquiet
    | gateway => exact absurd h hquiet
    | newCmd => exact absurd h hquiet
  | monitor pc =>
    cases pc with
    | cmdWait => exact hruns h.choose_spec
    | waiting c₀ => exact hruns h
    | exitStatus => exact absurd h.1 hquiet
    | networkRelease => exact absurd h hquiet
    | networkClear => exact absurd h hquiet
    | closeStreams => exact absurd h hquiet
    | umount => exact absurd h hquiet
    | newStdin => exact absurd h hquiet
    | setStopped => exact absurd h hquiet
    | save => exact absurd h hquiet
  | stop pc => exact absurd h hquiet
  | done => exact absurd h hquiet

/-- In every run in which a `Start` gets past `allocateNetwork` only while the container is not
    running and no other `Start` is past it: a process that is alive is that of the current
    command, and a `Start` or a monitor is at work on it, so there is one at most; a monitor waits
    for the current command; and while the container is not running and no `Start` is in flight,
    as it is when `Stop`, `Kill` or `Wait` find it stopped, no process is alive. -/
theorem one_process {s : Life} (h : lifeSystem.ReachableVia AllocatesIdle s) :
    (∀ c cmd, s.cmds[c]? = some cmd → cmd.alive = true →
      s.cmd = some c ∧ ∃ pc ∈ s.threads, pc.busy = true) ∧
    (∀ c, .monitor (.waiting c) ∈ s.threads → s.cmd = some c) ∧
    (s.running = false → (∀ pc ∈ s.threads, pc.inFlight = false) →
      ∀ cmd ∈ s.cmds, cmd.alive = false) := by
  have hs := Life.steady_of_reachable h
  refine ⟨fun c cmd hc halive => ?_, fun c hmem => ?_, fun hrun hflight => ?_⟩
  · have hbusy : ∃ pc ∈ s.threads, pc.busy = true := by
      by_contra hnone
      have hidle : ∀ pc ∈ s.threads, pc.busy = false := fun pc hpc =>
        Bool.eq_false_iff.mpr fun hbusy => hnone ⟨pc, hpc, hbusy⟩
      rw [hs.quiet hidle cmd (List.mem_of_getElem? hc)] at halive
      cases halive
    obtain ⟨pc, hpc, hb⟩ := hbusy
    exact ⟨(hs.holds pc hpc hb).cmd_eq hc halive, pc, hpc, hb⟩
  · have hruns : Runs s.cmd s.cmds c true := hs.holds _ hmem rfl
    exact hruns.current
  · exact hs.quiet (hs.toInv.idle_of_stopped hrun hflight)

/-- A container that is started, exits and is started again. -/
theorem one_process_restarted :
    ∃ s, lifeSystem.ReachableVia AllocatesIdle s ∧ s.running = true ∧
      s.cmds.map ExecCmd.alive = [false, true] ∧ s.cmd = some 1 := by
  have hinit : lifeSystem.ReachableVia AllocatesIdle Life.fresh := .init rfl
  have hreach := hinit.runVia
    (.request .start :: startEvents 0 ++ [.step 1 true, .exit 0] ++
      List.replicate 9 (.step 1 true) ++ .request .start :: startEvents 2) rfl
  exact ⟨_, hreach, rfl, rfl, ((one_process hreach).1 1 _ rfl rfl).1⟩

/-! ## The step that ends the daemon -/

theorem Life.Steady.startStep_panicked {pc : StartPc} {ok : Bool} (hs : s.Steady)
    (hk : s.threads[k]? = some (.start pc)) : (s.startStep k ok pc).panicked = s.panicked := by
  have hmem := List.mem_of_getElem? hk
  have hholds := hs.holds _ hmem
  cases pc with
  | ensureMounted => rfl
  | allocateNetwork => cases ok <;> rfl
  | generateLXCConfig => rfl
  | gateway =>
    have hnet : s.network.isSome = true :=
      Option.isSome_iff_ne_none.mpr ((hs.supported _ hmem).2 rfl)
    simp only [Life.startStep, if_pos hnet]
    rfl
  | newCmd => rfl
  | startCmd =>
    obtain ⟨-, c, cmd, hcmd, hc, -⟩ := hholds rfl
    simp only [Life.startStep, Life.currentCmd, hcmd, Option.bind_some, hc]
    split <;> rfl
  | setRunning =>
    obtain ⟨c, hruns⟩ := hholds rfl
    obtain ⟨cmd, hc, hstarted, -⟩ := hruns.started
    simp only [Life.startStep, Life.currentCmd, hruns.current, Option.bind_some, hc, hstarted,
      if_true]
    rfl
  | save => rfl
  | goMonitor => rfl

theorem Life.Steady.monitorStep_panicked {pc : MonitorPc} (hs : s.Steady)
    (hk : s.threads[k]? = some (.monitor pc)) (hstep : s.monitorStep k pc = some s') :
    s'.panicked = s.panicked := by
  have hmem := List.mem_of_getElem? hk
  have hholds := hs.holds _ hmem
  cases pc with
  | cmdWait =>
    obtain ⟨c, hruns⟩ := hholds rfl
    obtain ⟨cmd, hc, -, -⟩ := hruns.started
    simp only [Life.monitorStep, Life.currentCmd, hruns.current, Option.bind_some, hc] at hstep
    split at hstep <;> cases hstep <;> rfl
  | waiting c =>
    simp only [Life.monitorStep] at hstep
    split at hstep
    · split at hstep
      · cases hstep
        rfl
      · cases hstep
    · cases hstep
  | exitStatus =>
    obtain ⟨-, c, cmd, hcmd, hc, hreaped⟩ := hholds rfl
    simp only [Life.monitorStep, Life.currentCmd, hcmd, Option.bind_some, hc, hreaped,
      if_true] at hstep
    cases hstep
    rfl
  | networkRelease =>
    have hnet : s.network.isSome = true :=
      Option.isSome_iff_ne_none.mpr ((hs.supported _ hmem).2 rfl)
    simp only [Life.monitorStep, if_pos hnet] at hstep
    cases hstep
    rfl
  | networkClear => cases hstep; rfl
  | closeStreams => cases hstep; rfl
  | umount => cases hstep; rfl
  | newStdin => cases hstep; rfl
  | setStopped => cases hstep; rfl
  | save => cases hstep; rfl

/-- `Stop` and `Kill` end the daemon at `Process.Kill()` only, of a command without a process. -/
theorem stopStep_panicked {pc : StopPc} {ok : Bool} (hstep : s.stopStep k ok pc = some s')
    (hlive : s.panicked = false) :
    s'.panicked = true ↔
      (∃ c, pc = .processKill c) ∧ ∀ cmd, s.currentCmd = some cmd → cmd.started = false := by
  have hno : (∀ c, pc ≠ .processKill c) → ¬((∃ c, pc = .processKill c) ∧
      ∀ cmd, s.currentCmd = some cmd → cmd.started = false) :=
    fun hne h => h.1.elim hne
  cases pc with
  | processKill c =>
    simp only [Life.stopStep] at hstep
    split at hstep
    · next cmd hcmd =>
      split at hstep
      · next hstarted =>
        cases hstep
        refine ⟨fun h => absurd (hlive.symm.trans h) Bool.false_ne_true, fun h => ?_⟩
        rw [h.2 cmd hcmd] at hstarted
        cases hstarted
      · next hstarted =>
        cases hstep
        refine ⟨fun _ => ⟨⟨c, rfl⟩, fun cmd' hcmd' => ?_⟩, fun _ => rfl⟩
        rw [hcmd] at hcmd'
        cases hcmd'
        exact Bool.eq_false_iff.mpr hstarted
    · next hnone =>
      cases hstep
      refine ⟨fun _ => ⟨⟨c, rfl⟩, fun cmd' hcmd' => ?_⟩, fun _ => rfl⟩
      rw [hnone] at hcmd'
      cases hcmd'
  | stop a =>
    cases hstep
    exact iff_of_false (ne_true_of_eq_false hlive) (hno fun _ hpc => StopPc.noConfusion hpc)
  | lxcKill a =>
    cases hstep
    exact iff_of_false (ne_true_of_eq_false hlive) (hno fun _ hpc => StopPc.noConfusion hpc)
  | waitTimeout a =>
    refine iff_of_false ?_ (hno fun _ hpc => StopPc.noConfusion hpc)
    simp only [Life.stopStep] at hstep
    split at hstep
    · split at hstep
      · cases hstep
      · cases hstep
        exact ne_true_of_eq_false hlive
    · cases hstep
      exact ne_true_of_eq_false hlive
  | kill c =>
    cases hstep
    exact iff_of_false (ne_true_of_eq_false hlive) (hno fun _ hpc => StopPc.noConfusion hpc)
  | wait c =>
    refine iff_of_false ?_ (hno fun _ hpc => StopPc.noConfusion hpc)
    simp only [Life.stopStep] at hstep
    split at hstep
    · cases hstep
    · cases hstep
      exact ne_true_of_eq_false hlive

/-- In the same runs nothing ends the daemon but a `Kill`, or a `Stop` that kills: when it calls
    `container.cmd.Process.Kill()` and the current command has no process. Every such step does. -/
theorem panics_iff_kill {s s' : Life} (h : lifeSystem.ReachableVia AllocatesIdle s) {e : Event}
    (hstep : lifeSystem.step s e = some s') :
    s'.panicked = true ↔ ∃ k ok c, e = .step k ok ∧
      s.threads[k]? = some (.stop (.processKill c)) ∧
      ∀ cmd, s.currentCmd = some cmd → cmd.started = false := by
  have hs := Life.steady_of_reachable h
  simp only [lifeSystem, Life.step] at hstep
  split at hstep
  · cases hstep
  next hlive =>
  have hlive : s.panicked = false := Bool.eq_false_iff.mpr hlive
  cases e with
  | request r =>
    cases hstep
    refine iff_of_false (ne_true_of_eq_false hlive) ?_
    rintro ⟨k, ok, c, he, -⟩
    cases he
  | exit c =>
    refine iff_of_false ?_ ?_
    · simp only at hstep
      split at hstep
      · split at hstep
        · cases hstep
          exact ne_true_of_eq_false hlive
        · cases hstep
      · cases hstep
    · rintro ⟨k, ok, c, he, -⟩
      cases he
  | step k ok =>
    obtain ⟨pc, hk, hstep⟩ := Option.bind_eq_some_iff.mp hstep
    have hother : s'.panicked = s.panicked → (∀ pc', pc ≠ .stop pc') → (s'.panicked = true ↔
        ∃ k' ok' c, Event.step k ok = .step k' ok' ∧
          s.threads[k']? = some (.stop (.processKill c)) ∧
          ∀ cmd, s.currentCmd = some cmd → cmd.started = false) := by
      intro hsame hne
      refine iff_of_false (ne_true_of_eq_false (hsame.trans hlive)) ?_
      rintro ⟨k', ok', c, he, hk', -⟩
      cases he
      rw [hk] at hk'
      exact hne _ (Option.some.inj hk')
    cases pc with
    | start pc =>
      cases hstep
      exact hother (hs.startStep_panicked hk) fun _ h => Pc.noConfusion h
    | monitor pc => exact hother (hs.monitorStep_panicked hk hstep) fun _ h => Pc.noConfusion h
    | stop pc =>
      rw [stopStep_panicked hstep hlive]
      constructor
      · rintro ⟨⟨c, rfl⟩, hunstarted⟩
        exact ⟨k, ok, c, rfl, hk, hunstarted⟩
      · rintro ⟨k', ok', c, he, hk', hunstarted⟩
        cases he
        rw [hk] at hk'
        cases hk'
        exact ⟨⟨c, rfl⟩, hunstarted⟩
    | done => cases hstep

/-- A `Kill` finds the container running. The process exits, the monitor reports, and a new `Start`
    has just made its command: now the `Kill` goes on, and ends the daemon. -/
theorem panics_iff_kill_restarting :
    ∃ s s', lifeSystem.ReachableVia AllocatesIdle s ∧ lifeSystem.step s (.step 2 true) = some s' ∧
      s'.panicked = true := by
  have hinit : lifeSystem.ReachableVia AllocatesIdle Life.fresh := .init rfl
  have hreach := hinit.runVia
    (.request .start :: startEvents 0 ++ [.request .kill, .step 2 true, .step 1 true, .exit 0] ++
      List.replicate 9 (.step 1 true) ++ .request .start :: List.replicate 5 (.step 3 true)) rfl
  refine ⟨_, _, hreach, rfl, (panics_iff_kill hreach rfl).mpr ⟨2, true, .client, rfl, rfl, ?_⟩⟩
  intro cmd hcmd
  cases hcmd
  rfl

end Docker.Lifecycle

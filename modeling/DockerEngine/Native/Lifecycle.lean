import DockerEngine.ForStd.System

/-!
# The life of one container (`container.go`)

Requests (`Start`, `Stop`, `Kill`, `Restart`) and monitors of one container are threads
that interleave freely. Between two of its steps a thread holds no lock, so each access
to a field of the container and each operation that can fail is a step of its own. A
thread that dereferences nil ends the daemon (`panicked`): no thread steps any more.

`Stop`, `Kill` and `Restart` change no field themselves; what they do to the process is
an `exit`, which can happen at any time. The mount, the streams and the saved
configuration play no role here and only their steps are kept.
-/

namespace Docker.Lifecycle

/-- An `exec.Cmd`. -/
structure ExecCmd where
  /-- `Process` is not nil. -/
  started : Bool
  /-- `Wait` was called. -/
  waited : Bool
  exited : Bool
  /-- `ProcessState` is not nil. -/
  reaped : Bool
  deriving DecidableEq, Repr

/-- `exec.Command`. -/
def ExecCmd.new : ExecCmd := ⟨false, false, false, false⟩

/-- What follows the end of `Stop`: nothing, or the `Start` of `Restart`. -/
inductive AfterStop where
  | done
  | start
  deriving DecidableEq, Repr

/-- Who called `Kill`: a client, or `Stop` when lxc-kill failed or when time was up. -/
inductive KillCaller where
  | client
  | lxcKillFailed (a : AfterStop)
  | timedOut (a : AfterStop)
  deriving DecidableEq, Repr

/-- The next step of `Start`. -/
inductive StartPc where
  | ensureMounted
  | allocateNetwork
  | generateLXCConfig
  /-- `container.network.Gateway` -/
  | gateway
  | newCmd
  | startCmd
  | setRunning
  | save
  | goMonitor
  deriving DecidableEq, Repr

/-- The next step of a monitor. -/
inductive MonitorPc where
  | cmdWait
  | waiting (c : Nat)
  /-- `container.cmd.ProcessState.Sys()` -/
  | exitStatus
  /-- `container.network.Release()` -/
  | networkRelease
  | networkClear
  | closeStreams
  | umount
  | newStdin
  | setStopped
  | save
  deriving DecidableEq, Repr

/-- The next step of `Stop` or `Kill`. -/
inductive StopPc where
  | stop (a : AfterStop)
  | lxcKill (a : AfterStop)
  | waitTimeout (a : AfterStop)
  | kill (c : KillCaller)
  /-- `container.cmd.Process.Kill()` -/
  | processKill (c : KillCaller)
  | wait (c : KillCaller)
  deriving DecidableEq, Repr

/-- A thread. -/
inductive Pc where
  | start (pc : StartPc)
  | monitor (pc : MonitorPc)
  | stop (pc : StopPc)
  | done
  deriving DecidableEq, Repr

/-- One container, and the threads at work on it. The interfaces are numbered. -/
structure Life where
  network : Option Nat
  cmd : Option Nat
  cmds : List ExecCmd
  running : Bool
  threads : List Pc
  interfaces : Nat
  panicked : Bool
  deriving DecidableEq, Repr

/-- A container that was created or loaded, and not started since. -/
def Life.fresh : Life := ⟨none, none, [], false, [], 0, false⟩

inductive Request where
  | start
  | stop
  | kill
  | restart
  deriving DecidableEq, Repr

def Request.pc : Request → Pc
  | start => .start .ensureMounted
  | stop => .stop (.stop .done)
  | kill => .stop (.kill .client)
  | restart => .stop (.stop .start)

/-- `step k ok` is the next step of thread `k`; `ok` tells whether its operation succeeds
    (and of `waitTimeout`, whether the container stopped in time). -/
inductive Event where
  | request (r : Request)
  | exit (c : Nat)
  | step (k : Nat) (ok : Bool)
  deriving DecidableEq, Repr

/-- Where a thread is after `Stop` returned nil. -/
def AfterStop.pc : AfterStop → Pc
  | done => .done
  | start => .start .ensureMounted

/-- Where a thread is after `Kill` returned nil. -/
def KillCaller.pc : KillCaller → Pc
  | client => .done
  | lxcKillFailed a => .stop (.waitTimeout a)
  | timedOut a => a.pc

namespace Life

/-- The command `container.cmd` points to. -/
def currentCmd (s : Life) : Option ExecCmd := s.cmd.bind fun c => s.cmds[c]?

def crash (s : Life) : Life := { s with panicked := true }

/-- Thread `k` goes on at `pc`. -/
def goto (s : Life) (k : Nat) (pc : Pc) : Life := { s with threads := s.threads.set k pc }

def setNetwork (s : Life) (network : Option Nat) : Life := { s with network }

def setCmds (s : Life) (cmds : List ExecCmd) : Life := { s with cmds }

def setStatus (s : Life) (running : Bool) : Life := { s with running }

/-- The steps of `Start`. A failed operation ends it, and undoes nothing. -/
def startStep (s : Life) (k : Nat) (ok : Bool) : StartPc → Life
  | .ensureMounted => s.goto k (if ok then .start .allocateNetwork else .done)
  | .allocateNetwork =>
    if ok then
      { s with network := some s.interfaces, interfaces := s.interfaces + 1 }.goto k
        (.start .generateLXCConfig)
    else s.goto k .done
  | .generateLXCConfig => s.goto k (if ok then .start .gateway else .done)
  | .gateway => if s.network.isSome then s.goto k (.start .newCmd) else s.crash
  | .newCmd =>
    { s with cmd := some s.cmds.length, cmds := s.cmds ++ [ExecCmd.new] }.goto k (.start .startCmd)
  | .startCmd =>
    match s.cmd, s.currentCmd with
    | some c, some cmd =>
      if ok ∧ cmd.started = false then
        (s.setCmds (s.cmds.set c { cmd with started := true })).goto k (.start .setRunning)
      else s.goto k .done
    | _, _ => s.crash
  -- container.cmd.Process.Pid
  | .setRunning =>
    match s.currentCmd with
    | some cmd => if cmd.started then (s.setStatus true).goto k (.start .save) else s.crash
    | none => s.crash
  | .save => s.goto k (.start .goMonitor)
  | .goMonitor => { s with threads := s.threads.set k .done ++ [.monitor .cmdWait] }

/-- The steps of a monitor. -/
def monitorStep (s : Life) (k : Nat) : MonitorPc → Option Life
  | .cmdWait =>
    match s.cmd, s.currentCmd with
    | some c, some cmd =>
      -- Wait fails at once on a command that was not started or was waited for already
      if cmd.started ∧ cmd.waited = false then
        some ((s.setCmds (s.cmds.set c { cmd with waited := true })).goto k (.monitor (.waiting c)))
      else some (s.goto k (.monitor .exitStatus))
    | _, _ => some s.crash
  | .waiting c =>
    match s.cmds[c]? with
    | some cmd =>
      if cmd.exited then
        some ((s.setCmds (s.cmds.set c { cmd with reaped := true })).goto k (.monitor .exitStatus))
      else none
    | none => none
  | .exitStatus =>
    match s.currentCmd with
    | some cmd => if cmd.reaped then some (s.goto k (.monitor .networkRelease)) else some s.crash
    | none => some s.crash
  | .networkRelease =>
    if s.network.isSome then some (s.goto k (.monitor .networkClear)) else some s.crash
  | .networkClear => some ((s.setNetwork none).goto k (.monitor .closeStreams))
  | .closeStreams => some (s.goto k (.monitor .umount))
  | .umount => some (s.goto k (.monitor .newStdin))
  | .newStdin => some (s.goto k (.monitor .setStopped))
  | .setStopped => some ((s.setStatus false).goto k (.monitor .save))
  | .save => some (s.goto k .done)

/-- The steps of `Stop`, `Kill` and the first half of `Restart`. -/
def stopStep (s : Life) (k : Nat) (ok : Bool) : StopPc → Option Life
  | .stop a => some (s.goto k (if s.running then .stop (.lxcKill a) else a.pc))
  | .lxcKill a =>
    some (s.goto k (if ok then .stop (.waitTimeout a) else .stop (.kill (.lxcKillFailed a))))
  | .waitTimeout a =>
    if ok then if s.running then none else some (s.goto k a.pc)
    else some (s.goto k (.stop (.kill (.timedOut a))))
  | .kill c => some (s.goto k (if s.running then .stop (.processKill c) else c.pc))
  | .processKill c =>
    match s.currentCmd with
    | some cmd =>
      if cmd.started then some (s.goto k (if ok then .stop (.wait c) else .done)) else some s.crash
    | none => some s.crash
  | .wait c => if s.running then none else some (s.goto k c.pc)

/-- The next step of thread `k`, which is at `pc`. -/
def threadStep (s : Life) (k : Nat) (ok : Bool) : Pc → Option Life
  | .start pc => some (s.startStep k ok pc)
  | .monitor pc => s.monitorStep k pc
  | .stop pc => s.stopStep k ok pc
  | .done => none

def step (s : Life) (e : Event) : Option Life :=
  if s.panicked then none
  else
    match e with
    | .request r => some { s with threads := s.threads ++ [r.pc] }
    | .exit c =>
      match s.cmds[c]? with
      | some cmd =>
        if cmd.started ∧ cmd.exited = false then
          some (s.setCmds (s.cmds.set c { cmd with exited := true }))
        else none
      | none => none
    | .step k ok => s.threads[k]?.bind (s.threadStep k ok)

end Life

/-- All runs of a container. -/
def lifeSystem : System Life Event where
  init s := s = Life.fresh
  step := Life.step

end Docker.Lifecycle

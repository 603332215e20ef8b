import DockerEngine.Native.State

/-!
# The fields of the state, one by one (`state.go`, `Container.Wait`)

`setRunning` and `setStopped` assign one field after the other, and nothing holds `Wait` back
between two assignments. Here each assignment and each read is a step of its own, and so are
the steps of the broadcast.

Run `k` has a `Start` and a monitor; the `Start` of the next run follows when the monitor has
set `Running` to false, and the monitor may still be at its other fields then. Any number
of calls of `Wait` are made at any time. `started`, `ended`, `written` and what a call
remembers are ghosts. `StartedAt` is left out.
-/

namespace Docker.Fields

/-- The next step of `setRunning`. -/
inductive StartPc where
  | running (pid : Int)
  | exitCode (pid : Int)
  | pid (pid : Int)
  | lock
  | broadcast
  | unlock
  deriving DecidableEq, Repr

/-- The next step of `setStopped`. -/
inductive StopPc where
  | running
  | pid
  | exitCode
  | lock
  | broadcast
  | unlock
  | done
  deriving DecidableEq, Repr

/-- A goroutine that takes the mutex. -/
inductive Thread where
  | start
  | monitor (k : Nat)
  | waiter (i : Nat)
  deriving DecidableEq, Repr

/-- The monitor of a run, in `setStopped(exitCode)`. -/
structure Monitor where
  pc : StopPc
  exitCode : Int
  deriving DecidableEq, Repr

/-- A call of `Wait`. -/
structure WaitCall where
  pc : WaitPc
  /-- How many runs had been marked running when the call was made. -/
  issued : Nat
  /-- How many runs had ended when it returned. -/
  returned : Nat
  deriving DecidableEq, Repr

structure Runs where
  state : State
  cond : Cond Thread
  start : Option StartPc
  /-- The monitors of the runs whose processes have exited, in their order. -/
  monitors : List Monitor
  waits : List WaitCall
  /-- How many runs have been marked running. -/
  started : Nat
  /-- How many runs have been marked as not running any more. -/
  ended : Nat
  /-- The run whose `setStopped` wrote `ExitCode` last, unless a `setRunning` did. -/
  written : Option Nat
  deriving DecidableEq, Repr

inductive Op where
  /-- `setRunning(pid)` is called. -/
  | start (pid : Int)
  | startStep
  /-- The process has exited, and `setStopped(exitCode)` is called. -/
  | exit (exitCode : Int)
  | monitorStep (k : Nat)
  /-- `Wait` is called. -/
  | wait
  | waitStep (i : Nat)
  deriving DecidableEq, Repr

namespace Runs

def startStep (s : Runs) : Option Runs :=
  match s.start with
  | none => none
  | some (.running pid) =>
    some { s with
      state := { s.state with running := true }
      start := some (.exitCode pid)
      started := s.started + 1 }
  | some (.exitCode pid) =>
    some { s with
      state := { s.state with exitCode := 0 }
      start := some (.pid pid)
      written := none }
  | some (.pid pid) => some { s with state := { s.state with pid }, start := some .lock }
  | some .lock => (s.cond.lock .start).map fun cond => { s with cond, start := some .broadcast }
  | some .broadcast => some { s with cond := s.cond.broadcast, start := some .unlock }
  | some .unlock => (s.cond.unlock .start).map fun cond => { s with cond, start := none }

def setPc (s : Runs) (k : Nat) (m : Monitor) (pc : StopPc) : Runs :=
  { s with monitors := s.monitors.set k { m with pc } }

def monitorStep (s : Runs) (k : Nat) (m : Monitor) : Option Runs :=
  match m.pc with
  | .running =>
    some { s.setPc k m .pid with
      state := { s.state with running := false }
      ended := s.ended + 1 }
  | .pid => some { s.setPc k m .exitCode with state := { s.state with pid := 0 } }
  | .exitCode =>
    some { s.setPc k m .lock with
      state := { s.state with exitCode := m.exitCode }
      written := some k }
  | .lock => (s.cond.lock (.monitor k)).map fun cond => { s.setPc k m .broadcast with cond }
  | .broadcast => some { s.setPc k m .unlock with cond := s.cond.broadcast }
  | .unlock => (s.cond.unlock (.monitor k)).map fun cond => { s.setPc k m .done with cond }
  | .done => none

/-- A call of `Wait` moves on, and leaves the rest alone but for the condition variable. -/
def goto (s : Runs) (i : Nat) (w : WaitCall) (pc : WaitPc) (cond : Cond Thread) : Runs :=
  { s with cond, waits := s.waits.set i { w with pc } }

def waitStep (s : Runs) (i : Nat) (w : WaitCall) : Option Runs :=
  match w.pc with
  | .test => some (s.goto i w (if s.state.running then .lock else .ret) s.cond)
  | .lock => (s.cond.lock (.waiter i)).map (s.goto i w .enqueue)
  | .enqueue => (s.cond.wait (.waiter i)).map (s.goto i w .asleep)
  | .asleep => (s.cond.wake (.waiter i)).map (s.goto i w .unlock)
  | .unlock => (s.cond.unlock (.waiter i)).map (s.goto i w .test)
  | .ret => some (s.goto i { w with returned := s.ended } (.done s.state.exitCode) s.cond)
  | .done _ => none

def step (s : Runs) : Op → Option Runs
  | .start pid =>
    if s.start = none ∧ s.started = s.ended then some { s with start := some (.running pid) }
    else none
  | .startStep => s.startStep
  | .exit exitCode =>
    -- Start begins the monitor when setRunning has returned
    if s.start = none ∧ s.monitors.length < s.started then
      some { s with monitors := s.monitors ++ [⟨.running, exitCode⟩] }
    else none
  | .monitorStep k => s.monitors[k]?.bind fun m => s.monitorStep k m
  | .wait => some { s with waits := s.waits ++ [⟨.test, s.started, 0⟩] }
  | .waitStep i => s.waits[i]?.bind fun w => s.waitStep i w

/-- A container that has never run. -/
def new : Runs := ⟨newState, Cond.new, none, [], [], 0, 0, none⟩

end Runs

/-- All interleavings of the runs of a container with calls of `Wait`. -/
def runSystem : System Runs Op where
  init s := s = Runs.new
  step := Runs.step

end Docker.Fields

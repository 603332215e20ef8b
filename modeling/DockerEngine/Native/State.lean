import DockerEngine.Go.Cond
import DockerEngine.ForStd.System
import Mathlib.Logic.Function.Basic

/-!
# Waiting for a container (`state.go`, `Container.Wait`)

`setRunning` and `setStopped` write the fields of the state and then broadcast under the
mutex of the condition variable; `Wait` tests `Running` without it. Here one goroutine
makes the changes of a run, any number of others are in `Wait`, and an event is one
atomic step of one of them. `StartedAt` is left out.
-/

namespace Docker

structure State where
  running : Bool
  pid : Int
  exitCode : Int
  deriving DecidableEq, Repr

def newState : State := ⟨false, 0, 0⟩

/-- The assignments of `setRunning`, before it broadcasts. -/
def State.setRunning (_ : State) (pid : Int) : State := ⟨true, pid, 0⟩

/-- The assignments of `setStopped`, before it broadcasts. -/
def State.setStopped (_ : State) (exitCode : Int) : State := ⟨false, 0, exitCode⟩

/-- A call of one of the two setters. -/
inductive Change where
  | setRunning (pid : Int)
  | setStopped (exitCode : Int)
  deriving DecidableEq, Repr

def Change.apply (s : State) : Change → State
  | .setRunning pid => s.setRunning pid
  | .setStopped exitCode => s.setStopped exitCode

/-- The next step of a setter. -/
inductive SetterPc where
  | write
  | lock
  | broadcast
  | unlock
  deriving DecidableEq, Repr

/-- The next step of `Wait`. -/
inductive WaitPc where
  /-- `for container.State.Running` -/
  | test
  | lock
  /-- in `Cond.Wait`, still holding the mutex -/
  | enqueue
  /-- in `Cond.Wait`, after releasing the mutex -/
  | asleep
  | unlock
  /-- `return container.State.ExitCode` -/
  | ret
  | done (exitCode : Int)
  deriving DecidableEq, Repr

inductive Thread (ι : Type u) where
  | setter
  | waiter (i : ι)
  deriving DecidableEq, Repr

/-- The state of a container, the changes still to be made to it, and its waiters. -/
structure Waiting (ι : Type u) where
  state : State
  cond : Cond (Thread ι)
  changes : List Change
  setterPc : SetterPc
  waitPc : ι → WaitPc

namespace Waiting

variable {ι : Type u} [DecidableEq ι]

def setterStep (s : Waiting ι) : Option (Waiting ι) :=
  match s.changes, s.setterPc with
  | [], _ => none
  | change :: _, .write => some { s with state := change.apply s.state, setterPc := .lock }
  | _ :: _, .lock => (s.cond.lock .setter).map fun cond => { s with cond, setterPc := .broadcast }
  | _ :: _, .broadcast => some { s with cond := s.cond.broadcast, setterPc := .unlock }
  | _ :: changes, .unlock =>
    (s.cond.unlock .setter).map fun cond => { s with cond, changes, setterPc := .write }

/-- A waiter moves on, and leaves the rest alone but for the condition variable. -/
def goto (s : Waiting ι) (i : ι) (pc : WaitPc) (cond : Cond (Thread ι)) : Waiting ι :=
  { s with cond, waitPc := Function.update s.waitPc i pc }

def waitStep (s : Waiting ι) (i : ι) : Option (Waiting ι) :=
  match s.waitPc i with
  | .test =>
    if s.state.running then some (s.goto i .lock s.cond) else some (s.goto i .ret s.cond)
  | .lock => (s.cond.lock (.waiter i)).map (s.goto i .enqueue)
  | .enqueue => (s.cond.wait (.waiter i)).map (s.goto i .asleep)
  | .asleep => (s.cond.wake (.waiter i)).map (s.goto i .unlock)
  | .unlock => (s.cond.unlock (.waiter i)).map (s.goto i .test)
  | .ret => some (s.goto i (.done s.state.exitCode) s.cond)
  | .done _ => none

def step (s : Waiting ι) : Thread ι → Option (Waiting ι)
  | .setter => s.setterStep
  | .waiter i => s.waitStep i

/-- One run of a container is ahead, and everyone may call `Wait`. -/
def start (pid exitCode : Int) : Waiting ι :=
  ⟨newState, Cond.new, [.setRunning pid, .setStopped exitCode], .write, fun _ => .test⟩

end Waiting

/-- All interleavings of one run with any number of waiters. -/
def waitSystem (ι : Type u) [DecidableEq ι] : System (Waiting ι) (Thread ι) where
  init s := ∃ pid exitCode, s = Waiting.start pid exitCode
  step := Waiting.step

end Docker

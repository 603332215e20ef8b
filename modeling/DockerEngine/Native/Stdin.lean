import DockerEngine.Go.Pipe
import DockerEngine.ForStd.System

/-!
# The stdin of a container over its runs (`container.go`)

A container with an open stdin and without a tty has a pipe, of which the goroutine that
`start` spawns reads one end and a client writes to the other. The goroutine looks up
`container.stdin` when it gets to run, not when it is spawned. The monitor gives the
container a new pipe at the end of a run, before `setStopped`.

A client takes the pipe while the container is stopped and then calls `Start`. It may write
and close at any time. `stdin` stands for both ends, `container.stdin` and
`container.stdinPipe`, which are replaced together. `pipe` and `taken` are ghosts.
-/

namespace Docker.Stdin

/-- Where the goroutine of a run is: not scheduled yet, in a `Read` of pipe `p`, in a `Write` to
    the process, or at its end. -/
inductive Copier where
  | spawned
  | reading (p : Nat)
  | writing (p : Nat) (chunk : List UInt8)
  | done
  deriving DecidableEq, Repr

structure Run where
  /-- The pipe the client has taken for this run. -/
  pipe : Nat
  copier : Copier
  /-- The process can be written to. -/
  stdinOpen : Bool
  /-- What was written to the process. -/
  handed : List UInt8
  /-- What the goroutine has read, of whatever pipe. -/
  taken : List UInt8
  deriving DecidableEq, Repr

/-- Stopped; in `start`, behind the `go`; running; in `monitor`, behind `cmd.Wait` and behind
    the new pipe. -/
inductive Phase where
  | stopped
  | starting
  | running
  | exited
  | renewed
  deriving DecidableEq, Repr

structure Container where
  stdin : Nat
  pipes : List Pipe
  phase : Phase
  runs : List Run
  deriving DecidableEq, Repr

inductive Op where
  /-- `Start`, up to the `go` in `start`. -/
  | start
  /-- `cmd.Start`, which can fail. -/
  | cmdStart (ok : Bool)
  | exit
  | monitor
  /-- A step of the goroutine of run `k`; a read gets up to `n` bytes. -/
  | copy (k n : Nat)
  | write (p : Nat) (b : List UInt8)
  | close (p : Nat)
  deriving DecidableEq, Repr

namespace Container

/-- The process of the last run is gone, and its end of the pipe of `cmd.StdinPipe` closed. -/
def closeStdin (s : Container) : Container :=
  { s with runs := s.runs.modify (s.runs.length - 1) fun r => { r with stdinOpen := false } }

/-- `io.Copy(stdin, container.stdin)`. -/
def copyStep (s : Container) (k n : Nat) (r : Run) : Option Container :=
  match r.copier with
  | .spawned => some { s with runs := s.runs.set k { r with copier := .reading s.stdin } }
  | .reading p =>
    match s.pipes[p]? with
    | none => none
    | some pipe =>
      if n = 0 then none
      else
        match pipe.take n with
        | some (chunk, pipe) =>
          some { s with
            pipes := s.pipes.set p pipe
            runs := s.runs.set k
              { r with copier := .writing p chunk, taken := r.taken ++ chunk } }
        | none =>
          if pipe.atEnd then some { s with runs := s.runs.set k { r with copier := .done } }
          else none
  | .writing p chunk =>
    if r.stdinOpen then
      some { s with
        runs := s.runs.set k { r with copier := .reading p, handed := r.handed ++ chunk } }
    else some { s with runs := s.runs.set k { r with copier := .done } }
  | .done => none

def step (s : Container) : Op → Option Container
  | .start =>
    if s.phase = .stopped then
      some { s with
        phase := .starting
        runs := s.runs ++ [⟨s.stdin, .spawned, true, [], []⟩] }
    else none
  | .cmdStart ok =>
    if s.phase = .starting then
      if ok then some { s with phase := .running }
      else some { s.closeStdin with phase := .stopped }
    else none
  | .exit => if s.phase = .running then some { s.closeStdin with phase := .exited } else none
  | .monitor =>
    match s.phase with
    | .exited =>
      some { s with stdin := s.pipes.length, pipes := s.pipes ++ [Pipe.new], phase := .renewed }
    | .renewed => some { s with phase := .stopped }
    | _ => none
  | .copy k n => s.runs[k]?.bind (s.copyStep k n)
  | .write p b =>
    -- a write begins when the one before it is over
    (s.pipes[p]?.bind fun pipe => if pipe.data = [] then pipe.offer b else none).map fun pipe =>
      { s with pipes := s.pipes.set p pipe }
  | .close p =>
    (s.pipes[p]?.bind fun pipe =>
      if pipe.data = [] then some pipe.closeWriter else none).map fun pipe =>
        { s with pipes := s.pipes.set p pipe }

/-- A container that was created or loaded. -/
def new : Container := ⟨0, [Pipe.new], .stopped, []⟩

end Container

/-- All sequences of runs of a container. -/
def stdinSystem : System Container Op where
  init s := s = .new
  step := Container.step

end Docker.Stdin

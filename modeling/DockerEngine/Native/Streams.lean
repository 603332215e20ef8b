import DockerEngine.Go.Pipe
import DockerEngine.ForStd.System

/-!
# The stdout of a container over its runs (`utils.go`, `container.go`)

`writeBroadcaster` hands what the process writes to all its writers: the log file and the
pipes that were attached with `StdoutPipe`. A writer that fails is evicted. The monitor
closes all writers at the end of a run, but leaves them in the list.

Runs follow one another, and pipes are attached between them. Without a tty, `cmd.Wait`
returns when everything was copied, so all writes of a run come before its `Close`. The log
file takes everything it is given. `outputs` and `runOf` are ghosts.
-/

namespace Docker

/-- A writer of the broadcaster: the log file, behind a `NopWriteCloser`, or a pipe. -/
inductive Writer where
  | log
  | pipe (i : Nat)
  deriving DecidableEq, Repr

/-- A broadcaster and what its writers write to. -/
structure Broadcaster where
  writers : List Writer
  pipes : List Pipe
  log : List UInt8
  deriving DecidableEq, Repr

namespace Broadcaster

/-- One more writer, at the end. -/
def addWriter (w : Broadcaster) (writer : Writer) : Broadcaster :=
  { w with writers := w.writers ++ [writer] }

/-- `writer.Write(p)`, and whether it wrote everything. -/
def writeTo (w : Broadcaster) (p : List UInt8) (cut : Nat → Option Nat) :
    Writer → Bool × Broadcaster
  | .log => (true, { w with log := w.log ++ p })
  | .pipe i =>
    match w.pipes[i]? with
    | none => (false, w)
    | some pipe =>
      ((pipe.write p (cut i)).1, { w with pipes := w.pipes.set i (pipe.write p (cut i)).2 })

/-- The loop of `Write`, with the writers that did not fail. -/
def writeLoop (p : List UInt8) (cut : Nat → Option Nat) :
    List Writer → Broadcaster → List Writer × Broadcaster
  | [], w => ([], w)
  | writer :: rest, w =>
    let (ok, w) := w.writeTo p cut writer
    let (kept, w) := writeLoop p cut rest w
    (if ok then writer :: kept else kept, w)

/-- `Write`: the writers that failed are evicted. `cut i` tells whether the reader of pipe `i`
    closes its end meanwhile, and after how many bytes. -/
def write (w : Broadcaster) (p : List UInt8) (cut : Nat → Option Nat) : Broadcaster :=
  let (kept, w) := writeLoop p cut w.writers w
  { w with writers := kept }

/-- `writer.Close()`. -/
def closeWriter (w : Broadcaster) : Writer → Broadcaster
  | .log => w
  | .pipe i => { w with pipes := w.pipes.modify i Pipe.closeWriter }

/-- `Close`. -/
def close (w : Broadcaster) : Broadcaster := w.writers.foldl closeWriter w

end Broadcaster

/-- The stdout of a container. -/
structure Streams where
  stdout : Broadcaster
  running : Bool
  /-- What each run has written, the last one so far. -/
  outputs : List (List UInt8)
  /-- The number of the run each pipe was attached for. -/
  runOf : List Nat
  deriving DecidableEq, Repr

/-- `write p cuts` is a write of the process; `cuts` are the pipes whose readers close on the
    way, with the number of bytes they have taken. -/
inductive StreamOp where
  | stdoutPipe
  | start
  | write (p : List UInt8) (cuts : List (Nat × Nat))
  | finish
  | closeReader (i : Nat)
  deriving DecidableEq, Repr

namespace Streams

/-- The process of the current run writes. -/
def output (outputs : List (List UInt8)) (p : List UInt8) : List (List UInt8) :=
  outputs.modify (outputs.length - 1) (· ++ p)

def step (s : Streams) : StreamOp → Option Streams
  | .stdoutPipe =>
    if s.running then none
    else
      let stdout := { s.stdout with pipes := s.stdout.pipes ++ [Pipe.new] }
      some { s with
        stdout := stdout.addWriter (.pipe s.stdout.pipes.length)
        runOf := s.runOf ++ [s.outputs.length] }
  | .start =>
    if s.running then none else some { s with running := true, outputs := s.outputs ++ [[]] }
  | .write p cuts =>
    if s.running then
      some { s with
        stdout := s.stdout.write p fun i => cuts.lookup i
        outputs := output s.outputs p }
    else none
  | .finish =>
    if s.running then some { s with stdout := s.stdout.close, running := false } else none
  | .closeReader i =>
    some { s with stdout := { s.stdout with pipes := s.stdout.pipes.modify i Pipe.closeReader } }

/-- A container that was created or loaded: its broadcaster has the log file alone, which holds
    the output of the runs before. -/
def Opened (s : Streams) : Prop :=
  s.stdout.writers = [.log] ∧ s.stdout.pipes = [] ∧ s.stdout.log = s.outputs.flatten ∧
    s.running = false ∧ s.runOf = []

/-- The number of runs that are over. -/
def finished (s : Streams) : Nat := if s.running then s.outputs.length - 1 else s.outputs.length

end Streams

/-- All sequences of runs of a container. -/
def streamSystem : System Streams StreamOp where
  init := Streams.Opened
  step := Streams.step

end Docker

import DockerEngine.Go.Strconv
import DockerEngine.Native.Stdin
import DockerEngine.Native.Wakeup

/-!
# Attaching to a container (`server/server.go`, `container.go`)

`CmdAttach` takes the pipes that its flags ask for one after the other, spawns a goroutine for each
of them and waits for all of these. The one for stdin copies what the client sends to the pipe of
`StdinPipe`, those for stdout and stderr copy from a `bufReader` until its `Read` returns the end of
file, which it has read when the monitor has closed the stream. `CmdRun -a` copies its input too. It
does not wait for the end of that, but closes the pipe behind it.

The container has an open stdin and no tty, its runs are those of `Stdin.Container`. A client sends,
ends its side of the connection with `CloseWrite`, and takes what is written to it; connections do
not break. What becomes of the bytes of the outputs is left out here. A `Write` to a closed pipe
fails; else it waits until the one before it has returned, for the reader, and fails when the pipe
is closed meanwhile.
-/

namespace Docker.Attach

open Go Stdin

inductive Stream where
  | stdout
  | stderr
  deriving DecidableEq, Repr

/-- What a client attaches to. -/
inductive Part where
  | stdin
  | output (stream : Stream)
  deriving DecidableEq, Repr

def attachFlags : FlagSet := fun name =>
  if name = str "i" ∨ name = str "o" ∨ name = str "e" then some .bool else none

/-- The pipes that `CmdAttach` takes, in this order; `none` when it prints the usage. -/
def attachParts (args : List GoString) : Option (List Part) :=
  match attachFlags.parse args with
  | .error _ => none
  | .ok cmd =>
    if cmd.args.length = 1 then
      some <|
        (if cmd.boolValue (str "i") false then [.stdin] else []) ++
        (if cmd.boolValue (str "o") true then [.output .stdout] else []) ++
        (if cmd.boolValue (str "e") true then [.output .stderr] else [])
    else none

/-- Where `io.Copy(c_stdin, stdin)` is: in a `Read` of the connection, before a `Write` of what it
    has read, in the `Write`, or at its end. -/
inductive Pump where
  | reading
  | offering (chunk : List UInt8)
  | writing
  | done
  deriving DecidableEq, Repr

structure Input where
  /-- The pipe that `StdinPipe` returned. -/
  pipe : Nat
  /-- The goroutine is that of `CmdRun`, which closes the pipe. -/
  closes : Bool
  pump : Pump
  /-- What the client has sent and the goroutine has not read. -/
  unread : List UInt8
  hungUp : Bool
  deriving DecidableEq, Repr

/-- `io.Copy` has returned. -/
def Input.ended (i : Input) (pipe : Pipe) : Input × Pipe :=
  ({ i with pump := .done }, if i.closes then pipe.closeWriter else pipe)

/-- `io.Copy(c_stdin, stdin)`: what becomes of the goroutine and of its pipe. -/
def Input.step (i : Input) (pipe : Pipe) (unlocked : Bool) (n : Nat) : Option (Input × Pipe) :=
  match i.pump with
  | .reading =>
    if i.unread = [] then
      if i.hungUp then some (i.ended pipe) else none
    else if n = 0 then none
    else
      some ({ i with
        pump := .offering (i.unread.take n)
        unread := i.unread.drop n }, pipe)
  | .offering chunk =>
    match pipe.offer chunk with
    | none => some (i.ended pipe)
    | some pipe => if unlocked then some ({ i with pump := .writing }, pipe) else none
  | .writing =>
    if pipe.data = [] then some ({ i with pump := .reading }, pipe)
    else if pipe.isOpen then none
    else some (i.ended { pipe with data := [] })
  | .done => none

/-- A pipe of the container's `writeBroadcaster`, behind a `bufReader` from which
    `io.Copy(stdout, c_stdout)` reads. The only error of the pipe is the end of file. -/
structure Output where
  stream : Stream
  /-- The monitor has closed the pipe. -/
  closed : Bool
  reader : Wakeup.BufReader Unit
  deriving DecidableEq, Repr

/-- The `Read` of `drain` on the pipe returns, with what the process has written or with the end
    of file; `drain` goes on; `io.Copy` does. -/
inductive OutputOp where
  | pipe (b : List UInt8)
  | drain
  | copy
  deriving DecidableEq, Repr

namespace Output

/-- `io.Copy` has returned. -/
def done (o : Output) : Bool :=
  match o.reader.client with
  | .ended _ => true
  | _ => false

def step (o : Output) (running : Bool) : OutputOp → Option Output
  | .pipe b =>
    if o.closed then (o.reader.sourceStep (.ended ())).map fun reader => { o with reader }
    else if running then (o.reader.sourceStep (.having b)).map fun reader => { o with reader }
    else none
  | .drain => o.reader.drainStep.map fun reader => { o with reader }
  | .copy =>
    if o.done then none else (o.reader.readStep (32 * 1024)).map fun reader => { o with reader }

/-- The monitor has closed a stream. -/
def close (stream : Stream) (o : Output) : Output :=
  if o.stream = stream then { o with closed := true } else o

end Output

/-- A `CmdAttach`: what it has still to attach to, and what it waits for. -/
structure Call where
  todo : List Part
  input : Option Nat
  outputs : List Output
  deriving DecidableEq, Repr

structure Attached where
  container : Stdin.Container
  /-- What the monitor closes before it makes the new pipe. -/
  toClose : List Stream
  inputs : List Input
  calls : List Call
  deriving DecidableEq, Repr

inductive Op where
  | start
  | cmdStart (ok : Bool)
  | exit
  | closeStream
  | monitor
  /-- A step of the goroutine that feeds the process of run `k`. -/
  | copy (k n : Nat)
  /-- `CmdRun -a` gets the pipe. -/
  | run
  | attach (args : List GoString)
  /-- Call `k` attaches to the next part. -/
  | next (k : Nat)
  | send (j : Nat) (b : List UInt8)
  | hangUp (j : Nat)
  /-- A step of the goroutine of input `j`; a read gets up to `n` bytes. -/
  | pump (j n : Nat)
  /-- A step of output `m` of call `k`. -/
  | output (k m : Nat) (op : OutputOp)
  deriving DecidableEq, Repr

namespace Attached

def setContainer (s : Attached) (container : Stdin.Container) : Attached := { s with container }

def setInput (s : Attached) (j : Nat) (i : Input) : Attached :=
  { s with inputs := s.inputs.set j i }

def setCall (s : Attached) (k : Nat) (c : Call) : Attached := { s with calls := s.calls.set k c }

def setPipe (s : Attached) (p : Nat) (pipe : Pipe) : Attached :=
  s.setContainer { s.container with pipes := s.container.pipes.set p pipe }

/-- Nobody is in a `Write` of the pipe. -/
def unlocked (s : Attached) (p : Nat) : Bool :=
  s.inputs.all fun i => !(i.pipe = p ∧ i.pump = .writing)

/-- `StdinPipe`, and the goroutine that copies to it. -/
def addInput (s : Attached) (closes : Bool) : Attached :=
  { s with inputs := s.inputs ++ [⟨s.container.stdin, closes, .reading, [], false⟩] }

/-- A step of the goroutine of input `j`. -/
def pumpStep (s : Attached) (j n : Nat) (i : Input) : Option Attached :=
  s.container.pipes[i.pipe]?.bind fun pipe =>
    (i.step pipe (s.unlocked i.pipe) n).map fun (i', pipe') =>
      (s.setInput j i').setPipe i.pipe pipe'

/-- The next part of `CmdAttach`. -/
def nextStep (s : Attached) (k : Nat) (c : Call) : Option Attached :=
  match c.todo with
  | [] => none
  | .stdin :: todo =>
    some ((s.addInput false).setCall k { c with
      todo
      input := some s.inputs.length })
  | .output stream :: todo =>
    some (s.setCall k { c with
      todo
      outputs := c.outputs ++ [⟨stream, false, .new⟩] })

def outputStep (s : Attached) (k m : Nat) (op : OutputOp) (c : Call) : Option Attached :=
  c.outputs[m]?.bind fun o =>
    (o.step (s.container.phase = .running) op).map fun o' =>
      s.setCall k { c with outputs := c.outputs.set m o' }

def step (s : Attached) : Op → Option Attached
  | .start => (s.container.step .start).map s.setContainer
  | .cmdStart ok => (s.container.step (.cmdStart ok)).map s.setContainer
  | .exit =>
    (s.container.step .exit).map fun container =>
      { s.setContainer container with toClose := [.stdout, .stderr] }
  | .closeStream =>
    match s.toClose with
    | [] => none
    | stream :: toClose =>
      some { s with
        toClose
        calls := s.calls.map fun c => { c with outputs := c.outputs.map (Output.close stream) } }
  | .monitor =>
    if s.toClose = [] then (s.container.step .monitor).map s.setContainer else none
  | .copy k n => (s.container.step (.copy k n)).map s.setContainer
  | .run => some (s.addInput true)
  | .attach args =>
    (attachParts args).map fun parts => { s with calls := s.calls ++ [⟨parts, none, []⟩] }
  | .next k => s.calls[k]?.bind (s.nextStep k)
  | .send j b =>
    s.inputs[j]?.bind fun i =>
      if i.hungUp then none else some (s.setInput j { i with unread := i.unread ++ b })
  | .hangUp j => s.inputs[j]?.map fun i => s.setInput j { i with hungUp := true }
  | .pump j n => s.inputs[j]?.bind (s.pumpStep j n)
  | .output k m op => s.calls[k]?.bind (s.outputStep k m op)

/-- `wg.Wait` has returned. -/
def returned (s : Attached) (c : Call) : Bool :=
  c.todo.isEmpty &&
    (c.input.all fun j => s.inputs[j]?.all fun i => i.pump = .done) &&
    c.outputs.all Output.done

/-- A container that was created or loaded, and nobody is attached. -/
def new : Attached := ⟨.new, [], [], []⟩

end Attached

def attachSystem : System Attached Op where
  init s := s = .new
  step := Attached.step

end Docker.Attach

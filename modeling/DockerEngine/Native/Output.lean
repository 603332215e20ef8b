import DockerEngine.Native.Streams

/-!
# The output of one run, step by step (`utils.go`, `container.go`)

Between the process and a client of `StdoutPipe` there are three queues and four
goroutines:

- what the process has written waits in an operating system pipe, or in a terminal
- a copier hands it on to the writers of the broadcaster, one after the other: the one of
  package `exec`, for which `cmd.Wait` waits, or with a tty the one of `startPty`, for which
  nothing waits and which closes the broadcaster itself
- the pipe of `StdoutPipe` holds the rest of the write in progress
- `drain` moves the bytes of the pipe to the buffer of its `bufReader`, and `Read` takes them
  from there
- `monitor` closes the broadcaster when `cmd.Wait` has returned

Each step below is what one of them does between two points at which another one can act.
`Close` goes through the writers it finds when it begins. A terminal that `pty.Open` has opened
passes on a newline as a carriage return and a newline, unless the process sets it otherwise.
`written` and `yielded` are ghosts.
-/

namespace Docker.Output

/-- Where `drain` is: in `Read`, with what `Read` returned, at the signal (the last one after
    an error), or at its end. -/
inductive Drain where
  | reading
  | got (b : List UInt8)
  | failed
  | signalling (last : Bool)
  | done
  deriving DecidableEq, Repr

/-- Where the client is: between two calls of `Read`; in `Read`, at the buffer, at the check of
    the error, in front of the lock, in `Wait`; or behind the call that returned the error. -/
inductive Client where
  | idle
  | buffer (n : Nat)
  | check (n : Nat)
  | lock (n : Nat)
  | waiting (n : Nat)
  | ended
  deriving DecidableEq, Repr

/-- `wait.Signal()`: a client that waits goes back to the buffer. -/
def Client.signal : Client → Client
  | waiting n => buffer n
  | client => client

/-- A pipe of `StdoutPipe` with its `bufReader` and its client. -/
structure BufReader where
  pipe : Pipe
  drain : Drain
  buf : List UInt8
  err : Bool
  client : Client
  /-- What the client was given. -/
  yielded : List UInt8
  deriving DecidableEq, Repr

namespace BufReader

/-- `newBufReader`, of a new pipe. -/
def new : BufReader := ⟨Pipe.new, .reading, [], false, .idle, []⟩

def drainStep (r : BufReader) : Option BufReader :=
  match r.drain with
  | .reading =>
    if r.pipe.readerClosed then some { r with drain := .failed }
    else
      match r.pipe.take 1024 with
      | some (b, pipe) => some { r with pipe, drain := .got b }
      | none => if r.pipe.atEnd then some { r with drain := .failed } else none
  | .got b => some { r with buf := r.buf ++ b, drain := .signalling false }
  | .failed => some { r with err := true, drain := .signalling true }
  | .signalling last =>
    some { r with client := r.client.signal, drain := if last then .done else .reading }
  | .done => none

/-- The client calls `Read` with `n` bytes, or goes on with its call. -/
def readStep (r : BufReader) (n : Nat) : Option BufReader :=
  match r.client with
  | .idle => some { r with client := .buffer n }
  | .buffer n =>
    if r.buf.take n ≠ [] then
      some { r with
        buf := r.buf.drop n
        yielded := r.yielded ++ r.buf.take n
        client := .idle }
    else some { r with client := .check n }
  | .check n => some { r with client := if r.err then .ended else .lock n }
  | .lock n => some { r with client := .waiting n }
  | .waiting _ | .ended => none

end BufReader

/-- Where the copier is: in `Read`; in `Write`, in front of the next writer or in the `Write`
    of a pipe, with the writers that follow and those that failed; in the deferred `Close`; or
    at its end. -/
inductive Copier where
  | reading
  | writing (chunk : List UInt8) (todo failed : List Writer)
  | offered (chunk : List UInt8) (i : Nat) (todo failed : List Writer)
  | closing (todo : List Writer)
  | done
  deriving DecidableEq, Repr

/-- Where `monitor` is: in `cmd.Wait`, in `Close`, or behind it. -/
inductive Monitor where
  | waiting
  | closing (todo : List Writer)
  | closed
  deriving DecidableEq, Repr

/-- The output of a terminal with `ONLCR`. -/
def crlf (b : List UInt8) : List UInt8 := b.flatMap fun c => if c = 10 then [13, 10] else [c]

structure State where
  tty : Bool
  /-- The mode of the terminal. -/
  onlcr : Bool
  /-- What the process has written. -/
  written : List UInt8
  exited : Bool
  /-- What the copier has not read yet. -/
  queue : List UInt8
  copier : Copier
  monitor : Monitor
  writers : List Writer
  readers : List BufReader
  deriving DecidableEq, Repr

inductive Op where
  | write (b : List UInt8)
  /-- `tcsetattr`. -/
  | setOnlcr (onlcr : Bool)
  | exit
  /-- A step of the copier; a read gets up to `n` bytes. -/
  | copy (n : Nat)
  | monitor
  | drain (i : Nat)
  /-- A step of the client of pipe `i`; a call of `Read` asks for `n` bytes. -/
  | read (i n : Nat)
  | closeReader (i : Nat)
  deriving DecidableEq, Repr

namespace State

/-- What becomes of a write of the process. -/
def output (s : State) (b : List UInt8) : List UInt8 := if s.tty ∧ s.onlcr then crlf b else b

def closeWriter (s : State) : Writer → State
  | .log => s
  | .pipe i =>
    { s with readers := s.readers.modify i fun r => { r with pipe := r.pipe.closeWriter } }

/-- A write to pipe `i` begins, or fails. -/
def offerTo (s : State) (chunk : List UInt8) (i : Nat) (todo failed : List Writer) : State :=
  match s.readers[i]?.bind fun r => (r.pipe.offer chunk).map fun pipe => { r with pipe } with
  | some r => { s with readers := s.readers.set i r, copier := .offered chunk i todo failed }
  | none => { s with copier := .writing chunk todo (failed ++ [.pipe i]) }

/-- A write to pipe `i` ends when the reader has taken everything, or when an end of the pipe
    is closed. -/
def endWrite (s : State) (chunk : List UInt8) (i : Nat) (todo failed : List Writer) :
    Option State :=
  match s.readers[i]? with
  | none => some { s with copier := .writing chunk todo (failed ++ [.pipe i]) }
  | some r =>
    if r.pipe.data = [] then some { s with copier := .writing chunk todo failed }
    else if r.pipe.isOpen then none
    else
      some { s with
        readers := s.readers.set i { r with pipe := { r.pipe with data := [] } }
        copier := .writing chunk todo (failed ++ [.pipe i]) }

/-- `io.Copy` to the broadcaster, and what is deferred. -/
def copyStep (s : State) (n : Nat) : Option State :=
  match s.copier with
  | .reading =>
    if s.queue.take n ≠ [] then
      some { s with queue := s.queue.drop n, copier := .writing (s.queue.take n) s.writers [] }
    else if s.queue = [] ∧ s.exited then
      some { s with copier := if s.tty then .closing s.writers else .done }
    else none
  | .writing chunk (.log :: todo) failed => some { s with copier := .writing chunk todo failed }
  | .writing chunk (.pipe i :: todo) failed => some (s.offerTo chunk i todo failed)
  | .writing _ [] failed =>
    some { s with writers := s.writers.filter (· ∉ failed), copier := .reading }
  | .offered chunk i todo failed => s.endWrite chunk i todo failed
  | .closing (writer :: todo) => some { s.closeWriter writer with copier := .closing todo }
  | .closing [] => some { s with copier := .done }
  | .done => none

/-- `monitor`, up to the `Close` of the broadcaster. -/
def monitorStep (s : State) : Option State :=
  match s.monitor with
  | .waiting =>
    -- cmd.Wait waits for the copier of package exec
    if s.exited ∧ (s.tty ∨ s.copier = .done) then some { s with monitor := .closing s.writers }
    else none
  | .closing (writer :: todo) => some { s.closeWriter writer with monitor := .closing todo }
  | .closing [] => some { s with monitor := .closed }
  | .closed => none

def stepReader (s : State) (i : Nat) (f : BufReader → Option BufReader) : Option State :=
  (s.readers[i]?.bind f).map fun r => { s with readers := s.readers.set i r }

def step (s : State) : Op → Option State
  | .write b =>
    if s.exited then none
    else some { s with written := s.written ++ b, queue := s.queue ++ s.output b }
  | .setOnlcr onlcr => if s.exited then none else some { s with onlcr }
  | .exit => if s.exited then none else some { s with exited := true }
  | .copy n => s.copyStep n
  | .monitor => s.monitorStep
  | .drain i => s.stepReader i BufReader.drainStep
  | .read i n => s.stepReader i (·.readStep n)
  | .closeReader i =>
    s.stepReader i fun r => some { r with pipe := r.pipe.closeReader }

/-- The beginning of a run. The broadcaster may still have pipes of earlier runs among its
    writers, which are closed; the others are new. -/
structure Started (s : State) : Prop where
  onlcr : s.onlcr = true
  written : s.written = []
  exited : s.exited = false
  queue : s.queue = []
  copier : s.copier = .reading
  monitor : s.monitor = .waiting
  nodup : s.writers.Nodup
  readers : ∀ r ∈ s.readers, r = BufReader.new ∨ r.pipe.isOpen = false

end State

/-- All runs of a process in a container to which pipe `i` was attached before. -/
def outputSystem (i : Nat) : System State Op where
  init s := s.Started ∧ .pipe i ∈ s.writers ∧ s.readers[i]? = some .new
  step := State.step

end Docker.Output

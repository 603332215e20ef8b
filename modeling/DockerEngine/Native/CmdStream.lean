import DockerEngine.ForStd.System
import DockerEngine.Go.OsPipe
import DockerEngine.Go.Str

/-!
# `CmdStream` (`fs/archive.go`)

A command, the pipes of its stdout and stderr, the goroutine that copies its stdout to the
stream and reads its stderr, and the consumer of the stream. The goroutine runs before the
command is started, and the consumer gets the stream after that. The stream is a pipe of Go's:
a write to it returns when the consumer has taken all of it.

The reads of the goroutine may fail.
-/

namespace Docker.CmdStream

open Go

inductive Fd where
  | stdout
  | stderr
  deriving DecidableEq, Repr

/-- What a command does: its writes, and the error of `cmd.Wait` for the way it exits (`none`
    for status zero). -/
structure Cmd where
  writes : List (Fd × List UInt8)
  status : Option GoString
  deriving DecidableEq, Repr

/-- What is written to one of the two. -/
def written (fd : Fd) (writes : List (Fd × List UInt8)) : List UInt8 :=
  writes.flatMap fun write => if write.1 = fd then write.2 else []

/-- The goroutine: in `io.Copy`, at a read or with a write of these bytes to the stream; in
    `ioutil.ReadAll`, with the bytes it has; in `cmd.Wait`, with `errText`; or at its end. -/
inductive Routine where
  | copying
  | passing (data : List UInt8)
  | readingAll (errText : List UInt8)
  | waiting (errText : GoString)
  | done
  deriving DecidableEq, Repr

/-- The sizes of the two pipes. -/
structure Sizes where
  stdout : Nat
  stderr : Nat
  stdout_pos : 0 < stdout
  stderr_pos : 0 < stderr

/-- `yielded` and `ended` are what the consumer was given: the bytes and then the end, with the
    error or `none` for `io.EOF`. -/
structure State (sizes : Sizes) where
  started : Bool
  /-- The writes of the command that are left; the first one may have begun. -/
  writes : List (Fd × List UInt8)
  exited : Bool
  stdout : OsPipe sizes.stdout
  stderr : OsPipe sizes.stderr
  routine : Routine
  /-- How the stream was closed: with an error, or with none. -/
  closed : Option (Option GoString)
  yielded : List UInt8
  ended : Option (Option GoString)
  deriving DecidableEq, Repr

/-- `cmd.Start()`; the command moves up to `k` bytes of a write, or exits; the goroutine goes on,
    with `k` bytes where it reads, or its read fails; the consumer reads up to `n` bytes. -/
inductive Op where
  | start
  | write (k : Nat)
  | exit
  | routine (k : Nat)
  | readFails (text : GoString)
  | read (n : Nat)
  deriving DecidableEq, Repr

variable {sizes : Sizes}

namespace State

def new (cmd : Cmd) : State sizes :=
  ⟨false, cmd.writes, false, .empty, .empty, .copying, none, [], none⟩

/-- A write of the command: a part of it is moved, or it returns when all of it was. -/
def writeStep (s : State sizes) (k : Nat) : Option (State sizes) :=
  if s.started then
    match s.writes with
    | [] => none
    | (_, []) :: writes => some { s with writes }
    | (.stdout, b) :: writes => (s.stdout.put b k).map fun stdout =>
        { s with stdout, writes := (.stdout, b.drop k) :: writes }
    | (.stderr, b) :: writes => (s.stderr.put b k).map fun stderr =>
        { s with stderr, writes := (.stderr, b.drop k) :: writes }
  else none

def exitStep (s : State sizes) : Option (State sizes) :=
  if s.started ∧ s.writes = [] ∧ s.exited = false then some { s with exited := true } else none

/-- `pipeW.CloseWithError(err)`, or `pipeW.Close()` for no error; the first one counts. -/
def close (s : State sizes) (err : Option GoString) : State sizes :=
  { s with closed := s.closed.or (some err) }

/-- A read gets the end of a pipe when it is empty and the command has exited. -/
def routineStep (cmd : Cmd) (s : State sizes) (k : Nat) : Option (State sizes) :=
  match s.routine with
  | .copying =>
    if s.stdout.content = [] then
      if s.exited then some { s with routine := .readingAll [] } else none
    else if k ≤ 32 * 1024 then
      (s.stdout.get k).map fun (data, stdout) => { s with stdout, routine := .passing data }
    else none
  | .passing _ => none
  | .readingAll errText =>
    if s.stderr.content = [] then
      if s.exited then some { s with routine := .waiting errText } else none
    else
      (s.stderr.get k).map fun (b, stderr) =>
        { s with stderr, routine := .readingAll (errText ++ b) }
  | .waiting errText =>
    if s.exited then
      let err := cmd.status.map fun text => text ++ str ": " ++ errText
      some { s.close err with routine := .done }
    else none
  | .done => none

/-- A read of the goroutine fails. -/
def readFailsStep (s : State sizes) (text : GoString) : Option (State sizes) :=
  match s.routine with
  | .copying => some { s.close (some text) with routine := .readingAll [] }
  | .readingAll _ =>
    some { s with routine := .waiting (str "(...couldn't fetch stderr: " ++ text ++ str ")") }
  | _ => none

/-- A read of the consumer: it takes from the write in progress, or is told the end. -/
def readStep (s : State sizes) (n : Nat) : Option (State sizes) :=
  if s.started ∧ s.ended = none then
    match s.routine with
    | .passing data =>
      some { s with
        yielded := s.yielded ++ data.take n
        routine := if data.drop n = [] then .copying else .passing (data.drop n) }
    | _ => s.closed.map fun err => { s with ended := some err }
  else none

def step (cmd : Cmd) (s : State sizes) : Op → Option (State sizes)
  | .start => if s.started then none else some { s with started := true }
  | .write k => s.writeStep k
  | .exit => s.exitStep
  | .routine k => s.routineStep cmd k
  | .readFails text => s.readFailsStep text
  | .read n => s.readStep n

end State

/-- All runs of `CmdStream` with a command. -/
def system (sizes : Sizes) (cmd : Cmd) : System (State sizes) Op where
  init s := s = .new cmd
  step := State.step cmd

end Docker.CmdStream

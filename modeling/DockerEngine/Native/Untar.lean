import DockerEngine.Go.Pipe
import DockerEngine.Go.Str
import DockerEngine.ForStd.System

/-!
# `AddLayer` and its goroutine (`fs/layers.go`, `fs/archive.go`)

`AddLayer` copies the archive into a pipe and then waits for an error on an unbuffered
channel. Its goroutine runs `Untar`: `exec` starts the command, copies the other end of the
pipe into the command's stdin with a goroutine of its own, and `cmd.Wait` returns when the
command has exited and this copy has ended. Nobody closes the reading end of the pipe.

The command may read and exit as it likes. The stdin of the command is a pipe of the kernel,
with a buffer; a write to it fails when the command has exited. The checks before the copy,
the rename after it, and the output of the command are left out.
-/

namespace Docker.Untar

open Go

/-- The next step of `AddLayer`. -/
inductive Main where
  /-- `io.Copy`, at a `Read` of the archive -/
  | read
  /-- `io.Copy`, in a `Write` to the pipe -/
  | write
  /-- `untarW.Close()`, with the error of `io.Copy` -/
  | close (err : Option GoString)
  /-- `<-errors` -/
  | wait
  | returned (err : Option GoString)
  deriving DecidableEq, Repr

/-- The goroutine of `AddLayer`. -/
inductive Worker where
  | spawned
  /-- in `cmd.Wait` -/
  | running
  /-- `errors <- err` -/
  | send (err : Option GoString)
  | ended
  deriving DecidableEq, Repr

/-- The goroutine of `exec` that copies into the command's stdin. -/
inductive Copier where
  | absent
  | reading
  | writing (chunk : List UInt8)
  | done
  deriving DecidableEq, Repr

structure State where
  /-- What the coming reads of the archive return. -/
  chunks : List (List UInt8)
  /-- The error at the end of the archive; `none` for `io.EOF`. -/
  archiveErr : Option GoString
  pipe : Pipe
  main : Main
  worker : Worker
  copier : Copier
  /-- The buffer of the kernel's pipe. -/
  buffer : List UInt8
  /-- How the command has exited. -/
  exit : Option (Option GoString)
  deriving DecidableEq, Repr

/-- The size of the buffer of `io.Copy`. -/
def copyBuffer : Nat := 32768

/-- The size of a pipe's buffer in the kernel. -/
def pipeBuffer : Nat := 65536

inductive Op where
  | read
  | written
  | close
  | receive
  | start (err : Option GoString)
  | take
  | eof
  | fill
  /-- The command reads `n` bytes. -/
  | consume (n : Nat)
  | exit (err : Option GoString)
  | waited
  deriving DecidableEq, Repr

namespace State

/-- `Read` of the archive, and the begin of the `Write`. -/
def read (s : State) : Option State :=
  match s.main, s.chunks with
  | .read, [] => some { s with main := .close s.archiveErr }
  | .read, chunk :: chunks =>
    -- io.Copy does not write nothing
    if chunk = [] then some { s with chunks }
    else
      match s.pipe.offer chunk with
      | some pipe => some { s with chunks, pipe, main := .write }
      | none => some { s with chunks, main := .close (some (str "io: read/write on closed pipe")) }
  | _, _ => none

def close (s : State) : Option State :=
  match s.main with
  | .close err =>
    let s := { s with pipe := s.pipe.closeWriter }
    -- an error is returned at once, and nobody receives from errors any more
    if err.isSome then some { s with main := .returned err } else some { s with main := .wait }
  | _ => none

/-- The copy writes what fits into the kernel's pipe, unless the command has exited. -/
def fill (s : State) : Option State :=
  match s.copier with
  | .writing chunk =>
    if s.exit.isSome then some { s with copier := .done }
    else if s.buffer.length < pipeBuffer then
      let room := pipeBuffer - s.buffer.length
      some { s with
        buffer := s.buffer ++ chunk.take room
        copier := if chunk.drop room = [] then .reading else .writing (chunk.drop room) }
    else none
  | _ => none

def step (s : State) : Op → Option State
  | .read => s.read
  | .written => if s.main = .write ∧ s.pipe.data = [] then some { s with main := .read } else none
  | .close => s.close
  | .receive =>
    match s.main, s.worker with
    | .wait, .send err => some { s with main := .returned err, worker := .ended }
    | _, _ => none
  | .start err =>
    if s.worker = .spawned then
      match err with
      | some err => some { s with worker := .send (some err) }
      | none => some { s with worker := .running, copier := .reading }
    else none
  | .take =>
    if s.copier = .reading then
      (s.pipe.take copyBuffer).map fun (chunk, pipe) => { s with pipe, copier := .writing chunk }
    else none
  | .eof => if s.copier = .reading ∧ s.pipe.atEnd then some { s with copier := .done } else none
  | .fill => s.fill
  | .consume n =>
    if s.worker = .running ∧ s.exit = none ∧ 0 < n ∧ n ≤ s.buffer.length then
      some { s with buffer := s.buffer.drop n }
    else none
  | .exit err =>
    if s.worker = .running ∧ s.exit = none then some { s with exit := some err } else none
  | .waited =>
    match s.worker, s.copier, s.exit with
    | .running, .done, some err => some { s with worker := .send err }
    | _, _, _ => none

/-- `AddLayer` has made the pipe and started its goroutine. -/
def Fresh (s : State) : Prop :=
  s.pipe = Pipe.new ∧ s.main = .read ∧ s.worker = .spawned ∧ s.copier = .absent ∧ s.buffer = [] ∧
    s.exit = none

end State

/-- All runs, for any archive. -/
def untarSystem : System State Op where
  init := State.Fresh
  step := State.step

end Docker.Untar

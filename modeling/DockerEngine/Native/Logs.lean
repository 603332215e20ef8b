import DockerEngine.ForStd.System
import DockerEngine.Go.Flag

/-!
# The logs of the containers (`server/server.go`, `container.go`)

The outputs of a container go to two files in its directory, which are opened for appending when it
is created or loaded. `CmdLogs` opens them again by their names and copies one after the other,
while the container goes on writing and other requests are served. A file that was removed is still
there for those who have it open.

`Destroy` looks the container up, removes its directory when `Stop` has returned, and then its
element; one whose `Stop` fails goes no further. Creating a container and removing a directory
are one step each, and no operation on files fails, unless a directory is missing or exists
already. What a container writes here has come through its broadcasters. The requests come over
TCP, where a panic ends the daemon.
-/

namespace Docker.Logs

open Go

inductive Stream where
  | stdout
  | stderr
  deriving DecidableEq, Repr

/-- A container, and its directory, with the two files (`files` has them by number). -/
structure Container where
  id : GoString
  stdoutLog : Nat
  stderrLog : Nat
  deriving DecidableEq, Repr

def Container.log (c : Container) : Stream → Nat
  | .stdout => c.stdoutLog
  | .stderr => c.stderrLog

/-- Before `StdoutLog` or `StderrLog`, in the `io.Copy` of a file, or at the end. -/
inductive CallPc where
  | opening (stream : Stream)
  | copying (stream : Stream) (file pos : Nat)
  | returned
  deriving DecidableEq, Repr

/-- A `CmdLogs` with the container that `Get` returned. -/
structure Call where
  container : Nat
  pc : CallPc
  reply : GoString
  deriving DecidableEq, Repr

/-- Before `os.RemoveAll`, before `containers.Remove`, or at the end. -/
inductive RemovalPc where
  | stopping
  | removed
  | done
  deriving DecidableEq, Repr

/-- A `Destroy` with the element that it has found. -/
structure Removal where
  id : GoString
  element : Nat
  pc : RemovalPc
  deriving DecidableEq, Repr

structure Site where
  /-- All files, also those that have no name any more. -/
  files : List GoString
  dirs : List Container
  /-- The containers that this daemon ever had. -/
  heap : List Container
  /-- `docker.containers`, as positions in the heap. -/
  containers : List Nat
  calls : List Call
  removals : List Removal
  panicked : Bool
  deriving DecidableEq, Repr

inductive Op where
  | create (id : GoString)
  /-- `Destroy` looks the id up. -/
  | destroy (id : GoString)
  /-- The `os.RemoveAll` of a `Destroy` of this id. -/
  | removeAll (i : Nat) (id : GoString)
  /-- Its `containers.Remove`. -/
  | remove (i : Nat)
  | restart
  /-- The container at a position of the heap writes. -/
  | write (k : Nat) (stream : Stream) (data : GoString)
  | logs (args : List GoString)
  /-- A step of a `CmdLogs`; a read gets up to `n` bytes. -/
  | advance (j n : Nat)
  deriving DecidableEq, Repr

/-- The container that `CmdLogs` is asked for; `none` when it prints the usage. -/
def logsArg (args : List GoString) : Option GoString :=
  match noFlags.parse args with
  | .error _ => none
  | .ok cmd => if cmd.args.length = 1 then some (cmd.arg 0) else none

/-- What comes after the copy of a stream. -/
def afterCopy : Stream → CallPc
  | .stdout => .opening .stderr
  | .stderr => .returned

namespace Site

def file (s : Site) (f : Nat) : GoString := s.files.getD f []

/-- `Get`. -/
def getContainer (s : Site) (id : GoString) : Option Nat :=
  s.containers.find? fun k => s.heap[k]?.any fun c => c.id = id

/-- `StdoutLog`, `StderrLog`: the file that has the name now. -/
def openLog (s : Site) (c : Container) (stream : Stream) : Option Nat :=
  (s.dirs.find? fun d => d.id = c.id).map fun d => d.log stream

def create (s : Site) (id : GoString) : Option Site :=
  if (s.getContainer id).isSome then none
  else if s.dirs.any fun d => d.id = id then none
  else
    let container : Container := ⟨id, s.files.length, s.files.length + 1⟩
    some { s with
      files := s.files ++ [[], []]
      dirs := s.dirs ++ [container]
      heap := s.heap ++ [container]
      containers := s.containers ++ [s.heap.length] }

def destroy (s : Site) (id : GoString) : Option Site :=
  (s.getContainer id).map fun k => { s with removals := s.removals ++ [⟨id, k, .stopping⟩] }

def removeAll (s : Site) (i : Nat) (id : GoString) : Option Site :=
  match s.removals[i]? with
  | some ⟨id', element, .stopping⟩ =>
    if id' = id then
      some { s with
        dirs := s.dirs.filter fun d => d.id ≠ id
        removals := s.removals.set i ⟨id, element, .removed⟩ }
    else none
  | _ => none

/-- An element that has left the list already is not removed again. -/
def remove (s : Site) (i : Nat) : Option Site :=
  match s.removals[i]? with
  | some ⟨id, element, .removed⟩ =>
    some { s with
      containers := s.containers.erase element
      removals := s.removals.set i ⟨id, element, .done⟩ }
  | _ => none

/-- `NewFromDirectory`. Nothing is left of the old daemon. -/
def restart (s : Site) : Site :=
  { s with
    heap := s.dirs
    containers := List.range s.dirs.length
    calls := []
    removals := []
    panicked := false }

def setCall (s : Site) (j : Nat) (call : Call) : Site := { s with calls := s.calls.set j call }

/-- The next step of `CmdLogs`. -/
def callStep (s : Site) (j n : Nat) (call : Call) : Option Site :=
  match call.pc with
  | .opening stream =>
    s.heap[call.container]?.map fun c =>
      match s.openLog c stream with
      -- io.Copy from a nil Reader
      | none => { s with panicked := true }
      | some file => s.setCall j { call with pc := .copying stream file 0 }
  | .copying stream file pos =>
    let chunk := ((s.file file).drop pos).take n
    if n = 0 then none
    else if chunk = [] then some (s.setCall j { call with pc := afterCopy stream })
    else
      some (s.setCall j { call with
        pc := .copying stream file (pos + chunk.length)
        reply := call.reply ++ chunk })
  | .returned => none

/-- A step of a daemon that runs. -/
def liveStep (s : Site) : Op → Option Site
  | .create id => s.create id
  | .destroy id => s.destroy id
  | .removeAll i id => s.removeAll i id
  | .remove i => s.remove i
  | .restart => some s.restart
  | .write k stream data =>
    s.heap[k]?.map fun c => { s with files := s.files.modify (c.log stream) (· ++ data) }
  | .logs args =>
    (logsArg args).bind fun name =>
      (s.getContainer name).map fun k =>
        { s with calls := s.calls ++ [⟨k, .opening .stdout, []⟩] }
  | .advance j n => s.calls[j]?.bind (s.callStep j n)

/-- A daemon that has panicked is at its end, and can be started again. -/
def step (s : Site) (op : Op) : Option Site :=
  if s.panicked ∧ op ≠ .restart then none else s.liveStep op

/-- No containers. -/
def new : Site := ⟨[], [], [], [], [], [], false⟩

end Site

def logSystem : System Site Op where
  init s := s = .new
  step := Site.step

end Docker.Logs

import DockerEngine.Native.Create

/-!
# A `Create` whose operations may fail (`docker.go`, `container.go`)

`Docker.Create` registers the mountpoint, makes the directory of the container, opens its two
log files and saves `config.json`, and returns at the first of these that fails. It undoes
nothing.
-/

namespace Docker.Restore

open Go

/-- The errors that the operations of a call meet. A save that fails has left a `config.json`
    that can be read, or none. -/
structure CreateErrs where
  mountpoint : Option GoString
  mkdir : Option GoString
  stdoutLog : Option GoString
  stderrLog : Option GoString
  save : Option (GoString × Bool)
  deriving DecidableEq, Repr

def CreateErrs.none : CreateErrs := ⟨.none, .none, .none, .none, .none⟩

namespace Site

variable {α : Type}

/-- `os.Mkdir` of the directory of a container. -/
def mkdir (s : Site α) (id : GoString) (err : Option GoString) : Option GoString × Site α :=
  match err with
  | some err => (some err, s)
  | none =>
    if s.hasDir (s.dirPath id) then (some (str "mkdir " ++ s.dirPath id ++ str ": file exists"), s)
    else (none, { s with dirs := s.dirs ++ [(id, none)] })

/-- `container.save()` of a new container. -/
def trySave (s : Site α) (c : Container) (err : Option (GoString × Bool)) :
    Option GoString × Site α :=
  match err with
  | some (err, written) => (some err, if written then s.save c else s)
  | none => (none, s.save c)

/-- `createContainer` from `os.Mkdir` on. -/
def makeFiles (s : Site α) (errs : CreateErrs) (c : Container) : Option GoString × Site α :=
  match s.mkdir c.id errs.mkdir with
  | (some err, s) => (some err, s)
  | (none, s) =>
    match s.openLog c (c.id ++ str "-stdout.log") errs.stdoutLog with
    | some err => (some err, s)
    | none =>
      match s.openLog c (c.id ++ str "-stderr.log") errs.stderrLog with
      | some err => (some err, s)
      | none => s.trySave c errs.save

/-- `createContainer`. -/
def tryCreateContainer (s : Site α) (errs : CreateErrs) (id : GoString) (created : Int)
    (command : GoString) (args : List GoString) (image : Image) (config : Config) :
    Except GoString Container × Site α :=
  let root := s.dirPath id
  match s.store.mountpoint image (pathJoin [root, str "rootfs"]) (pathJoin [root, str "rw"])
      errs.mountpoint with
  | (.error err, store) => (.error err, { s with store })
  | (.ok mountpoint, store) =>
    let container : Container :=
      ⟨id, root, created, command, args, config, mountpoint, newState, image.id⟩
    match makeFiles { s with store } errs container with
    | (some err, s) => (.error err, s)
    | (none, s) => (.ok container, s)

/-- `Docker.Create`. -/
def tryCreate (s : Site α) (errs : CreateErrs) (id : GoString) (created : Int)
    (command : GoString) (args : List GoString) (image : Image) (config : Config) :
    Except GoString Nat × Site α :=
  if (s.getContainerElement id).isSome then
    (.error (str "Container " ++ id ++ str " already exists"), s)
  else
    match s.tryCreateContainer errs id created command args image config with
    | (.error err, s) => (.error err, s)
    | (.ok container, s) => (.ok s.heap.length, s.pushBack container)

end Site

end Docker.Restore

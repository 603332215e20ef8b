import DockerEngine.Native.Restore

/-!
# Concurrent calls of `Create` (`docker.go`, `container.go`)

`Docker.Create` takes no lock. Its steps on the list of containers, on the database and on
files are atomic, and those of different calls may alternate. Any operation on the
database or on files may fail with an error of its own, without effect.
-/

namespace Docker.Restore

open Go

/-- The next step of a call. -/
inductive CreatePc where
  /-- `docker.Exists(id)` -/
  | scan
  /-- `image.Mountpoint` -/
  | insert
  | mkdir (container : Container)
  | stdoutLog (container : Container)
  | stderrLog (container : Container)
  | save (container : Container)
  /-- `docker.containers.PushBack(container)` -/
  | pushBack (container : Container)
  | done (result : Except GoString Nat)

structure CreateCall where
  id : GoString
  created : Int
  command : GoString
  args : List GoString
  image : Image
  config : Config
  pc : CreatePc

/-- A daemon, and the calls of `Create` that were made. -/
structure Creates (α : Type) where
  site : Site α
  calls : List CreateCall

/-- A new call of `Create`, or the next step of one. -/
inductive CreatesOp where
  | call (id : GoString) (created : Int) (command : GoString) (args : List GoString)
      (image : Image) (config : Config)
  | step (i : Nat) (err : Option GoString)

variable {α : Type}

/-- The directory of the container is there to make a log file in it. -/
def Site.openLog (s : Site α) (c : Container) (name : GoString) (err : Option GoString) :
    Option GoString :=
  match err with
  | some err => some err
  | none =>
    if s.hasDir c.root then none
    else some (str "open " ++ pathJoin [c.root, name] ++ str ": no such file or directory")

/-- The container that `createContainer` makes. -/
def CreateCall.container (call : CreateCall) (root : GoString) (mountpoint : Mountpoint) :
    Container :=
  ⟨call.id, root, call.created, call.command, call.args, call.config, mountpoint, newState,
    call.image.id⟩

/-- A step of a call, unless it is over. -/
def CreateCall.step (s : Site α) (call : CreateCall) (err : Option GoString) :
    Option (Site α × CreatePc) :=
  let root := s.dirPath call.id
  match call.pc with
  | .scan =>
    if (s.getContainerElement call.id).isSome then
      some (s, .done (.error (str "Container " ++ call.id ++ str " already exists")))
    else some (s, .insert)
  | .insert =>
    match s.store.mountpoint call.image (pathJoin [root, str "rootfs"])
        (pathJoin [root, str "rw"]) err with
    | (.error err, store) => some ({ s with store }, .done (.error err))
    | (.ok mountpoint, store) =>
      some ({ s with store }, .mkdir (call.container root mountpoint))
  | .mkdir container =>
    match err with
    | some err => some (s, .done (.error err))
    | none =>
      if s.hasDir root then
        some (s, .done (.error (str "mkdir " ++ root ++ str ": file exists")))
      else some ({ s with dirs := s.dirs ++ [(call.id, none)] }, .stdoutLog container)
  | .stdoutLog container =>
    match s.openLog container (call.id ++ str "-stdout.log") err with
    | some err => some (s, .done (.error err))
    | none => some (s, .stderrLog container)
  | .stderrLog container =>
    match s.openLog container (call.id ++ str "-stderr.log") err with
    | some err => some (s, .done (.error err))
    | none => some (s, .save container)
  | .save container =>
    match err with
    | some err => some (s, .done (.error err))
    | none => some (s.save container, .pushBack container)
  | .pushBack container => some (s.pushBack container, .done (.ok s.heap.length))
  | .done _ => none

namespace Creates

def step (s : Creates α) : CreatesOp → Option (Creates α)
  | .call id created command args image config =>
    if PlainName id then
      some { s with calls := s.calls ++ [⟨id, created, command, args, image, config, .scan⟩] }
    else none
  | .step i err =>
    s.calls[i]?.bind fun call =>
      (call.step s.site err).map fun r => ⟨r.1, s.calls.set i { call with pc := r.2 }⟩

/-- The daemon has just loaded its containers. The directories of the repository have
    different names, and each `config.json` was saved for the directory it is in. -/
def Loaded (s : Creates α) : Prop :=
  ∃ s₀ : Site α, (s₀.dirs.map Prod.fst).Nodup ∧
    (∀ d ∈ s₀.dirs, ∀ data ∈ d.2, data.id = d.1) ∧
    s.site = s₀.newFromDirectory ∧ s.calls = []

end Creates

/-- All interleavings of any number of calls. -/
def createsSystem (α : Type) : System (Creates α) CreatesOp where
  init := Creates.Loaded
  step := Creates.step

end Docker.Restore

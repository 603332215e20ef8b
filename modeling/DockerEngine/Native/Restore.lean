import DockerEngine.Native.Docker
import DockerEngine.Native.State

/-!
# Containers on disk (`container.go`, `docker.go`)

A container has a directory in the repository of the daemon. Its exported fields are saved
there in `config.json` when it is created, by `Start`, and by the monitor; `NewFromDirectory`
loads what it finds. Reading the file gives the fields that were written.

Containers are behind pointers: `heap` holds all that the daemon ever had, `containers` the
list of those it knows. A `Start` is three steps (the mount, the launch up to
`setRunning`, the save), and so is a monitor (the unmount, `setStopped`, the save). A `Destroy`
looks its container up, may be in `Stop` for long, and then goes on step by step. `Create` is one
step: nothing happens to its id while it is at work. No operation on files, on the database or on
mounts fails, unless a directory is missing, exists already or is a mountpoint. Network settings,
logs and streams are left out.
-/

namespace Docker.Restore

open Go

structure Config where
  hostname : GoString
  user : GoString
  memory : Int
  memorySwap : Int
  ports : List Int
  tty : Bool
  openStdin : Bool
  deriving DecidableEq, Repr

/-- The exported fields of a container, which are those of `config.json`. -/
structure Container where
  id : GoString
  root : GoString
  created : Int
  path : GoString
  args : List GoString
  config : Config
  mountpoint : Mountpoint
  state : State
  image : GoString
  deriving DecidableEq, Repr

/-- The fields that a restart is to keep. -/
def Container.stopped (c : Container) : Container := { c with state := newState }

/-- A container, and the goroutines at work on it. -/
structure Object where
  container : Container
  /-- `Start`s that have mounted. -/
  starting : Nat
  /-- `Start`s that have called `setRunning`. -/
  launched : Nat
  /-- Processes with their monitors. -/
  processes : Nat
  /-- Monitors that have unmounted. -/
  reporting : Nat
  /-- Monitors that have called `setStopped`. -/
  reported : Nat
  /-- `Destroy`s that have found the container. -/
  destroys : List DestroyCall
  deriving DecidableEq, Repr

/-- A container nobody is at work on. -/
def Object.idle (c : Container) : Object := ⟨c, 0, 0, 0, 0, 0, []⟩

/-- A daemon, with the files it works on. -/
structure Site (α : Type) where
  repository : GoString
  store : Store α
  /-- The roots that are mounted. -/
  mounted : List GoString
  /-- The directories in the repository by name, each with its `config.json`. -/
  dirs : List (GoString × Option Container)
  heap : List Object
  /-- `docker.containers`, as positions in the heap. -/
  containers : List Nat

namespace Site

variable {α : Type}

/-- The containers the daemon knows. -/
def known (s : Site α) : List Container :=
  s.containers.filterMap fun k => (s.heap[k]?).map Object.container

/-- `getContainerElement`. -/
def getContainerElement (s : Site α) (id : GoString) : Option Nat :=
  s.containers.find? fun k => (s.heap[k]?).any fun o => o.container.id = id

/-! ## Files -/

/-- The path of a directory in the repository. -/
def dirPath (s : Site α) (name : GoString) : GoString := pathJoin [s.repository, name]

/-- There is a directory at the path. -/
def hasDir (s : Site α) (path : GoString) : Bool := s.dirs.any fun d => s.dirPath d.1 = path

/-- `container.save()`, which fails without a directory. -/
def save (s : Site α) (c : Container) : Site α :=
  { s with dirs := s.dirs.map fun d => if s.dirPath d.1 = c.root then (d.1, some c) else d }

/-- `os.RemoveAll` of a container root. -/
def removeAll (s : Site α) (path : GoString) : Site α :=
  { s with dirs := s.dirs.filter fun d => s.dirPath d.1 ≠ path }

/-- The same while a filesystem is mounted in it: all but the directory goes. -/
def removeContents (s : Site α) (path : GoString) : Site α :=
  { s with dirs := s.dirs.map fun d => if s.dirPath d.1 = path then (d.1, none) else d }

/-! ## Creating -/

/-- `createContainer`. The directory that is made is the entry `id` of the repository. -/
def createContainer (s : Site α) (id : GoString) (created : Int) (command : GoString)
    (args : List GoString) (image : Image) (config : Config) :
    Except GoString Container × Site α :=
  let root := s.dirPath id
  match s.store.mountpoint image (pathJoin [root, str "rootfs"]) (pathJoin [root, str "rw"])
      none with
  | (.error err, store) => (.error err, { s with store })
  | (.ok mountpoint, store) =>
    let s := { s with store }
    if s.hasDir root then (.error (str "mkdir " ++ root ++ str ": file exists"), s)
    else
      let container : Container :=
        ⟨id, root, created, command, args, config, mountpoint, newState, image.id⟩
      (.ok container, save { s with dirs := s.dirs ++ [(id, none)] } container)

/-- `docker.containers.PushBack` of a container that nobody has got hold of. -/
def pushBack (s : Site α) (container : Container) : Site α :=
  { s with
    heap := s.heap ++ [.idle container]
    containers := s.containers ++ [s.heap.length] }

/-- `Docker.Create`. -/
def create (s : Site α) (id : GoString) (created : Int) (command : GoString)
    (args : List GoString) (image : Image) (config : Config) :
    Except GoString Nat × Site α :=
  if (s.getContainerElement id).isSome then
    (.error (str "Container " ++ id ++ str " already exists"), s)
  else
    match s.createContainer id created command args image config with
    | (.error err, s) => (.error err, s)
    | (.ok container, s) => (.ok s.heap.length, s.pushBack container)

/-! ## Starting and destroying -/

/-- The directory that the root of a mountpoint is made in exists. -/
def hasParent (s : Site α) (mp : Mountpoint) : Bool :=
  s.dirs.any fun d => pathJoin [s.dirPath d.1, str "rootfs"] = mp.root

/-- `Mountpoint.EnsureMounted`: whether it succeeded. -/
def ensureMounted (s : Site α) (mp : Mountpoint) : Outcome (Bool × Site α) :=
  if mp.root ∈ s.mounted then .ret (true, s)
  else
    match s.store.get mp.image with
    -- img.Mount of a nil image
    | none => .panic
    | some img =>
      match s.store.mountRow img mp.root mp.rw with
      | (.error _, store) => .ret (false, { s with store })
      | (.ok mp, store) =>
        -- createFolders
        if s.hasParent mp then .ret (true, { s with store, mounted := mp.root :: s.mounted })
        else .ret (false, { s with store })

def setObj (s : Site α) (k : Nat) (o : Object) : Site α := { s with heap := s.heap.set k o }

/-- `syscall.Unmount`. -/
def unmount (s : Site α) (root : GoString) : Site α :=
  { s with mounted := s.mounted.filter (· ≠ root) }

/-- A step of a `Destroy` of `c`, and the next one; `ok` tells whether `Stop` returned nil. -/
def destroyStep (s : Site α) (c : Container) (call : DestroyCall) (ok : Bool) :
    Option (Site α × Option DestroyPc) :=
  match call.pc with
  | .stop =>
    if ok then
      -- Stop waits for the container
      if c.state.running then none else some (s, some .umount)
    else some (s, none)
  | .umount =>
    if c.mountpoint.root ∈ s.mounted then
      some (s.unmount c.mountpoint.root, some .deregister)
    else some (s, some .removeAll)
  | .deregister =>
    if c.mountpoint.root ∈ s.mounted then some (s, some .removeAll) else some (s, some .delete)
  | .delete =>
    some ({ s with store := s.store.deleteMountpoint c.mountpoint }, some .removeAll)
  | .removeAll =>
    if c.mountpoint.root ∈ s.mounted then some (s.removeContents c.root, some .remove)
    else some (s.removeAll c.root, some .remove)
  | .remove => some ({ s with containers := s.containers.erase call.element }, none)

/-! ## Loading -/

/-- `json.Unmarshal` into a container: the fields of the file replace those it has. -/
def unmarshal (data container : Container) : Container :=
  { container with
    id := data.id, root := data.root, created := data.created, path := data.path,
    args := data.args, config := data.config, mountpoint := data.mountpoint,
    state := data.state, image := data.image }

/-- What a new container struct has in its fields before `Unmarshal`. -/
def blank (mountpoint : Mountpoint) : Container :=
  ⟨[], [], 0, [], [], ⟨[], [], 0, 0, [], false, false⟩, mountpoint, newState, []⟩

/-- `loadContainer` of a directory of the repository; `none` is any of its errors. -/
def loadContainer (s : Site α) (name : GoString) : Option Container :=
  let containerPath := s.dirPath name
  match (lookupRow Prod.fst s.dirs name).bind Prod.snd with
  -- config.json cannot be read
  | none => none
  | some data =>
    match s.store.fetchMountpoint (pathJoin [containerPath, str "rootfs"])
        (pathJoin [containerPath, str "rw"]) with
    -- unregistered mountpoint
    | none => none
    | some mountpoint =>
      let container := unmarshal data (blank mountpoint)
      some { container with state := newState }

/-- `ioutil.ReadDir` sorts by name. -/
def readDir (s : Site α) : List GoString :=
  (s.dirs.map Prod.fst).mergeSort fun a b => decide (a ≤ b)

/-- The containers that `restore` puts in the list. -/
def restore (s : Site α) : List Container := s.readDir.filterMap s.loadContainer

/-- `NewFromDirectory` on the files of a site. The old daemon is gone. -/
def newFromDirectory (s : Site α) : Site α :=
  { s with
    heap := s.restore.map Object.idle
    containers := List.range s.restore.length }

end Site

/-- A step of somebody who has got hold of a container: the parts of a `Start` (`launch` has
    the pid of the process, if one was started), of a monitor, and of `Destroy`: `lookup`, and
    `destroy` for each step of the `i`-th call that has found the container. -/
inductive Act where
  | ensureMounted
  | launch (pid : Option Int)
  | saveStarted
  | exit
  | report (exitCode : Int)
  | saveStopped
  | lookup
  | destroy (i : Nat) (ok : Bool)
  deriving DecidableEq, Repr

/-- What happens to the containers of a daemon, and its restart. -/
inductive SiteOp where
  | create (id : GoString) (created : Int) (command : GoString) (args : List GoString)
      (image : Image) (config : Config)
  | act (k : Nat) (a : Act)
  | restart
  deriving DecidableEq, Repr

def Object.setState (o : Object) (state : State) : Object :=
  { o with container := { o.container with state } }

namespace Site

variable {α : Type}

/-- A step on `o`, which is at position `k` of the heap. -/
def act (s : Site α) (k : Nat) (o : Object) : Act → Option (Site α)
  | .ensureMounted =>
    match s.ensureMounted o.container.mountpoint with
    | .ret (true, s) => some (s.setObj k { o with starting := o.starting + 1 })
    | .ret (false, s) => some s
    | .panic | .block => none
  | .launch pid =>
    if o.starting = 0 then none
    else
      match pid with
      | none => some (s.setObj k { o with starting := o.starting - 1 })
      | some pid =>
        -- generateLXCConfig makes a file in the directory of the container
        if s.hasDir o.container.root then
          some (s.setObj k
            { o.setState (o.container.state.setRunning pid) with
              starting := o.starting - 1, launched := o.launched + 1 })
        else some (s.setObj k { o with starting := o.starting - 1 })
  | .saveStarted =>
    if o.launched = 0 then none
    else
      some ((s.save o.container).setObj k
        { o with launched := o.launched - 1, processes := o.processes + 1 })
  | .exit =>
    if o.processes = 0 then none
    else
      some ((s.unmount o.container.mountpoint.root).setObj k
        { o with processes := o.processes - 1, reporting := o.reporting + 1 })
  | .report exitCode =>
    if o.reporting = 0 then none
    else
      some (s.setObj k
        { o.setState (o.container.state.setStopped exitCode) with
          reporting := o.reporting - 1, reported := o.reported + 1 })
  | .saveStopped =>
    if o.reported = 0 then none
    else some ((s.save o.container).setObj k { o with reported := o.reported - 1 })
  | .lookup =>
    match s.getContainerElement o.container.id with
    -- not found: the error is all there is
    | none => some s
    | some element => some (s.setObj k { o with destroys := o.destroys ++ [⟨element, .stop⟩] })
  | .destroy i ok =>
    o.destroys[i]?.bind fun call =>
      (s.destroyStep o.container call ok).map fun r =>
        r.1.setObj k { o with destroys := setDestroy o.destroys i call r.2 }

def step (s : Site α) : SiteOp → Option (Site α)
  | .create id created command args image config =>
    if PlainName id ∧ s.store.get image.id = some image then
      some (s.create id created command args image config).2
    else none
  | .act k a => s.heap[k]?.bind fun o => s.act k o a
  | .restart => some s.newFromDirectory

/-- A daemon without containers. -/
def Fresh (s : Site α) : Prop := s.dirs = [] ∧ s.heap = [] ∧ s.containers = []

end Site

/-- All runs of the containers of a daemon. -/
def siteSystem (α : Type) : System (Site α) SiteOp where
  init := Site.Fresh
  step := Site.step

end Docker.Restore

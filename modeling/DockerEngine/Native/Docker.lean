import DockerEngine.Native.Store
import DockerEngine.ForStd.System

/-!
# The containers of a daemon and their mountpoints (`docker.go`, `fs/store.go`)

`Create` registers the mountpoint of a container in the store, `Destroy` is to remove it
again. Containers are behind pointers: `heap` holds all that were ever made, and
`containers` is the list of those the daemon knows. Whoever has got hold of a container can
still `Start` or `Destroy` it when the daemon has forgotten it.

Neither `Create` nor `Destroy` takes a lock. Their steps on the list, on the table and on mounts
are atomic, and those of different calls may alternate; a `Destroy` may be in `Stop` for long.

No operation on files, on the database or on mounts fails here; the primary key of the
mountpoints table is checked. Networks are left out, a `Start` that fails in its network is
a `launch` that is not `ok`; so are files and the log lines of `Destroy`.
-/

namespace Docker

open Go

variable {α : Type}

namespace Store

/-- `FetchMountpoint`. -/
def fetchMountpoint (store : Store α) (root rw : GoString) : Option Mountpoint :=
  store.mountpoints.find? fun mp => mp.root = root ∧ mp.rw = rw

/-- The first part of `Image.Mount`: find the row of the mountpoint, or register it. -/
def mountRow (store : Store α) (image : Image) (root rw : GoString) :
    Except GoString Mountpoint × Store α :=
  match store.fetchMountpoint root rw with
  | some mp => (.ok mp, store)
  | none =>
    match store.mountpoint image root rw none with
    | (.error err, store) => (.error (str "Could not create mountpoint: " ++ err), store)
    | (.ok mp, store) => (.ok mp, store)

/-- The deletion in `Deregister`, by the primary key. -/
def deleteMountpoint (store : Store α) (mp : Mountpoint) : Store α :=
  { store with mountpoints := store.mountpoints.filter fun row => row.root ≠ mp.root }

end Store

/-- The next step of the `Create` of a container. -/
inductive CreatePc where
  /-- `image.Mountpoint` -/
  | insert (image : Image)
  /-- `docker.containers.PushBack(container)` -/
  | pushBack
  | done
  | failed (err : GoString)
  deriving DecidableEq, Repr

/-- The next step of a `Destroy`. -/
inductive DestroyPc where
  /-- `container.Stop()` -/
  | stop
  /-- `Umount`, if the filesystem is mounted -/
  | umount
  /-- `Deregister` asks whether the filesystem is mounted again -/
  | deregister
  /-- the deletion of the row -/
  | delete
  /-- `os.RemoveAll(container.Root)` -/
  | removeAll
  /-- `docker.containers.Remove(element)` -/
  | remove
  deriving DecidableEq, Repr

/-- A `Destroy` that has found its container in the list. -/
structure DestroyCall where
  element : Nat
  pc : DestroyPc
  deriving DecidableEq, Repr

/-- The `Destroy`s of a container, after a step of one of them: it has another step to do, or has
    returned. -/
def setDestroy (destroys : List DestroyCall) (i : Nat) (call : DestroyCall) :
    Option DestroyPc → List DestroyCall
  | some pc => destroys.set i { call with pc }
  | none => destroys.eraseIdx i

/-- A container, and the goroutines at work on it: its `Create`, `Start`s that have ensured the
    mount, processes with their monitors, monitors that have unmounted, and `Destroy`s. -/
structure ContainerObj where
  id : GoString
  root : GoString
  mountpoint : Mountpoint
  create : CreatePc
  running : Bool
  starting : Nat
  processes : Nat
  reporting : Nat
  destroys : List DestroyCall
  deriving DecidableEq, Repr

structure Daemon (α : Type) where
  repository : GoString
  store : Store α
  /-- The roots that are mounted. -/
  mounted : List GoString
  heap : List ContainerObj
  /-- `docker.containers`, as positions in the heap. -/
  containers : List Nat

namespace Daemon

/-- The containers the daemon knows. -/
def objects (d : Daemon α) : List ContainerObj := d.containers.filterMap fun k => d.heap[k]?

/-- `getContainerElement`. -/
def getContainerElement (d : Daemon α) (id : GoString) : Option Nat :=
  d.containers.find? fun k => (d.heap[k]?).any fun c => c.id = id

/-- `Docker.Exists`. -/
def containerExists (d : Daemon α) (id : GoString) : Bool := (d.getContainerElement id).isSome

/-- What `createContainer` makes of an id and an image; its mountpoint as it will be registered. -/
def newContainer (d : Daemon α) (id : GoString) (image : Image) : ContainerObj :=
  let root := pathJoin [d.repository, id]
  { id, root
    mountpoint :=
      ⟨image.id, clean (pathJoin [root, str "rootfs"]), clean (pathJoin [root, str "rw"])⟩
    create := .insert image
    running := false
    starting := 0
    processes := 0
    reporting := 0
    destroys := [] }

/-- `Docker.Create` up to `createContainer`: "Container %v already exists", or a new one. -/
def create (d : Daemon α) (id : GoString) (image : Image) : Daemon α :=
  if d.containerExists id then d
  else { d with heap := d.heap ++ [d.newContainer id image] }

/-- `Mountpoint.EnsureMounted`. -/
def ensureMounted (d : Daemon α) (mp : Mountpoint) : Outcome (Option GoString × Daemon α) :=
  if mp.root ∈ d.mounted then .ret (none, d)
  else
    match d.store.get mp.image with
    -- img.Mount of a nil image
    | none => .panic
    | some img =>
      match d.store.mountRow img mp.root mp.rw with
      | (.error err, store) => .ret (some err, { d with store })
      | (.ok mp, store) => .ret (none, { d with store, mounted := mp.root :: d.mounted })

def setObj (d : Daemon α) (k : Nat) (c : ContainerObj) : Daemon α :=
  { d with heap := d.heap.set k c }

/-- `syscall.Unmount`. -/
def unmount (d : Daemon α) (root : GoString) : Daemon α :=
  { d with mounted := d.mounted.filter (· ≠ root) }

/-- The container at a position of the heap, if `Create` has returned it. -/
def object (d : Daemon α) (k : Nat) : Option ContainerObj :=
  (d.heap[k]?).filter fun c => c.create = .done

/-- A step of a `Destroy` of `c`, and the next one; `ok` tells whether `Stop` returned nil. -/
def destroyStep (d : Daemon α) (c : ContainerObj) (call : DestroyCall) (ok : Bool) :
    Option (Daemon α × Option DestroyPc) :=
  match call.pc with
  | .stop =>
    if ok then
      -- Stop waits for the container
      if c.running then none else some (d, some .umount)
    else some (d, none)
  | .umount =>
    if c.mountpoint.root ∈ d.mounted then
      some (d.unmount c.mountpoint.root, some .deregister)
    else some (d, some .removeAll)
  | .deregister =>
    if c.mountpoint.root ∈ d.mounted then some (d, some .removeAll) else some (d, some .delete)
  | .delete =>
    some ({ d with store := d.store.deleteMountpoint c.mountpoint }, some .removeAll)
  | .removeAll => some (d, some .remove)
  | .remove => some ({ d with containers := d.containers.erase call.element }, none)

end Daemon

/-- The steps of the containers of a daemon. `Create` is three of them: `create`, `insert` and
    `pushBack`. `Start` is two: `ensureMounted`, and `launch`, which tells whether a process was
    started. A monitor is two as well. `Destroy` is `lookup`, and a `destroy` for each step of the
    `i`-th call that has found the container. -/
inductive DaemonOp where
  | create (id : GoString) (image : Image)
  | insert (k : Nat)
  | pushBack (k : Nat)
  | ensureMounted (k : Nat)
  | launch (k : Nat) (ok : Bool)
  | exit (k : Nat)
  | report (k : Nat)
  | lookup (k : Nat)
  | destroy (k i : Nat) (ok : Bool)
  deriving DecidableEq, Repr

namespace Daemon

def step (d : Daemon α) : DaemonOp → Option (Daemon α)
  | .create id image =>
    if d.store.get image.id = some image then some (d.create id image) else none
  | .insert k =>
    (d.heap[k]?).bind fun c =>
      match c.create with
      | .insert image =>
        match d.store.mountpoint image (pathJoin [c.root, str "rootfs"])
            (pathJoin [c.root, str "rw"]) none with
        | (.error err, store) => some ({ d with store }.setObj k { c with create := .failed err })
        | (.ok mountpoint, store) =>
          some ({ d with store }.setObj k { c with mountpoint, create := .pushBack })
      | _ => none
  | .pushBack k =>
    (d.heap[k]?).bind fun c =>
      match c.create with
      | .pushBack =>
        some ({ d with containers := d.containers ++ [k] }.setObj k { c with create := .done })
      | _ => none
  | .ensureMounted k =>
    (d.object k).bind fun c =>
      match d.ensureMounted c.mountpoint with
      | .ret (none, d) => some (d.setObj k { c with starting := c.starting + 1 })
      | .ret (some _, d) => some d
      | .panic | .block => none
  | .launch k ok =>
    (d.object k).bind fun c =>
      if c.starting = 0 then none
      else if ok then
        some (d.setObj k
          { c with starting := c.starting - 1, running := true, processes := c.processes + 1 })
      else some (d.setObj k { c with starting := c.starting - 1 })
  | .exit k =>
    (d.object k).bind fun c =>
      if c.processes = 0 then none
      else
        some ((d.unmount c.mountpoint.root).setObj k
          { c with processes := c.processes - 1, reporting := c.reporting + 1 })
  | .report k =>
    (d.object k).bind fun c =>
      if c.reporting = 0 then none
      else some (d.setObj k { c with reporting := c.reporting - 1, running := false })
  | .lookup k =>
    (d.object k).bind fun c =>
      match d.getContainerElement c.id with
      -- not found: the error is all there is
      | none => some d
      | some element => some (d.setObj k { c with destroys := c.destroys ++ [⟨element, .stop⟩] })
  | .destroy k i ok =>
    (d.object k).bind fun c =>
      (c.destroys[i]?).bind fun call =>
        (d.destroyStep c call ok).map fun r =>
          r.1.setObj k { c with destroys := setDestroy c.destroys i call r.2 }

/-- A daemon without containers. -/
def Fresh (d : Daemon α) : Prop :=
  d.store.mountpoints = [] ∧ d.mounted = [] ∧ d.heap = [] ∧ d.containers = []

end Daemon

/-- All runs of the containers of a daemon. -/
def daemonSystem (α : Type) : System (Daemon α) DaemonOp where
  init := Daemon.Fresh
  step := Daemon.step

end Docker

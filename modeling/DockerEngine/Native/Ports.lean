import DockerEngine.Native.Tenancy

/-!
# The published ports of containers (`container.go`, `docker.go`, `server/server.go`)

`allocateNetwork` fills in the network settings of a container, `releaseNetwork` resets
them, and `CmdPort` looks a port up in them. The settings are saved with the container; a
daemon that is restarted reads them back, but its pools and its port mapper are new, and
so is the state of the containers.

A `Start` is one step, and so is the exit of a process with all that its monitor does:
between the parts of a step the settings are in flux. The rest of the configuration of a
container, the text it is saved as (reading it back gives what was written) and the
mountpoint are left out.
-/

namespace Docker

open Go

/-- The number of leading ones, the first result of `net.IPMask.Size`; 0 for a mask that has
    ones after a zero. -/
def IPMask.size (mask : IPMask) : Nat :=
  let bits := (List.range 32).map fun i => (ipToInt mask).getMsbD i
  let ones := (bits.takeWhile (· = true)).length
  if true ∈ bits.drop ones then 0 else ones

namespace Ports

/-- A `map[string]string`: its entries, one for each key. -/
abbrev PortMap := List (GoString × GoString)

def PortMap.set (m : PortMap) (key value : GoString) : PortMap :=
  (key, value) :: m.filter fun entry => entry.1 ≠ key

structure NetworkSettings where
  ipAddress : GoString
  ipPrefixLen : Nat
  gateway : GoString
  portMapping : PortMap
  deriving DecidableEq, Repr

/-- `&NetworkSettings{}`. -/
def NetworkSettings.empty : NetworkSettings := ⟨[], 0, [], []⟩

structure Container where
  id : GoString
  /-- `Config.Ports`. -/
  ports : List Int
  running : Bool
  network : Option NetworkInterface
  networkSettings : NetworkSettings
  /-- The settings in `config.json`. -/
  saved : NetworkSettings
  /-- Processes with their monitors. -/
  processes : Nat
  deriving DecidableEq, Repr

/-- The part of `createContainer` that matters here. -/
def createContainer (id : GoString) (ports : List Int) : Container :=
  ⟨id, ports, false, none, .empty, .empty, 0⟩

namespace Container

def save (c : Container) : Container := { c with saved := c.networkSettings }

def setPortMapping (c : Container) (portMapping : PortMap) : Container :=
  { c with networkSettings := { c.networkSettings with portMapping } }

/-- The loop of `allocateNetwork`. A port that cannot be allocated ends it, with the
    interface released. -/
def allocatePorts : List Int → NetworkInterface → PortMap → Host →
    Outcome (Option GoString × NetworkInterface × PortMap × Host)
  | [], iface, m, h => .ret (none, iface, m, h)
  | port :: ports, iface, m, h => do
    let (res, iface, h) ← iface.allocatePort port h
    match res with
    | .error err =>
      -- the entries made so far stay in the map
      let (_, h) ← iface.release h
      return (some err, iface, m, h)
    | .ok extPort => allocatePorts ports iface (m.set (itoa port) (itoa extPort)) h

def allocateNetwork (c : Container) (h : Host) : Outcome (Option GoString × Container × Host) :=
  match NetworkManager.allocate h with
  | (.error err, h) => .ret (some err, c, h)
  | (.ok iface, h) => do
    let (err, iface, portMapping, h) ← allocatePorts c.ports iface [] h
    let c := c.setPortMapping portMapping
    match err with
    | some err => return (some err, c, h)
    | none =>
      return (none,
        { c with
          network := some iface
          networkSettings :=
            ⟨iface.ipNet.ip.string, iface.ipNet.mask.size, iface.gateway.string, portMapping⟩ }, h)

/-- Without a network `container.network.Release()` is a nil dereference. -/
def releaseNetwork (c : Container) (h : Host) : Outcome (Option GoString × Container × Host) :=
  match c.network with
  -- container.network is nil
  | none => .panic
  | some iface => do
    let (err, h) ← iface.release h
    return (err, { c with network := none, networkSettings := .empty }, h)

/-- `Start`. `mounted` tells whether `EnsureMounted` succeeds, `spawned` whether
    `generateLXCConfig` and the start of the command do. -/
def start (c : Container) (mounted spawned : Bool) (h : Host) : Outcome (Container × Host) :=
  if mounted = false then .ret (c, h)
  else do
    let (err, c, h) ← c.allocateNetwork h
    match err with
    | some _ => return (c, h)
    | none =>
      if spawned then return (({ c with running := true, processes := c.processes + 1 }).save, h)
      -- the network is not released
      else return (c, h)

/-- `monitor`, from the exit of the process on. -/
def monitor (c : Container) (h : Host) : Outcome (Container × Host) := do
  let (_, c, h) ← c.releaseNetwork h
  return (({ c with running := false, processes := c.processes - 1 }).save, h)

/-- `loadContainer`, from what was saved. -/
def load (c : Container) : Container :=
  { c with running := false, network := none, networkSettings := c.saved, processes := 0 }

end Container

structure Daemon where
  host : Host
  containers : List Container

namespace Daemon

/-- `Docker.Get`. -/
def get (d : Daemon) (id : GoString) : Option Container := d.containers.find? fun c => c.id = id

/-- `CmdPort`: what it prints, without the newline. -/
def cmdPort (d : Daemon) (name privatePort : GoString) : Except GoString GoString :=
  match d.get name with
  | none => .error (str "No such container: " ++ name)
  | some c =>
    match c.networkSettings.portMapping.lookup privatePort with
    | none => .error (str "No private port '" ++ privatePort ++ str "' allocated on " ++ name)
    | some frontend => .ok frontend

end Daemon

/-- What happens to the containers of a daemon. `oks` are the outcomes of the iptables
    commands, `network` is the address of the bridge. -/
inductive PortOp where
  | create (id : GoString) (ports : List Int)
  | start (k : Nat) (mounted spawned : Bool) (oks : List Bool)
  | exit (k : Nat) (oks : List Bool)
  | restart (network : IPNet) (oks : List Bool)
  deriving DecidableEq, Repr

namespace Daemon

def step (d : Daemon) : PortOp → Option Daemon
  | .create id ports =>
    if (d.get id).isSome then some d
    else some { d with containers := d.containers ++ [createContainer id ports] }
  | .start k mounted spawned oks => do
    let c ← d.containers[k]?
    let (c, host) ← (c.start mounted spawned (d.host.offer oks)).toOption
    some ⟨host, d.containers.set k c⟩
  | .exit k oks => do
    let c ← d.containers[k]?
    if c.processes = 0 then none
    else do
      let (c, host) ← (c.monitor (d.host.offer oks)).toOption
      some ⟨host, d.containers.set k c⟩
  | .restart network oks => do
    let host ← (newNetworkManager network ⟨d.host.kernel.nat, oks⟩).toOption
    -- the processes of the old daemon have no monitors any more
    some ⟨host, d.containers.map Container.load⟩

/-- A daemon that has just been started, without containers. -/
def Fresh (d : Daemon) : Prop :=
  ∃ network k, newNetworkManager network k = .ret d.host ∧ d.containers = []

end Daemon

/-- All runs of the containers of a daemon. -/
def portSystem : System Daemon PortOp where
  init := Daemon.Fresh
  step := Daemon.step

end Ports

end Docker

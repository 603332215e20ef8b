import DockerEngine.Native.Network
import DockerEngine.ForStd.System

/-!
# A network manager in use

The containers of a daemon take interfaces from one `NetworkManager`, ask for ports on
them and release them. `Net` is the manager with the interfaces that are not released
yet; a released interface leaves the list, so it is released once and not used again.
`Tenant.forwards` is a ghost: the private port each external port was asked for.
-/

namespace Docker

/-- A live interface, and what was asked of it: (external port, private port). -/
structure Tenant where
  iface : NetworkInterface
  forwards : List (Int × Int)
  deriving DecidableEq, Repr

def Tenant.ip (t : Tenant) : IP := t.iface.ipNet.ip

structure Net where
  host : Host
  live : List Tenant

/-- A request to the manager, with the outcomes of the iptables commands it runs. -/
inductive NetOp where
  | allocate
  | allocatePort (k : Nat) (port : Int) (oks : List Bool)
  | release (k : Nat) (oks : List Bool)
  deriving DecidableEq, Repr

/-- The coming iptables commands will end as `oks` says. -/
def Host.offer (h : Host) (oks : List Bool) : Host := h.setKernel ⟨h.kernel.nat, oks⟩

@[simp] theorem Host.offer_manager (h : Host) (oks : List Bool) :
    (h.offer oks).manager = h.manager := rfl

@[simp] theorem Host.offer_nat (h : Host) (oks : List Bool) :
    (h.offer oks).kernel.nat = h.kernel.nat := rfl

@[simp] theorem Host.offer_oks (h : Host) (oks : List Bool) :
    (h.offer oks).kernel.oks = oks := rfl

namespace Net

def step (s : Net) : NetOp → Option Net
  | .allocate =>
    match NetworkManager.allocate s.host with
    | (.ok iface, host) => some ⟨host, s.live ++ [⟨iface, []⟩]⟩
    | (.error _, host) => some ⟨host, s.live⟩
  | .allocatePort k port oks => do
    let t ← s.live[k]?
    let (res, iface, host) ← (t.iface.allocatePort port (s.host.offer oks)).toOption
    match res with
    | .ok extPort => some ⟨host, s.live.set k ⟨iface, t.forwards ++ [(extPort, port)]⟩⟩
    | .error _ => some ⟨host, s.live.set k ⟨iface, t.forwards⟩⟩
  | .release k oks => do
    let t ← s.live[k]?
    let (_, host) ← (t.iface.release (s.host.offer oks)).toOption
    some ⟨host, s.live.eraseIdx k⟩

/-- The operation speaks of an interface that is live. -/
def Targets (s : Net) : NetOp → Prop
  | .allocate => True
  | .allocatePort k _ _ => k < s.live.length
  | .release k _ => k < s.live.length

/-- The free addresses. -/
def freeIPs (s : Net) : List IP := s.host.manager.ipAllocator.queue.queue

/-- The free external ports. -/
def freePorts (s : Net) : List Int := s.host.manager.portAllocator.ports.queue

/-- The addresses of the live interfaces. -/
def heldIPs (s : Net) : List IP := s.live.map Tenant.ip

/-- The external ports of the live interfaces. -/
def heldPorts (s : Net) : List Int := s.live.flatMap (·.iface.extPorts)

/-- How many releases the two pools have refused so far. -/
def rejected (s : Net) : Nat :=
  s.host.manager.ipAllocator.rejected + s.host.manager.portAllocator.rejected

end Net

/-- A manager just after its two pools were populated, with no interface yet. -/
def Net.populated (network : IPNet) (ips : IPAllocator) (ports : PortAllocator)
    (mapper : Option PortMapper) (nat : NatTable) : Net :=
  ⟨⟨⟨network, ips, ports, mapper⟩, ⟨nat, []⟩⟩, []⟩

/-- A manager just after its pools were populated, whatever its mapper and the table. -/
def Net.Populated (s : Net) : Prop :=
  ∃ network start finish ips ports mapper nat,
    newIPAllocator network = .ret ips ∧ newPortAllocator start finish = .ret ports ∧
    s = Net.populated network ips ports mapper nat

/-- All runs of a manager. -/
def netSystem : System Net NetOp where
  init := Net.Populated
  step := Net.step

/-- A manager as `newNetworkManager` returns it, its port mapper set up. -/
def Net.Ready (s : Net) : Prop :=
  ∃ network k h, newNetworkManager network k = .ret h ∧ h.Mapped ∧ s = ⟨h, []⟩

/-- All runs of a manager whose port mapper was set up. -/
def readySystem : System Net NetOp where
  init := Net.Ready
  step := Net.step

end Docker

import DockerEngine.Go.Str
import DockerEngine.Go.Chan
import Mathlib.Logic.Function.Basic

/-!
# The network of the daemon (`network.go`)

Addresses and masks are four bytes, the 32-bit arithmetic on them is Go's `int32`.
The iptables binary and the kernel's nat table are the `Kernel`: each command is one
step on the table, and `oks` says in advance which of the coming commands fail
without effect (commands past its end run normally).

`NetworkManager` is behind a pointer in the source and shared by all interfaces; here
a `Host` carries it together with the kernel and is passed along. A nil
`portMapper` is `none`, and using it panics.
-/

namespace Docker

open Go

/-! ## Addresses -/

/-- A four byte `net.IP`. -/
structure IP where
  b0 : UInt8
  b1 : UInt8
  b2 : UInt8
  b3 : UInt8
  deriving DecidableEq, Repr

abbrev IPMask := IP

/-- `net.IP.String`. -/
def IP.string (ip : IP) : GoString :=
  join (str ".") ([ip.b0, ip.b1, ip.b2, ip.b3].map fun b => itoa b.toNat)

structure IPNet where
  ip : IP
  mask : IPMask
  deriving DecidableEq, Repr

/-- First and last address of a network. -/
def networkRange (network : IPNet) : IP × IP :=
  let netIP := network.ip
  let mask := network.mask
  (⟨netIP.b0 &&& mask.b0, netIP.b1 &&& mask.b1, netIP.b2 &&& mask.b2, netIP.b3 &&& mask.b3⟩,
   ⟨netIP.b0 ||| ~~~mask.b0, netIP.b1 ||| ~~~mask.b1, netIP.b2 ||| ~~~mask.b2,
    netIP.b3 ||| ~~~mask.b3⟩)

/-- The four bytes read as a big-endian `int32`. -/
def ipToInt (ip : IP) : BitVec 32 :=
  BitVec.ofNat 32 (ip.b0.toNat * 2 ^ 24 + ip.b1.toNat * 2 ^ 16 + ip.b2.toNat * 2 ^ 8 + ip.b3.toNat)

/-- An `int32` written as four bytes, big-endian. -/
def intToIp (n : BitVec 32) : IP :=
  ⟨UInt8.ofNat (n.toNat / 2 ^ 24), UInt8.ofNat (n.toNat / 2 ^ 16), UInt8.ofNat (n.toNat / 2 ^ 8),
   UInt8.ofNat n.toNat⟩

/-- Number of addresses under a mask, as an `int32`. -/
def networkSize (mask : IPMask) : BitVec 32 :=
  ipToInt ⟨~~~mask.b0, ~~~mask.b1, ~~~mask.b2, ~~~mask.b3⟩ + 1

/-- `net.CIDRMask(ones, 32)`, the form that the masks of interface addresses have. -/
def cidrMask (ones : Nat) : IPMask := intToIp (BitVec.allOnes 32 <<< (32 - ones))

structure TCPAddr where
  ip : IP
  port : Int
  deriving DecidableEq, Repr

/-- `net.JoinHostPort(dest.IP.String(), strconv.Itoa(dest.Port))`. -/
def TCPAddr.hostPort (dest : TCPAddr) : GoString := dest.ip.string ++ str ":" ++ itoa dest.port

/-! ## iptables -/

/-- A DNAT rule of the DOCKER chain. -/
structure Rule where
  port : Int
  dest : TCPAddr
  deriving DecidableEq, Repr

/-- The part of the nat table the daemon touches: the number of jumps from PREROUTING
    to DOCKER, and the DOCKER chain if it exists. -/
structure NatTable where
  jumps : Nat
  docker : Option (List Rule)
  deriving DecidableEq, Repr

/-- The iptables invocations of the daemon. -/
inductive Command where
  | deleteJump
  | flushChain
  | deleteChain
  | newChain
  | appendJump
  | appendRule (rule : Rule)
  | deleteRule (rule : Rule)
  deriving DecidableEq, Repr

def Rule.args (rule : Rule) : List GoString :=
  [str "DOCKER", str "-p", str "tcp", str "--dport", itoa rule.port, str "-j", str "DNAT",
   str "--to-destination", rule.dest.hostPort]

/-- The command line of an invocation. -/
def Command.args : Command → List GoString
  | deleteJump => [str "-t", str "nat", str "-D", str "PREROUTING", str "-j", str "DOCKER"]
  | flushChain => [str "-t", str "nat", str "-F", str "DOCKER"]
  | deleteChain => [str "-t", str "nat", str "-X", str "DOCKER"]
  | newChain => [str "-t", str "nat", str "-N", str "DOCKER"]
  | appendJump => [str "-t", str "nat", str "-A", str "PREROUTING", str "-j", str "DOCKER"]
  | appendRule rule => [str "-t", str "nat", str "-A"] ++ rule.args
  | deleteRule rule => [str "-t", str "nat", str "-D"] ++ rule.args

/-- What a command does to the table; `none` when iptables refuses it. -/
def Command.exec (t : NatTable) : Command → Option NatTable
  | deleteJump => if t.jumps = 0 then none else some { t with jumps := t.jumps - 1 }
  | flushChain => t.docker.map fun _ => { t with docker := some [] }
  | deleteChain => if t.docker = some [] ∧ t.jumps = 0 then some { t with docker := none } else none
  | newChain => if t.docker.isSome then none else some { t with docker := some [] }
  | appendJump => if t.docker.isSome then some { t with jumps := t.jumps + 1 } else none
  | appendRule rule => t.docker.map fun rules => { t with docker := some (rules ++ [rule]) }
  | deleteRule rule =>
    match t.docker with
    | some rules => if rule ∈ rules then some { t with docker := some (rules.erase rule) } else none
    | none => none

/-- The nat table, and which of the coming iptables commands are let through. -/
structure Kernel where
  nat : NatTable
  oks : List Bool
  deriving DecidableEq, Repr

/-- Wrapper around the iptables command. The error is `none` on success. -/
def iptables (cmd : Command) (k : Kernel) : Option GoString × Kernel :=
  match k.oks.headD true, cmd.exec k.nat with
  | true, some nat => (none, ⟨nat, k.oks.tail⟩)
  | _, _ =>
    (some (str "iptables failed: iptables " ++ join (str " ") cmd.args), ⟨k.nat, k.oks.tail⟩)

/-! ## Allocators -/

/-- Port allocator. `rejected` is a ghost counter of the releases that were refused. -/
structure PortAllocator where
  ports : Chan Int
  rejected : Nat

/-- The sends of `populate`. -/
def PortAllocator.fill (ports : Chan Int) : List Int → Outcome (Chan Int)
  | [] => .ret ports
  | port :: rest => do
    let ports ← ports.send port
    fill ports rest

/-- `make(chan int, finish - start)` panics when the capacity is negative. -/
def PortAllocator.populate (start finish : Int) : Outcome (Chan Int) :=
  if finish < start then .panic
  else fill (Chan.make (finish - start).toNat)
    ((List.range (finish - start).toNat).map fun i : Nat => start + (i : Int))

def newPortAllocator (start finish : Int) : Outcome PortAllocator := do
  let ports ← PortAllocator.populate start finish
  return ⟨ports, 0⟩

def PortAllocator.acquire (alloc : PortAllocator) : Except GoString Int × PortAllocator :=
  match alloc.ports.tryRecv with
  | some (port, ports) => (.ok port, { alloc with ports })
  | none => (.error (str "No more ports available"), alloc)

def PortAllocator.release (alloc : PortAllocator) (port : Int) : Option GoString × PortAllocator :=
  match alloc.ports.trySend port with
  | some ports => (none, { alloc with ports })
  | none =>
    (some (str "Too many ports have been released"), { alloc with rejected := alloc.rejected + 1 })

/-- IP allocator. `rejected` is a ghost counter of the releases that were refused. -/
structure IPAllocator where
  network : IPNet
  queue : Chan IP
  rejected : Nat

/-- `n` rounds of the loop of `populate`, from `i` on. -/
def IPAllocator.populateLoop (network : IPNet) (firstIP : IP) :
    Nat → BitVec 32 → Chan IP → Outcome (Chan IP)
  | 0, _, queue => .ret queue
  | n + 1, i, queue =>
    let ip := intToIp (ipToInt firstIP + i)
    -- Discard the network IP (that's the host IP address)
    if ip = network.ip then populateLoop network firstIP n (i + 1) queue
    else do
      let queue ← queue.send ip
      populateLoop network firstIP n (i + 1) queue

/-- `for i := int32(1); i < size-1; i++`: the bound is below `2^31`, so `i` never wraps
    and the loop makes `size - 1 - 1` rounds, or none. -/
def IPAllocator.populate (network : IPNet) : Outcome (Chan IP) :=
  let firstIP := (networkRange network).1
  let size := networkSize network.mask
  -- make(chan net.IP, size-3) panics when the capacity is negative
  if (size - 3).toInt < 0 then .panic
  else
    populateLoop network firstIP ((size - 1).toInt - 1).toNat 1 (Chan.make (size - 3).toInt.toNat)

def newIPAllocator (network : IPNet) : Outcome IPAllocator := do
  let queue ← IPAllocator.populate network
  return ⟨network, queue, 0⟩

def IPAllocator.acquire (alloc : IPAllocator) : Except GoString IP × IPAllocator :=
  match alloc.queue.tryRecv with
  | some (ip, queue) => (.ok ip, { alloc with queue })
  | none => (.error (str "No more IP addresses available"), alloc)

def IPAllocator.release (alloc : IPAllocator) (ip : IP) : Option GoString × IPAllocator :=
  match alloc.queue.trySend ip with
  | some queue => (none, { alloc with queue })
  | none =>
    (some (str "Too many IP addresses have been released"),
      { alloc with rejected := alloc.rejected + 1 })

/-! ## Port mapper -/

/-- Keeps track of the mappings; a Go map is a partial function. -/
structure PortMapper where
  mapping : Int → Option TCPAddr

structure NetworkManager where
  bridgeNetwork : IPNet
  ipAllocator : IPAllocator
  portAllocator : PortAllocator
  portMapper : Option PortMapper

/-- The manager and the kernel it runs iptables on. -/
structure Host where
  manager : NetworkManager
  kernel : Kernel

namespace Host

/-- The manager has a port mapper. -/
def Mapped (h : Host) : Prop := h.manager.portMapper.isSome

def setKernel (h : Host) (kernel : Kernel) : Host := { h with kernel }

def setPorts (h : Host) (portAllocator : PortAllocator) : Host :=
  { h with manager := { h.manager with portAllocator } }

def setIPs (h : Host) (ipAllocator : IPAllocator) : Host :=
  { h with manager := { h.manager with ipAllocator } }

def setMapping (h : Host) (mapping : Int → Option TCPAddr) : Host :=
  { h with manager := { h.manager with portMapper := some ⟨mapping⟩ } }

section

variable (h : Host) (k : Kernel) (pa : PortAllocator) (ia : IPAllocator) (m : Int → Option TCPAddr)

@[simp] theorem setKernel_manager : (h.setKernel k).manager = h.manager := rfl
@[simp] theorem setKernel_kernel : (h.setKernel k).kernel = k := rfl
@[simp] theorem setPorts_kernel : (h.setPorts pa).kernel = h.kernel := rfl
@[simp] theorem setPorts_portAllocator : (h.setPorts pa).manager.portAllocator = pa := rfl
@[simp] theorem setPorts_ipAllocator :
    (h.setPorts pa).manager.ipAllocator = h.manager.ipAllocator := rfl
@[simp] theorem setPorts_portMapper :
    (h.setPorts pa).manager.portMapper = h.manager.portMapper := rfl
@[simp] theorem setIPs_kernel : (h.setIPs ia).kernel = h.kernel := rfl
@[simp] theorem setIPs_ipAllocator : (h.setIPs ia).manager.ipAllocator = ia := rfl
@[simp] theorem setIPs_portAllocator :
    (h.setIPs ia).manager.portAllocator = h.manager.portAllocator := rfl
@[simp] theorem setIPs_portMapper :
    (h.setIPs ia).manager.portMapper = h.manager.portMapper := rfl
@[simp] theorem setMapping_kernel : (h.setMapping m).kernel = h.kernel := rfl
@[simp] theorem setMapping_portMapper : (h.setMapping m).manager.portMapper = some ⟨m⟩ := rfl
@[simp] theorem setMapping_portAllocator :
    (h.setMapping m).manager.portAllocator = h.manager.portAllocator := rfl
@[simp] theorem setMapping_ipAllocator :
    (h.setMapping m).manager.ipAllocator = h.manager.ipAllocator := rfl

end

end Host

/-- `cleanup` ignores the errors of its commands. -/
def PortMapper.cleanup (k : Kernel) : PortMapper × Kernel :=
  let (_, k) := iptables .deleteJump k
  let (_, k) := iptables .flushChain k
  let (_, k) := iptables .deleteChain k
  (⟨fun _ => none⟩, k)

def PortMapper.setup (k : Kernel) : Option GoString × Kernel :=
  match iptables .newChain k with
  | (some _, k) =>
    (some (str "Unable to setup port networking: Failed to create DOCKER chain"), k)
  | (none, k) =>
    match iptables .appendJump k with
    | (some _, k) =>
      (some (str "Unable to setup port networking: Failed to inject docker in PREROUTING chain"), k)
    | (none, k) => (none, k)

def newPortMapper (k : Kernel) : Except GoString PortMapper × Kernel :=
  let (mapper, k) := PortMapper.cleanup k
  match PortMapper.setup k with
  | (some err, k) => (.error err, k)
  | (none, k) => (.ok mapper, k)

def PortMapper.map (port : Int) (dest : TCPAddr) (h : Host) : Outcome (Option GoString × Host) :=
  match iptables (.appendRule ⟨port, dest⟩) h.kernel with
  | (some err, k) => .ret (some err, h.setKernel k)
  | (none, k) =>
    match h.manager.portMapper with
    | none => .panic
    | some mapper =>
      .ret (none, (h.setKernel k).setMapping (Function.update mapper.mapping port (some dest)))

def PortMapper.unmap (port : Int) (h : Host) : Outcome (Option GoString × Host) :=
  match h.manager.portMapper with
  | none => .panic
  | some mapper =>
    match mapper.mapping port with
    | none => .ret (some (str "Port is not mapped"), h)
    | some dest =>
      match iptables (.deleteRule ⟨port, dest⟩) h.kernel with
      -- the mapping stays when the rule stays
      | (some err, k) => .ret (some err, h.setKernel k)
      | (none, k) =>
        .ret (none, (h.setKernel k).setMapping (Function.update mapper.mapping port none))

/-! ## Network interfaces -/

/-- The networking stack of a container. The source also keeps a pointer to the manager. -/
structure NetworkInterface where
  ipNet : IPNet
  gateway : IP
  extPorts : List Int
  deriving DecidableEq, Repr

/-- Allocate an external TCP port and map it to the interface. -/
def NetworkInterface.allocatePort (iface : NetworkInterface) (port : Int) (h : Host) :
    Outcome (Except GoString Int × NetworkInterface × Host) :=
  match h.manager.portAllocator.acquire with
  | (.error err, _) => .ret (.error err, iface, h)
  | (.ok extPort, alloc) => do
    let (err, h) ← PortMapper.map extPort ⟨iface.ipNet.ip, port⟩ (h.setPorts alloc)
    match err with
    -- the port is given back
    | some err =>
      return (.error err, iface, h.setPorts (h.manager.portAllocator.release extPort).2)
    | none => return (.ok extPort, { iface with extPorts := iface.extPorts ++ [extPort] }, h)

/-- The loop of `Release`: both errors are only logged. -/
def NetworkInterface.releasePorts : List Int → Host → Outcome Host
  | [], h => .ret h
  | port :: ports, h => do
    let (_, h) ← PortMapper.unmap port h
    releasePorts ports (h.setPorts (h.manager.portAllocator.release port).2)

/-- Release all resources of an interface. -/
def NetworkInterface.release (iface : NetworkInterface) (h : Host) :
    Outcome (Option GoString × Host) := do
  let h ← releasePorts iface.extPorts h
  let (err, alloc) := h.manager.ipAllocator.release iface.ipNet.ip
  return (err, h.setIPs alloc)

/-- Allocate a network interface. -/
def NetworkManager.allocate (h : Host) : Except GoString NetworkInterface × Host :=
  match h.manager.ipAllocator.acquire with
  | (.error err, _) => (.error err, h)
  | (.ok ip, alloc) =>
    (.ok ⟨⟨ip, h.manager.bridgeNetwork.mask⟩, h.manager.bridgeNetwork.ip, []⟩, h.setIPs alloc)

def portRangeStart : Int := 49153
def portRangeEnd : Int := 65535

/-- `newNetworkManager`, once `getIfaceAddr` has found the address of the bridge. The
    error of `newPortMapper` is dropped, which leaves the mapper nil. -/
def newNetworkManager (network : IPNet) (k : Kernel) : Outcome Host := do
  let ipAllocator ← newIPAllocator network
  let portAllocator ← newPortAllocator portRangeStart portRangeEnd
  let (mapper, k) := newPortMapper k
  return ⟨⟨network, ipAllocator, portAllocator, mapper.toOption⟩, k⟩

end Docker

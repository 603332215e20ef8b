import DockerEngine.Native.Ports
import DockerEngine.Spec.PortForwarding
import Mathlib.Algebra.BigOperators.Group.List.Basic

/-!
# Published ports are forwarded

The port map of a container is what `CmdPort` reads, so each of its entries should have a
live forwarding behind it. `releaseNetwork` resets the settings, but a `Start` that fails
after some port was allocated does not, and neither does a daemon that reads the saved
settings of a container that was running.

- `entries_backed`: the runs in which neither happens
- `entry_stale`: a `Start` whose second port cannot be forwarded
-/

namespace Docker

open Go

/-! ## The ports of a host -/

namespace Host

def freePorts (h : Host) : List Int := h.manager.portAllocator.ports.queue

def freeIPs (h : Host) : List IP := h.manager.ipAllocator.queue.queue

/-- Where the port mapper sends an external port. -/
def destOf (h : Host) (port : Int) : Option TCPAddr :=
  h.manager.portMapper.bind fun mapper => mapper.mapping port

end Host

/-- A pool takes back at most the port it is given. -/
theorem PortAllocator.release_le (alloc : PortAllocator) (port : Int) :
    ((alloc.release port).2.ports.queue : Multiset Int) ≤ alloc.ports.queue + {port} := by
  unfold PortAllocator.release
  split
  · next ports hsend =>
    rw [(Chan.trySend_eq_some hsend).2, ← Multiset.coe_add]
    exact le_rfl
  · exact Multiset.le_add_right _ _

/-- `unmap` forgets no other port. -/
theorem unmap_destOf {port : Int} {h h' : Host} {err : Option GoString}
    (hret : PortMapper.unmap port h = .ret (err, h')) {e : Int} (hne : e ≠ port) :
    h'.destOf e = h.destOf e := by
  obtain ⟨mapper, hm, ⟨-, rfl⟩ | ⟨dest, -, -, rfl⟩ | ⟨dest, rules, -, -, rfl⟩⟩ := unmap_cases hret
  · rfl
  · rfl
  · simp only [Host.destOf, hm, Host.setMapping_portMapper, Option.bind_some]
    exact Function.update_of_ne hne _ _

/-- The loop of `Release` gives back at most the ports of the interface, and forgets no other
    port, whichever of its commands fail. -/
theorem releasePorts_ports {ports : List Int} {h h' : Host}
    (hret : NetworkInterface.releasePorts ports h = .ret h') :
    (h'.freePorts : Multiset Int) ≤ h.freePorts + ports ∧
      ∀ e ∉ ports, h'.destOf e = h.destOf e := by
  induction ports generalizing h with
  | nil =>
    cases hret
    exact ⟨by simp, fun _ _ => rfl⟩
  | cons port ports ih =>
    obtain ⟨err, h₁, hunmap, hrest⟩ := releasePorts_cons hret
    obtain ⟨hfree, hdest⟩ := ih hrest
    have hback := h₁.manager.portAllocator.release_le port
    rw [(unmap_allocators hunmap).1] at hback
    refine ⟨?_, fun e he => ?_⟩
    · calc (h'.freePorts : Multiset Int)
          ≤ ((h₁.manager.portAllocator.release port).2.ports.queue : Multiset Int) + ports := hfree
        _ ≤ (h.freePorts + {port}) + ports := by
          rw [(unmap_allocators hunmap).1]
          exact add_le_add_left hback _
        _ = h.freePorts + ↑(port :: ports) := by
          rw [add_assoc, Multiset.singleton_add, Multiset.cons_coe]
    -- `unmap` touches this port only, the rest of the loop the others
    · rw [List.mem_cons, not_or] at he
      rw [hdest e he.2]
      exact unmap_destOf hunmap he.1

theorem release_ports {iface : NetworkInterface} {h h' : Host} {err : Option GoString}
    (hret : iface.release h = .ret (err, h')) :
    (h'.freePorts : Multiset Int) ≤ h.freePorts + iface.extPorts ∧
      ∀ e ∉ iface.extPorts, h'.destOf e = h.destOf e := by
  obtain ⟨h₁, hloop, -, rfl⟩ := release_cases hret
  have hports := releasePorts_ports hloop
  exact hports

/-- `allocatePort` fails and takes no port, or moves the first free port to the interface and
    maps it; no other port is affected. -/
theorem allocatePort_ports {iface iface' : NetworkInterface} {port : Int} {h h' : Host}
    {res : Except GoString Int} (hret : iface.allocatePort port h = .ret (res, iface', h')) :
    ((∃ err, res = .error err) ∧ iface' = iface ∧
      (h'.freePorts : Multiset Int) ≤ h.freePorts ∧ ∀ e, h'.destOf e = h.destOf e) ∨
    (∃ extPort, res = .ok extPort ∧ h.freePorts = extPort :: h'.freePorts ∧
      iface' = { iface with extPorts := iface.extPorts ++ [extPort] } ∧
      h'.destOf extPort = some ⟨iface.ipNet.ip, port⟩ ∧
      ∀ e ≠ extPort, h'.destOf e = h.destOf e) := by
  obtain ⟨-, herr, rfl, rfl⟩ | ⟨extPort, ports, hrecv, -, herr, rfl, rfl⟩ |
    ⟨extPort, ports, mapper, rules, hrecv, -, hm, -, rfl, rfl, rfl⟩ := allocatePort_cases hret
  · exact .inl ⟨herr, rfl, le_rfl, fun _ => rfl⟩
  -- the rule was refused: the port is put back
  · refine .inl ⟨herr, rfl, ?_, fun _ => rfl⟩
    have hback := PortAllocator.release_le { h.manager.portAllocator with ports } extPort
    have hqueue : h.freePorts = extPort :: ports.queue := (Chan.tryRecv_eq_some hrecv).2
    rw [hqueue, ← Multiset.cons_coe, ← Multiset.singleton_add, add_comm]
    exact hback
  · refine .inr ⟨extPort, rfl, (Chan.tryRecv_eq_some hrecv).2, rfl, ?_, fun e he => ?_⟩
    · exact Function.update_self _ _ _
    · simp only [Host.destOf, hm, Host.setMapping_portMapper, Option.bind_some]
      exact Function.update_of_ne he _ _

namespace Ports

/-! ## Allocating the ports of a container -/

/-- Every entry of the port map was there, or is for a port of the interface that the host
    forwards to it. -/
def Forwards (m m' : PortMap) (iface : NetworkInterface) (h : Host) : Prop :=
  ∀ entry ∈ m', entry ∈ m ∨ ∃ p e, entry = (itoa p, itoa e) ∧ e ∈ iface.extPorts ∧
    h.destOf e = some ⟨iface.ipNet.ip, p⟩

theorem mem_set {m : PortMap} {key value : GoString} {entry : GoString × GoString}
    (h : entry ∈ m.set key value) : entry = (key, value) ∨ entry ∈ m := by
  rcases List.mem_cons.mp h with h | h
  · exact .inl h
  · exact .inr (List.mem_of_mem_filter h)

/-- One round of the loop of `allocateNetwork`. -/
theorem allocatePorts_cons {port : Int} {ports : List Int} {iface iface' : NetworkInterface}
    {m m' : PortMap} {h h' : Host} {err : Option GoString}
    (hret : Container.allocatePorts (port :: ports) iface m h = .ret (err, iface', m', h')) :
    ∃ res iface₁ h₁, iface.allocatePort port h = .ret (res, iface₁, h₁) ∧
      ((∃ msg err₂, res = .error msg ∧ err = some msg ∧ m' = m ∧
        iface₁.release h₁ = .ret (err₂, h')) ∨
       (∃ extPort, res = .ok extPort ∧
        Container.allocatePorts ports iface₁ (m.set (itoa port) (itoa extPort)) h₁ =
          .ret (err, iface', m', h'))) := by
  obtain ⟨⟨res, iface₁, h₁⟩, halloc, hret⟩ := Outcome.bind_eq_ret.mp hret
  refine ⟨res, iface₁, h₁, halloc, ?_⟩
  cases res with
  | ok extPort => exact .inr ⟨extPort, rfl, hret⟩
  | error msg =>
    simp only at hret
    obtain ⟨⟨err₂, h₂⟩, hrel, hret⟩ := Outcome.bind_eq_ret.mp hret
    cases hret
    exact .inl ⟨msg, err₂, rfl, rfl, rfl, hrel⟩

/-- The loop of `allocateNetwork` moves free ports to the interface. If it fails they are
    released again, and if it succeeds the new entries are for them. -/
theorem allocatePorts_cases {ports : List Int} {iface iface' : NetworkInterface} {m m' : PortMap}
    {h h' : Host} {err : Option GoString}
    (hret : Container.allocatePorts ports iface m h = .ret (err, iface', m', h'))
    (hnodup : ((h.freePorts : Multiset Int) + iface.extPorts).Nodup) :
    (∀ e ∉ h.freePorts, e ∉ iface.extPorts → h'.destOf e = h.destOf e) ∧
    (((∃ msg, err = some msg) ∧ (h'.freePorts : Multiset Int) ≤ h.freePorts + iface.extPorts) ∨
     (err = none ∧ iface'.ipNet = iface.ipNet ∧
      (h'.freePorts : Multiset Int) + iface'.extPorts = h.freePorts + iface.extPorts ∧
      (∀ e ∈ iface.extPorts, e ∈ iface'.extPorts ∧ h'.destOf e = h.destOf e) ∧
      Forwards m m' iface' h')) := by
  induction ports generalizing iface m h with
  | nil =>
    cases hret
    exact ⟨fun _ _ _ => rfl, .inr ⟨rfl, rfl, rfl, fun e he => ⟨he, rfl⟩, fun _ he => .inl he⟩⟩
  | cons port ports ih =>
    obtain ⟨res, iface₁, h₁, halloc, hround⟩ := allocatePorts_cons hret
    obtain ⟨msg, err₂, rfl, rfl, rfl, hrel⟩ | ⟨extPort, rfl, hret⟩ := hround
    -- this port was refused: the interface is released
    · obtain ⟨-, rfl, hfree, hdest⟩ | ⟨extPort, hres, -⟩ := allocatePort_ports halloc
      · obtain ⟨hfree₂, hdest₂⟩ := release_ports hrel
        refine ⟨fun e _ he => (hdest₂ e he).trans (hdest e), .inl ⟨⟨msg, rfl⟩, ?_⟩⟩
        exact hfree₂.trans (add_le_add_left hfree _)
      · simp at hres
    · obtain ⟨⟨msg, hres⟩, -⟩ | ⟨e, hres, hfree, rfl, hmap, hdest⟩ := allocatePort_ports halloc
      · simp at hres
      cases hres
      -- one port moves from the pool to the interface
      have hmove : (h₁.freePorts : Multiset Int) + ↑(iface.extPorts ++ [extPort]) =
          h.freePorts + iface.extPorts := by
        rw [hfree, ← Multiset.cons_coe, ← Multiset.coe_add, ← Multiset.singleton_add]
        show (h₁.freePorts : Multiset Int) + (iface.extPorts + {extPort}) =
          {extPort} + h₁.freePorts + iface.extPorts
        abel
      -- it was free, so the interface did not hold it
      have hnew : extPort ∉ iface.extPorts := by
        intro hmem
        have hdisj := (Multiset.nodup_add.mp hnodup).2.2
        rw [hfree] at hdisj
        exact Multiset.disjoint_left.mp hdisj (Multiset.mem_coe.mpr List.mem_cons_self) hmem
      obtain ⟨hkeep, hcase⟩ := ih hret (by rw [hmove]; exact hnodup)
      refine ⟨fun e he he' => ?_, ?_⟩
      · rw [hfree, List.mem_cons, not_or] at he
        rw [hkeep e he.2 (by simp [he', he.1]), hdest e he.1]
      · obtain ⟨hmsg, hle⟩ | ⟨rfl, hip, hsum, hold, hfor⟩ := hcase
        · exact .inl ⟨hmsg, by rwa [hmove] at hle⟩
        · refine .inr ⟨rfl, hip, hsum.trans hmove, fun e he => ?_, fun entry hentry => ?_⟩
          · obtain ⟨hin, heq⟩ := hold e (List.mem_append_left _ he)
            exact ⟨hin, heq.trans (hdest e fun heq => hnew (heq ▸ he))⟩
          · rcases hfor entry hentry with hset | hfor
            -- the entry of this round, or an older one
            · rcases mem_set hset with rfl | hm
              · obtain ⟨hin, heq⟩ := hold extPort (by simp)
                refine .inr ⟨port, extPort, rfl, hin, ?_⟩
                rw [heq, hmap, hip]
              · exact .inl hm
            · exact .inr hfor

/-- The first port of a container is refused, or it has none: no port is free, or the first
    iptables command fails. -/
def RefusesFirst (h : Host) (ports : List Int) : Prop :=
  ports = [] ∨ h.freePorts = [] ∨ h.kernel.oks.headD true = false ∨ h.kernel.nat.docker = none

/-- There are ports for all ports of a container, and all iptables commands succeed. -/
def AcceptsAll (h : Host) (ports : List Int) : Prop :=
  ports.length ≤ h.freePorts.length ∧ ∀ b ∈ h.kernel.oks.take ports.length, b = true

/-- When the first port is refused, nothing is entered into the map. -/
theorem allocatePorts_refused {ports : List Int} {iface iface' : NetworkInterface} {m m' : PortMap}
    {h h' : Host} {err : Option GoString}
    (hret : Container.allocatePorts ports iface m h = .ret (err, iface', m', h'))
    (href : RefusesFirst h ports) : m' = m := by
  cases ports with
  | nil =>
    cases hret
    rfl
  | cons port ports =>
    obtain ⟨res, iface₁, h₁, halloc, hround⟩ := allocatePorts_cons hret
    obtain ⟨msg, err₂, -, -, hm, -⟩ | ⟨extPort, rfl, -⟩ := hround
    · exact hm
    obtain ⟨-, ⟨msg, hres⟩, -⟩ | ⟨e, q, -, -, ⟨msg, hres⟩, -⟩ |
      ⟨e, q, mapper, rules, hrecv, hok, -, hrules, hres, -⟩ := allocatePort_cases halloc
    · simp at hres
    · simp at hres
    · exfalso
      cases hres
      have hqueue : h.freePorts = extPort :: q.queue := (Chan.tryRecv_eq_some hrecv).2
      rcases href with href | href | href | href
      · exact List.cons_ne_nil _ _ href
      · exact List.cons_ne_nil _ _ (hqueue.symm.trans href)
      · rw [hok] at href
        simp at href
      · rw [hrules] at href
        simp at href

/-- When all ports are accepted, the loop does not fail. -/
theorem allocatePorts_accepted {ports : List Int} {iface iface' : NetworkInterface}
    {m m' : PortMap} {h h' : Host} {err : Option GoString}
    (hret : Container.allocatePorts ports iface m h = .ret (err, iface', m', h'))
    (hacc : AcceptsAll h ports) (hchain : h.kernel.nat.docker ≠ none) : err = none := by
  induction ports generalizing iface m h with
  | nil =>
    cases hret
    rfl
  | cons port ports ih =>
    obtain ⟨hlen, hoks⟩ := hacc
    rw [List.length_cons] at hlen hoks
    -- an outcome that is not given is a success
    have hhead : h.kernel.oks.headD true = true := by
      cases hk : h.kernel.oks with
      | nil => rfl
      | cons b bs => exact hoks b (by simp [hk])
    obtain ⟨res, iface₁, h₁, halloc, hround⟩ := allocatePorts_cons hret
    obtain ⟨hempty, -⟩ | ⟨e, q, -, hrefused, -⟩ |
      ⟨e, q, mapper, rules, hrecv, -, -, -, rfl, -, rfl⟩ := allocatePort_cases halloc
    · rw [Host.freePorts, hempty, List.length_nil] at hlen
      omega
    · exact absurd (hrefused hhead) hchain
    · obtain ⟨msg, err₂, hres, -⟩ | ⟨extPort, hres, hret⟩ := hround
      · simp at hres
      cases hres
      have hqueue : h.freePorts = e :: q.queue := (Chan.tryRecv_eq_some hrecv).2
      refine ih hret ⟨?_, fun b hb => ?_⟩ (by simp)
      · rw [hqueue, List.length_cons] at hlen
        exact Nat.le_of_succ_le_succ hlen
      · cases hk : h.kernel.oks with
        | nil => simp [hk] at hb
        | cons b' bs =>
          apply hoks
          simp only [hk, List.take_succ_cons]
          simp only [Host.setMapping_kernel, Host.setKernel_kernel, Kernel.setRules_oks, hk,
            List.tail_cons] at hb
          exact List.mem_cons_of_mem _ hb

/-! ## One container -/

/-- The external ports of the container's interface. -/
def Container.extPorts (c : Container) : List Int :=
  (c.network.map NetworkInterface.extPorts).getD []

/-- Each entry of the container is for a port of its interface, and the host forwards it. -/
def EntriesBacked (c : Container) (h : Host) : Prop :=
  ∀ entry ∈ c.networkSettings.portMapping, ∃ p e iface, entry = (itoa p, itoa e) ∧
    c.network = some iface ∧ e ∈ iface.extPorts ∧ h.destOf e = some ⟨iface.ipNet.ip, p⟩

/-- The entries of the container are backed, and there are none unless it is running. -/
structure Backed (c : Container) (h : Host) : Prop where
  entries : EntriesBacked c h
  stopped : c.running = false → c.networkSettings.portMapping = []

/-- A host that forwards the ports of the container as before. -/
theorem Backed.of_destOf {c : Container} {h h' : Host} (hb : Backed c h)
    (hdest : ∀ e ∈ c.extPorts, h'.destOf e = h.destOf e) : Backed c h' := by
  refine ⟨fun entry hentry => ?_, hb.stopped⟩
  obtain ⟨p, e, iface, heq, hnet, he, hto⟩ := hb.entries entry hentry
  refine ⟨p, e, iface, heq, hnet, he, ?_⟩
  rw [hdest e (by simp [Container.extPorts, hnet, he]), hto]

theorem Backed.of_nil {c : Container} {h : Host} (hnil : c.networkSettings.portMapping = []) :
    Backed c h :=
  ⟨fun _ hentry => by simp [hnil] at hentry, fun _ => hnil⟩

/-- What a step does to one container and the host: ports move between the pool and its
    interface only, and no other port is affected. -/
structure Moves (c c' : Container) (h h' : Host) : Prop where
  ports : (h'.freePorts : Multiset Int) + c'.extPorts ≤ h.freePorts + c.extPorts
  others : ∀ e ∉ h.freePorts, e ∉ c.extPorts → h'.destOf e = h.destOf e

/-- `allocateNetwork` gets no address, or it runs the loop with an interface that has one. -/
theorem allocateNetwork_split {c c' : Container} {h h' : Host} {err : Option GoString}
    (hret : c.allocateNetwork h = .ret (err, c', h')) :
    (h.freeIPs = [] ∧ (∃ msg, err = some msg) ∧ c' = c ∧ h' = h) ∨
    ∃ ip queue iface m, h.manager.ipAllocator.queue.tryRecv = some (ip, queue) ∧
      Container.allocatePorts c.ports
        ⟨⟨ip, h.manager.bridgeNetwork.mask⟩, h.manager.bridgeNetwork.ip, []⟩ []
        (h.setIPs { h.manager.ipAllocator with queue }) = .ret (err, iface, m, h') ∧
      ((∃ msg, err = some msg) ∧ c' = c.setPortMapping m ∨
        err = none ∧ c' = { c.setPortMapping m with
          network := some iface
          networkSettings :=
            ⟨iface.ipNet.ip.string, iface.ipNet.mask.size, iface.gateway.string, m⟩ }) := by
  unfold Container.allocateNetwork at hret
  rcases hall : NetworkManager.allocate h with ⟨res, h₁⟩
  obtain ⟨hips, ⟨e, rfl⟩, rfl⟩ | ⟨ip, queue, hrecv, rfl, rfl⟩ := allocate_cases hall
  · simp only [hall, Outcome.ret.injEq, Prod.mk.injEq] at hret
    obtain ⟨rfl, rfl, rfl⟩ := hret
    exact .inl ⟨hips, ⟨e, rfl⟩, rfl, rfl⟩
  · simp only [hall] at hret
    obtain ⟨⟨err₁, iface, m, h₂⟩, hports, hret⟩ := Outcome.bind_eq_ret.mp hret
    refine .inr ⟨ip, queue, iface, m, hrecv, ?_⟩
    cases err₁ with
    | some msg =>
      cases hret
      exact ⟨hports, .inl ⟨⟨msg, rfl⟩, rfl⟩⟩
    | none =>
      cases hret
      exact ⟨hports, .inr ⟨rfl, rfl⟩⟩

/-- `allocateNetwork` changed nothing, or it failed and left a port map, or it connected the
    container. -/
theorem allocateNetwork_cases {c c' : Container} {h h' : Host} {err : Option GoString}
    (hret : c.allocateNetwork h = .ret (err, c', h')) :
    (h.freeIPs = [] ∧ c' = c ∧ h' = h) ∨
    (h.freeIPs ≠ [] ∧ ∃ iface iface' m h₁, iface.extPorts = [] ∧ h₁.freePorts = h.freePorts ∧
      h₁.kernel = h.kernel ∧ (∀ e, h₁.destOf e = h.destOf e) ∧
      Container.allocatePorts c.ports iface [] h₁ = .ret (err, iface', m, h') ∧
      c'.running = c.running ∧ c'.networkSettings.portMapping = m ∧
      ((∃ msg, err = some msg) ∧ c'.network = c.network ∨
        err = none ∧ c'.network = some iface')) := by
  obtain ⟨hips, -, rfl, rfl⟩ | ⟨ip, queue, iface', m, hrecv, hports, hend⟩ :=
    allocateNetwork_split hret
  · exact .inl ⟨hips, rfl, rfl⟩
  · have hips : h.freeIPs ≠ [] := by
      have hqueue : h.freeIPs = ip :: queue.queue := (Chan.tryRecv_eq_some hrecv).2
      rw [hqueue]
      exact List.cons_ne_nil _ _
    refine .inr ⟨hips, ⟨⟨ip, h.manager.bridgeNetwork.mask⟩, h.manager.bridgeNetwork.ip, []⟩, iface',
      m, h.setIPs { h.manager.ipAllocator with queue }, rfl, rfl, rfl, fun _ => rfl, hports, ?_⟩
    obtain ⟨⟨msg, rfl⟩, rfl⟩ | ⟨rfl, rfl⟩ := hend
    · exact ⟨rfl, rfl, .inl ⟨⟨msg, rfl⟩, rfl⟩⟩
    · exact ⟨rfl, rfl, .inr ⟨rfl, rfl⟩⟩

/-- `allocateNetwork` moves free ports to the container, whether or not it succeeds. -/
theorem allocateNetwork_moves {c c' : Container} {h h' : Host} {err : Option GoString}
    (hret : c.allocateNetwork h = .ret (err, c', h')) (hnodup : h.freePorts.Nodup) :
    Moves c c' h h' ∧ c'.running = c.running := by
  obtain ⟨-, rfl, rfl⟩ | ⟨hips, iface, iface', m, h₁, hext, hfree, hkernel, hdest, hports, hrun, hm,
    hcase⟩ := allocateNetwork_cases hret
  · exact ⟨⟨le_rfl, fun _ _ _ => rfl⟩, rfl⟩
  have hnodup₁ : ((h₁.freePorts : Multiset Int) + iface.extPorts).Nodup := by
    rw [hfree, hext, Multiset.coe_nil, add_zero]
    exact Multiset.coe_nodup.mpr hnodup
  obtain ⟨hkeep, hend⟩ := allocatePorts_cases hports hnodup₁
  rw [hfree, hext] at hkeep
  rw [hfree, hext, Multiset.coe_nil, add_zero] at hend
  refine ⟨⟨?_, fun e he _ => (hkeep e he (by simp)).trans (hdest e)⟩, hrun⟩
  obtain ⟨-, hnet⟩ | ⟨rfl, hnet⟩ := hcase
  · -- the network is the old one; the ports of the new one are free again or lost
    have hle : (h'.freePorts : Multiset Int) ≤ h.freePorts := by
      obtain ⟨-, hle⟩ | ⟨-, -, hsum, -⟩ := hend
      · exact hle
      · rw [← hsum]
        exact Multiset.le_add_right _ _
    simp only [Container.extPorts, hnet]
    exact add_le_add_left hle _
  · obtain ⟨⟨msg, hnone⟩, -⟩ | ⟨-, -, hsum, -⟩ := hend
    · simp at hnone
    · have hc' : c'.extPorts = iface'.extPorts := by simp [Container.extPorts, hnet]
      rw [hc', hsum]
      exact Multiset.le_add_right _ _

/-- If all ports are accepted or the first one is refused, `allocateNetwork` leaves entries
    only if it succeeds, and these are backed. -/
theorem allocateNetwork_spec {c c' : Container} {h h' : Host} {err : Option GoString}
    (hret : c.allocateNetwork h = .ret (err, c', h')) (hnodup : h.freePorts.Nodup)
    (hfit : h.freeIPs = [] ∨ RefusesFirst h c.ports ∨ AcceptsAll h c.ports) :
    c' = c ∧ h' = h ∨ c'.networkSettings.portMapping = [] ∨
      h.freeIPs ≠ [] ∧ ¬ RefusesFirst h c.ports ∧ err = none ∧ EntriesBacked c' h' := by
  obtain ⟨-, rfl, rfl⟩ | ⟨hips, iface, iface', m, h₁, hext, hfree, hkernel, hdest, hports, hrun, hm,
    hcase⟩ := allocateNetwork_cases hret
  · exact .inl ⟨rfl, rfl⟩
  refine .inr ?_
  by_cases href : RefusesFirst h c.ports
  · left
    rw [hm]
    apply allocatePorts_refused hports
    rw [RefusesFirst, hfree, hkernel]
    exact href
  · have hacc : AcceptsAll h c.ports := (hfit.resolve_left hips).resolve_left href
    -- no port is refused, so the loop succeeds and its entries are those of the interface
    have herr : err = none := by
      apply allocatePorts_accepted hports
      · rw [AcceptsAll, hfree, hkernel]
        exact hacc
      · rw [hkernel]
        exact fun hchain => href (.inr (.inr (.inr hchain)))
    have hnodup₁ : ((h₁.freePorts : Multiset Int) + iface.extPorts).Nodup := by
      rw [hfree, hext, Multiset.coe_nil, add_zero]
      exact Multiset.coe_nodup.mpr hnodup
    obtain ⟨⟨msg, hsome⟩, -⟩ | ⟨-, -, -, -, hfor⟩ := (allocatePorts_cases hports hnodup₁).2
    · rw [herr] at hsome
      simp at hsome
    obtain ⟨⟨msg, hsome⟩, -⟩ | ⟨-, hnet⟩ := hcase
    · rw [herr] at hsome
      simp at hsome
    refine .inr ⟨hips, href, herr, fun entry hentry => ?_⟩
    rw [hm] at hentry
    obtain ⟨p, e, heq, he, hto⟩ := (hfor entry hentry).resolve_left (List.not_mem_nil)
    exact ⟨p, e, iface', heq, hnet, he, hto⟩

/-- A `Start` that forwards all ports of the container or none of them, and that does not
    fail once it has forwarded some, unless the container is running anyway. -/
def AllOrNothing (h : Host) (c : Container) (spawned : Bool) : Prop :=
  h.freeIPs = [] ∨ RefusesFirst h c.ports ∨
    AcceptsAll h c.ports ∧ (spawned = false → c.running = true)

theorem start_moves {c c' : Container} {h h' : Host} {mounted spawned : Bool}
    (hret : c.start mounted spawned h = .ret (c', h')) (hnodup : h.freePorts.Nodup) :
    Moves c c' h h' := by
  unfold Container.start at hret
  split at hret
  · cases hret
    exact ⟨le_rfl, fun _ _ _ => rfl⟩
  · obtain ⟨⟨err, c₁, h₁⟩, halloc, hret⟩ := Outcome.bind_eq_ret.mp hret
    have hmoves := (allocateNetwork_moves halloc hnodup).1
    cases err with
    | some msg =>
      cases hret
      exact hmoves
    | none =>
      cases spawned with
      | true =>
        cases hret
        exact ⟨hmoves.ports, hmoves.others⟩
      | false =>
        cases hret
        exact hmoves

theorem start_spec {c c' : Container} {h h' : Host} {mounted spawned : Bool}
    (hret : c.start mounted spawned h = .ret (c', h')) (hnodup : h.freePorts.Nodup)
    (hfit : mounted = true → AllOrNothing h c spawned) (hb : Backed c h) : Backed c' h' := by
  unfold Container.start at hret
  split at hret
  · cases hret
    exact hb
  · next hmounted =>
    obtain ⟨⟨err, c₁, h₁⟩, halloc, hret⟩ := Outcome.bind_eq_ret.mp hret
    have hfit' := hfit (by simpa using hmounted)
    have hrun := (allocateNetwork_moves halloc hnodup).2
    have hcase := allocateNetwork_spec halloc hnodup
      (hfit'.imp_right fun h => h.imp_right And.left)
    cases err with
    -- `Start` returns the error
    | some msg =>
      cases hret
      obtain ⟨rfl, rfl⟩ | hnil | ⟨-, -, hnone, -⟩ := hcase
      · exact hb
      · exact .of_nil hnil
      · simp at hnone
    | none =>
      cases spawned with
      -- the process runs: only the entries matter
      | true =>
        cases hret
        refine ⟨?_, fun hstopped => Bool.noConfusion hstopped⟩
        obtain ⟨rfl, rfl⟩ | hnil | ⟨-, -, -, hentries⟩ := hcase
        · exact hb.entries
        · exact (Backed.of_nil hnil).entries
        · exact hentries
      | false =>
        cases hret
        obtain ⟨rfl, rfl⟩ | hnil | ⟨hips, href, -, hentries⟩ := hcase
        · exact hb
        · exact .of_nil hnil
        -- a late failure, so the container was running before
        · refine ⟨hentries, fun hstopped => ?_⟩
          have hrunning := ((hfit'.resolve_left hips).resolve_left href).2 rfl
          rw [hrun, hrunning] at hstopped
          simp at hstopped

/-- A monitor that comes back has released the interface of the container. -/
theorem monitor_cases {c c' : Container} {h h' : Host} (hret : c.monitor h = .ret (c', h')) :
    ∃ iface err, c.network = some iface ∧ iface.release h = .ret (err, h') ∧
      c' = Container.save { c with
        running := false, network := none, networkSettings := .empty
        processes := c.processes - 1 } := by
  obtain ⟨⟨err, c₁, h₁⟩, hrel, hret⟩ := Outcome.bind_eq_ret.mp hret
  cases hret
  unfold Container.releaseNetwork at hrel
  split at hrel
  · simp at hrel
  · next iface hnet =>
    obtain ⟨⟨err₂, h₂⟩, hiface, hrel⟩ := Outcome.bind_eq_ret.mp hrel
    cases hrel
    exact ⟨iface, _, hnet, hiface, rfl⟩

/-- The exit of a process gives its ports back and empties the settings. -/
theorem monitor_spec {c c' : Container} {h h' : Host} (hret : c.monitor h = .ret (c', h')) :
    Moves c c' h h' ∧ Backed c' h' := by
  obtain ⟨iface, err, hnet, hiface, rfl⟩ := monitor_cases hret
  obtain ⟨hfree, hdest⟩ := release_ports hiface
  have hc : c.extPorts = iface.extPorts := by simp [Container.extPorts, hnet]
  refine ⟨⟨?_, fun e _ he => hdest e (hc ▸ he)⟩, .of_nil rfl⟩
  rw [hc]
  exact le_trans (le_of_eq (add_zero _)) hfree

/-! ## All containers -/

/-- The external ports of all containers. -/
def held (cs : List Container) : Multiset Int := (cs.map fun c => (c.extPorts : Multiset Int)).sum

/-- No external port is held twice, or held and free. -/
def PortsApart (d : Daemon) : Prop := ((d.host.freePorts : Multiset Int) + held d.containers).Nodup

/-- The published ports are backed, and the ports are apart. -/
structure Sound (d : Daemon) : Prop where
  nodup : PortsApart d
  backed : ∀ c ∈ d.containers, Backed c d.host

theorem PortsApart.freePorts {d : Daemon} (h : PortsApart d) : d.host.freePorts.Nodup :=
  Multiset.coe_nodup.mp (Multiset.nodup_of_le (Multiset.le_add_right _ _) h)

theorem held_cut (l₁ l₂ : List Container) (c : Container) :
    held (l₁ ++ c :: l₂) = c.extPorts + held (l₁ ++ l₂) := by
  simp only [held, List.map_append, List.map_cons, List.sum_append, List.sum_cons]
  abel

theorem mem_held {cs : List Container} {c : Container} (hc : c ∈ cs) {e : Int}
    (he : e ∈ c.extPorts) : e ∈ held cs := by
  obtain ⟨l₁, l₂, rfl⟩ := List.append_of_mem hc
  rw [held_cut]
  exact Multiset.mem_add.mpr (.inl he)

theorem PortsApart.update {d : Daemon} (h : PortsApart d) {k : Nat} {c c' : Container}
    (hk : d.containers[k]? = some c) {h' : Host} (hmoves : Moves c c' d.host h') :
    PortsApart ⟨h', d.containers.set k c'⟩ := by
  obtain ⟨l₁, l₂, hcut, hset, -⟩ := List.exists_cut hk
  rw [PortsApart, hcut, held_cut, ← add_assoc] at h
  rw [PortsApart, hset, held_cut, ← add_assoc]
  exact Multiset.nodup_of_le (add_le_add_left hmoves.ports _) h

/-- A step of one container keeps the others' ports out of its way. -/
theorem Sound.backed_update {d : Daemon} (hs : Sound d) {k : Nat} {c c' : Container}
    (hk : d.containers[k]? = some c) {h' : Host} (hmoves : Moves c c' d.host h')
    (hb : Backed c' h') : ∀ x ∈ d.containers.set k c', Backed x h' := by
  intro x hx
  obtain ⟨l₁, l₂, hcut, hset, -⟩ := List.exists_cut hk
  have hnodup := hs.nodup
  rw [PortsApart, hcut, held_cut, ← add_assoc] at hnodup
  rw [hset] at hx
  have hx' : x = c' ∨ x ∈ l₁ ++ l₂ := by
    rcases List.mem_append.mp hx with hx | hx
    · exact .inr (List.mem_append_left _ hx)
    · exact (List.mem_cons.mp hx).imp_right (List.mem_append_right _)
  rcases hx' with rfl | hx'
  · exact hb
  · have hxd : x ∈ d.containers := by
      rw [hcut]
      rcases List.mem_append.mp hx' with hx' | hx'
      · exact List.mem_append_left _ hx'
      · exact List.mem_append_right _ (List.mem_cons_of_mem _ hx')
    refine (hs.backed x hxd).of_destOf fun e he => ?_
    -- a port of another container is neither free nor a port of `c`
    have hout : e ∉ (d.host.freePorts : Multiset Int) + c.extPorts := fun hmem =>
      Multiset.disjoint_left.mp (Multiset.nodup_add.mp hnodup).2.2 hmem (mem_held hx' he)
    rw [Multiset.mem_add, not_or] at hout
    exact hmoves.others e hout.1 hout.2

theorem held_load (cs : List Container) : held (cs.map Container.load) = 0 := by
  induction cs with
  | nil => rfl
  | cons c cs ih =>
    rw [held, List.map_cons, List.map_cons, List.sum_cons]
    exact (zero_add _).trans ih

/-- A manager that was just made has all its ports once. -/
theorem newNetworkManager_nodup {network : IPNet} {k : Kernel} {h : Host}
    (hret : newNetworkManager network k = .ret h) : h.freePorts.Nodup := by
  obtain ⟨ips, ports, -, hports, rfl⟩ := newNetworkManager_cases hret
  exact newPortAllocator_nodup hports

/-! ## The steps of the daemon -/

theorem Daemon.step_start_cases {d d' : Daemon} {k : Nat} {mounted spawned : Bool}
    {oks : List Bool} (hstep : d.step (.start k mounted spawned oks) = some d') :
    ∃ c c' h', d.containers[k]? = some c ∧
      c.start mounted spawned (d.host.offer oks) = .ret (c', h') ∧
      d' = ⟨h', d.containers.set k c'⟩ := by
  simp only [Daemon.step, Option.bind_eq_bind, Option.bind_eq_some_iff,
    Outcome.toOption_eq_some, Option.some.injEq] at hstep
  obtain ⟨c, hk, ⟨c', h'⟩, hret, rfl⟩ := hstep
  exact ⟨c, c', h', hk, hret, rfl⟩

theorem Daemon.step_exit_cases {d d' : Daemon} {k : Nat} {oks : List Bool}
    (hstep : d.step (.exit k oks) = some d') :
    ∃ c c' h', d.containers[k]? = some c ∧ c.processes ≠ 0 ∧
      c.monitor (d.host.offer oks) = .ret (c', h') ∧ d' = ⟨h', d.containers.set k c'⟩ := by
  simp only [Daemon.step, Option.bind_eq_bind, Option.bind_eq_some_iff] at hstep
  obtain ⟨c, hk, hstep⟩ := hstep
  split at hstep
  · simp at hstep
  · next hrunning =>
    simp only [Option.bind_eq_some_iff, Outcome.toOption_eq_some, Option.some.injEq] at hstep
    obtain ⟨⟨c', h'⟩, hret, rfl⟩ := hstep
    exact ⟨c, c', h', hk, hrunning, hret, rfl⟩

theorem Daemon.step_restart_cases {d d' : Daemon} {network : IPNet} {oks : List Bool}
    (hstep : d.step (.restart network oks) = some d') :
    ∃ h', newNetworkManager network ⟨d.host.kernel.nat, oks⟩ = .ret h' ∧
      d' = ⟨h', d.containers.map Container.load⟩ := by
  simp only [Daemon.step, Option.bind_eq_bind, Option.bind_eq_some_iff,
    Outcome.toOption_eq_some, Option.some.injEq] at hstep
  obtain ⟨h', hret, rfl⟩ := hstep
  exact ⟨h', hret, rfl⟩

/-- Each `Start` forwards all ports of its container or none, and fails later only if it
    forwarded none or the container is running anyway. When the daemon is restarted, no
    saved port map has an entry. -/
def PublishesSafely (d : Daemon) : PortOp → Prop
  | .start k mounted spawned oks => ∀ c ∈ d.containers[k]?, mounted = true →
      AllOrNothing (d.host.offer oks) c spawned
  | .restart _ _ => ∀ c ∈ d.containers, c.saved.portMapping = []
  | _ => True

theorem PortsApart.step {d d' : Daemon} {op : PortOp} (h : PortsApart d)
    (hstep : d.step op = some d') : PortsApart d' := by
  cases op with
  | create id ports =>
    simp only [Daemon.step] at hstep
    split at hstep
    · cases hstep
      exact h
    · cases hstep
      have hheld : held (d.containers ++ [createContainer id ports]) = held d.containers := by
        rw [held_cut, List.append_nil]
        exact zero_add _
      show ((d.host.freePorts : Multiset Int) + held (d.containers ++ _)).Nodup
      rw [hheld]
      exact h
  | start k mounted spawned oks =>
    obtain ⟨c, c', h', hk, hret, rfl⟩ := Daemon.step_start_cases hstep
    have hmoves := start_moves hret h.freePorts
    exact h.update hk ⟨hmoves.ports, hmoves.others⟩
  | exit k oks =>
    obtain ⟨c, c', h', hk, -, hret, rfl⟩ := Daemon.step_exit_cases hstep
    have hmoves := (monitor_spec hret).1
    exact h.update hk ⟨hmoves.ports, hmoves.others⟩
  | restart network oks =>
    obtain ⟨h', hret, rfl⟩ := Daemon.step_restart_cases hstep
    show ((h'.freePorts : Multiset Int) + held (d.containers.map Container.load)).Nodup
    rw [held_load, add_zero]
    exact Multiset.coe_nodup.mpr (newNetworkManager_nodup hret)

theorem PortsApart.fresh {d : Daemon} (hd : d.Fresh) : PortsApart d := by
  obtain ⟨network, k, hret, hnil⟩ := hd
  rw [PortsApart, hnil]
  show ((d.host.freePorts : Multiset Int) + 0).Nodup
  rw [add_zero]
  exact Multiset.coe_nodup.mpr (newNetworkManager_nodup hret)

theorem Sound.step {d d' : Daemon} {op : PortOp} (hs : Sound d) (hop : PublishesSafely d op)
    (hstep : d.step op = some d') : Sound d' := by
  refine ⟨hs.nodup.step hstep, ?_⟩
  cases op with
  | create id ports =>
    simp only [Daemon.step] at hstep
    split at hstep
    · cases hstep
      exact hs.backed
    · cases hstep
      intro c hc
      rcases List.mem_append.mp hc with hc | hc
      · exact hs.backed c hc
      · rw [List.mem_singleton.mp hc]
        exact .of_nil rfl
  | start k mounted spawned oks =>
    obtain ⟨c, c', h', hk, hret, rfl⟩ := Daemon.step_start_cases hstep
    have hb : Backed c (d.host.offer oks) :=
      (hs.backed c (List.mem_of_getElem? hk)).of_destOf fun _ _ => rfl
    have hmoves := start_moves hret hs.nodup.freePorts
    exact hs.backed_update hk ⟨hmoves.ports, hmoves.others⟩
      (start_spec hret hs.nodup.freePorts (hop c hk) hb)
  | exit k oks =>
    obtain ⟨c, c', h', hk, -, hret, rfl⟩ := Daemon.step_exit_cases hstep
    obtain ⟨hmoves, hb'⟩ := monitor_spec hret
    exact hs.backed_update hk ⟨hmoves.ports, hmoves.others⟩ hb'
  | restart network oks =>
    obtain ⟨h', -, rfl⟩ := Daemon.step_restart_cases hstep
    intro c hc
    -- the saved settings become the current ones
    obtain ⟨c₀, hc₀, rfl⟩ := List.mem_map.mp hc
    exact .of_nil (hop c₀ hc₀)

theorem Sound.fresh {d : Daemon} (hd : d.Fresh) : Sound d := by
  refine ⟨.fresh hd, fun c hc => ?_⟩
  obtain ⟨network, k, -, hnil⟩ := hd
  rw [hnil] at hc
  simp at hc

/-! ## All runs -/

/-- What `CmdPort` prints is in the port map of the container. -/
theorem cmdPort_ok {d : Daemon} {name privatePort frontend : GoString}
    (h : d.cmdPort name privatePort = .ok frontend) :
    ∃ c ∈ d.containers, c.id = name ∧ (privatePort, frontend) ∈ c.networkSettings.portMapping := by
  unfold Daemon.cmdPort at h
  split at h
  · simp at h
  · next c hget =>
    have hid : c.id = name := by simpa using List.find?_some hget
    refine ⟨c, List.mem_of_find?_eq_some hget, hid, ?_⟩
    split at h
    · simp at h
    · next frontend' hlookup =>
      cases h
      obtain ⟨l₁, l₂, heq, -⟩ := List.lookup_eq_some_iff.mp hlookup
      rw [heq]
      exact List.mem_append_right _ List.mem_cons_self

/-- In every run in which each `Start` forwards all ports of its container or none (and does
    not fail after that, unless it forwarded none or the container is running anyway), and
    in which the daemon is restarted only when no saved port map has an entry: each entry of
    a port map is forwarded to its port on the current interface of the container, and a
    container that is not running has no entry. So what `CmdPort` prints is forwarded. -/
theorem entries_backed {d : Daemon} (h : portSystem.ReachableVia PublishesSafely d) :
    (∀ c ∈ d.containers,
      (∀ entry ∈ c.networkSettings.portMapping, ∃ p e iface, entry = (itoa p, itoa e) ∧
        c.network = some iface ∧ d.host.destOf e = some ⟨iface.ipNet.ip, p⟩) ∧
      (c.running = false → c.networkSettings.portMapping = [])) ∧
    ∀ name privatePort frontend, d.cmdPort name privatePort = .ok frontend →
      ∃ c ∈ d.containers, c.id = name ∧ c.running = true ∧
        ∃ p e iface, privatePort = itoa p ∧ frontend = itoa e ∧ c.network = some iface ∧
          d.host.destOf e = some ⟨iface.ipNet.ip, p⟩ := by
  have hs : Sound d := h.invariant (fun _ => Sound.fresh) fun _ _ _ => Sound.step
  refine ⟨fun c hc => ⟨fun entry hentry => ?_, (hs.backed c hc).stopped⟩, ?_⟩
  · obtain ⟨p, e, iface, heq, hnet, -, hto⟩ := (hs.backed c hc).entries entry hentry
    exact ⟨p, e, iface, heq, hnet, hto⟩
  · intro name privatePort frontend hcmd
    obtain ⟨c, hc, hid, hentry⟩ := cmdPort_ok hcmd
    have hrunning : c.running = true := by
      cases hrun : c.running with
      | true => rfl
      | false =>
        rw [(hs.backed c hc).stopped hrun] at hentry
        simp at hentry
    obtain ⟨p, e, iface, heq, hnet, -, hto⟩ := (hs.backed c hc).entries _ hentry
    cases heq
    exact ⟨c, hc, hid, hrunning, p, e, iface, rfl, rfl, hnet, hto⟩

/-- A daemon on the loopback network, whose first free ports are 49153 and 49154. -/
theorem loopback_fresh : ∃ ips rest cap, ∃ hb : (49153 :: 49154 :: rest).length ≤ cap,
    newIPAllocator loopback = .ret ips ∧
      Daemon.Fresh ⟨(loopbackNet ips ⟨⟨cap, 49153 :: 49154 :: rest, hb⟩, 0⟩).host, []⟩ := by
  obtain ⟨ips, rest, cap, hb, hips, network, k, h, hret, -, heq⟩ := loopbackNet_ready
  refine ⟨ips, rest, cap, hb, hips, network, k, ?_, rfl⟩
  rw [heq]
  exact hret

/-- A container with one port is running, and `CmdPort` reports where it is. -/
theorem entries_backed_one :
    ∃ d, portSystem.ReachableVia PublishesSafely d ∧
      d.cmdPort (str "c") (str "80") = .ok (str "49153") ∧
      ∃ c ∈ d.containers, c.id = str "c" ∧ c.running = true := by
  obtain ⟨ips, rest, cap, hb, hips, hfresh⟩ := loopback_fresh
  cases hips
  have hinit : portSystem.ReachableVia PublishesSafely _ := .init hfresh
  have h₁ := hinit.step (e := .create (str "c") [80]) (by simp only [PublishesSafely]) rfl
  have h₂ := h₁.step (e := .start 0 true true [true])
    (by
      simp only [PublishesSafely]
      rintro c hc -
      cases hc
      refine .inr (.inr ⟨⟨?_, ?_⟩, fun hspawned => Bool.noConfusion hspawned⟩)
      · show 1 ≤ (49153 :: 49154 :: rest).length
        simp
      · show ∀ b ∈ [true], b = true
        simp) rfl
  obtain ⟨c, hc, hid, hrunning, -⟩ := (entries_backed h₂).2 (str "c") (str "80") (str "49153") rfl
  exact ⟨_, h₂, rfl, c, hc, hid, hrunning⟩

/-- The second port of a container cannot be forwarded, so its `Start` fails: the container is
    not running and has no interface, but it still publishes its first port, at an external
    port that is not mapped any more. -/
theorem entry_stale :
    ∃ d, portSystem.Reachable d ∧ d.cmdPort (str "c") (str "80") = .ok (str "49153") ∧
      d.host.destOf 49153 = none ∧
      ∃ c, d.get (str "c") = some c ∧ c.networkSettings.portMapping = [(str "80", str "49153")] ∧
        c.network = none ∧ c.running = false := by
  obtain ⟨ips, rest, cap, hb, hips, hfresh⟩ := loopback_fresh
  cases hips
  have hinit : portSystem.Reachable _ := .init hfresh
  have hd := hinit.run
    [.create (str "c") [80, 443], .start 0 true true [true, false]] rfl
  exact ⟨_, hd, rfl, rfl, _, rfl, rfl, rfl, rfl⟩

end Ports

end Docker

import DockerEngine.Native.Network
import Mathlib.Tactic.Common

/-!
# What each network operation can do

One inversion lemma for each operation of `Native/Network.lean`: from the value it
returned, everything it read and changed. The invariants of the pools and of the port
forwarding are derived from these alone.
-/

namespace Docker

open Go

/-! ## iptables -/

/-- A refused command leaves the table alone: only its outcome is used up. -/
def Kernel.skip (k : Kernel) : Kernel := ⟨k.nat, k.oks.tail⟩

/-- A command that ran: the new DOCKER chain, and one outcome used up. -/
def Kernel.setRules (k : Kernel) (rules : List Rule) : Kernel :=
  ⟨{ k.nat with docker := some rules }, k.oks.tail⟩

@[simp] theorem Kernel.skip_nat (k : Kernel) : k.skip.nat = k.nat := rfl

@[simp] theorem Kernel.setRules_docker (k : Kernel) (rules : List Rule) :
    (k.setRules rules).nat.docker = some rules := rfl

@[simp] theorem Kernel.skip_oks (k : Kernel) : k.skip.oks = k.oks.tail := rfl

@[simp] theorem Kernel.setRules_oks (k : Kernel) (rules : List Rule) :
    (k.setRules rules).oks = k.oks.tail := rfl

/-- A command is refused without effect, by iptables itself or by chance, or it runs. -/
theorem iptables_cases (cmd : Command) (k : Kernel) :
    (∃ err, (k.oks.headD true = true → cmd.exec k.nat = none) ∧
      iptables cmd k = (some err, k.skip)) ∨
    (∃ nat, k.oks.headD true = true ∧ cmd.exec k.nat = some nat ∧
      iptables cmd k = (none, ⟨nat, k.oks.tail⟩)) := by
  unfold iptables
  split
  -- let through and accepted
  · next nat hok hexec => exact .inr ⟨nat, hok, hexec, rfl⟩
  -- refused by chance, or by iptables
  · next hno =>
    refine .inl ⟨_, fun hok => ?_, rfl⟩
    cases hexec : cmd.exec k.nat with
    | none => rfl
    | some nat => exact absurd hexec (hno nat hok)

/-! ## Port mapper -/

/-- `map` failed without effect, or appended the rule and recorded it. -/
theorem map_cases {port : Int} {dest : TCPAddr} {h h' : Host} {err : Option GoString}
    (hret : PortMapper.map port dest h = .ret (err, h')) :
    (∃ e, err = some e ∧ (h.kernel.oks.headD true = true → h.kernel.nat.docker = none) ∧
      h' = h.setKernel h.kernel.skip) ∨
    (∃ mapper rules, err = none ∧ h.kernel.oks.headD true = true ∧
      h.manager.portMapper = some mapper ∧ h.kernel.nat.docker = some rules ∧
      h' = (h.setKernel (h.kernel.setRules (rules ++ [⟨port, dest⟩]))).setMapping
        (Function.update mapper.mapping port (some dest))) := by
  unfold PortMapper.map at hret
  obtain ⟨e, hrefused, hip⟩ | ⟨nat, hok, hexec, hip⟩ :=
    iptables_cases (.appendRule ⟨port, dest⟩) h.kernel
  · simp only [hip, Outcome.ret.injEq, Prod.mk.injEq] at hret
    obtain ⟨rfl, rfl⟩ := hret
    exact .inl ⟨e, rfl, fun hok => Option.map_eq_none_iff.mp (hrefused hok), rfl⟩
  · obtain ⟨rules, hrules, rfl⟩ := Option.map_eq_some_iff.mp hexec
    simp only [hip] at hret
    split at hret
    · simp at hret
    · next mapper hm =>
      simp only [Outcome.ret.injEq, Prod.mk.injEq] at hret
      obtain ⟨rfl, rfl⟩ := hret
      exact .inr ⟨mapper, rules, rfl, hok, hm, hrules, rfl⟩

/-- `unmap` found no record, or iptables refused to delete the rule, or it deleted the
    rule and the record. -/
theorem unmap_cases {port : Int} {h h' : Host} {err : Option GoString}
    (hret : PortMapper.unmap port h = .ret (err, h')) :
    ∃ mapper, h.manager.portMapper = some mapper ∧
      ((mapper.mapping port = none ∧ h' = h) ∨
       (∃ dest, mapper.mapping port = some dest ∧
        (h.kernel.oks.headD true = true →
          ∀ rules, h.kernel.nat.docker = some rules → (⟨port, dest⟩ : Rule) ∉ rules) ∧
        h' = h.setKernel h.kernel.skip) ∨
       (∃ dest rules, mapper.mapping port = some dest ∧ h.kernel.nat.docker = some rules ∧
        h' = (h.setKernel (h.kernel.setRules (rules.erase ⟨port, dest⟩))).setMapping
          (Function.update mapper.mapping port none))) := by
  unfold PortMapper.unmap at hret
  split at hret
  · simp at hret
  · next mapper hm =>
    refine ⟨mapper, hm, ?_⟩
    split at hret
    -- no record, so iptables is not called
    · next hnone =>
      simp only [Outcome.ret.injEq, Prod.mk.injEq] at hret
      exact .inl ⟨hnone, hret.2.symm⟩
    · next dest hdest =>
      obtain ⟨e, hrefused, hip⟩ | ⟨nat, -, hexec, hip⟩ :=
        iptables_cases (.deleteRule ⟨port, dest⟩) h.kernel
      · simp only [hip, Outcome.ret.injEq, Prod.mk.injEq] at hret
        refine .inr (.inl ⟨dest, hdest, fun hok rules hrules hmem => ?_, hret.2.symm⟩)
        have := hrefused hok
        simp [Command.exec, hrules, hmem] at this
      · simp only [Command.exec] at hexec
        split at hexec
        · next rules hrules =>
          split at hexec
          · cases hexec
            simp only [hip, Outcome.ret.injEq, Prod.mk.injEq] at hret
            exact .inr (.inr ⟨dest, rules, hdest, hrules, hret.2.symm⟩)
          · simp at hexec
        · simp at hexec

/-- The pools are out of `unmap`'s reach. -/
theorem unmap_allocators {port : Int} {h h' : Host} {err : Option GoString}
    (hret : PortMapper.unmap port h = .ret (err, h')) :
    h'.manager.portAllocator = h.manager.portAllocator ∧
    h'.manager.ipAllocator = h.manager.ipAllocator := by
  obtain ⟨mapper, -, ⟨-, rfl⟩ | ⟨dest, -, -, rfl⟩ | ⟨dest, rules, -, -, rfl⟩⟩ := unmap_cases hret
  · exact ⟨rfl, rfl⟩
  · exact ⟨rfl, rfl⟩
  · exact ⟨rfl, rfl⟩

/-! ## Interfaces -/

/-- `allocatePort` found no free port, or gave a port back because `map` failed, or
    mapped the first free port and recorded it in the interface. -/
theorem allocatePort_cases {iface iface' : NetworkInterface} {port : Int} {h h' : Host}
    {res : Except GoString Int} (hret : iface.allocatePort port h = .ret (res, iface', h')) :
    (h.manager.portAllocator.ports.queue = [] ∧ (∃ err, res = .error err) ∧ iface' = iface ∧
      h' = h) ∨
    (∃ extPort ports, h.manager.portAllocator.ports.tryRecv = some (extPort, ports) ∧
      (h.kernel.oks.headD true = true → h.kernel.nat.docker = none) ∧
      (∃ err, res = .error err) ∧ iface' = iface ∧
      h' = (h.setKernel h.kernel.skip).setPorts
        (PortAllocator.release { h.manager.portAllocator with ports } extPort).2) ∨
    (∃ extPort ports mapper rules,
      h.manager.portAllocator.ports.tryRecv = some (extPort, ports) ∧
      h.kernel.oks.headD true = true ∧
      h.manager.portMapper = some mapper ∧ h.kernel.nat.docker = some rules ∧
      res = .ok extPort ∧ iface' = { iface with extPorts := iface.extPorts ++ [extPort] } ∧
      h' = ((h.setPorts { h.manager.portAllocator with ports }).setKernel
          (h.kernel.setRules (rules ++ [⟨extPort, ⟨iface.ipNet.ip, port⟩⟩]))).setMapping
        (Function.update mapper.mapping extPort (some ⟨iface.ipNet.ip, port⟩))) := by
  unfold NetworkInterface.allocatePort PortAllocator.acquire at hret
  cases hrecv : h.manager.portAllocator.ports.tryRecv with
  -- no free port
  | none =>
    simp only [hrecv, Outcome.ret.injEq, Prod.mk.injEq] at hret
    obtain ⟨rfl, rfl, rfl⟩ := hret
    exact .inl ⟨Chan.tryRecv_eq_none.mp hrecv, ⟨_, rfl⟩, rfl, rfl⟩
  | some p =>
    obtain ⟨extPort, ports⟩ := p
    simp only [hrecv] at hret
    obtain ⟨⟨err, h₁⟩, hmap, hret⟩ := Outcome.bind_eq_ret.mp hret
    obtain ⟨e, rfl, hrefused, rfl⟩ | ⟨mapper, rules, rfl, hok, hm, hrules, rfl⟩ := map_cases hmap
    -- `map` failed: the port goes back to the pool
    · simp only [Outcome.pure_eq_ret, Outcome.ret.injEq, Prod.mk.injEq] at hret
      obtain ⟨rfl, rfl, rfl⟩ := hret
      exact .inr (.inl ⟨extPort, ports, rfl, hrefused, ⟨_, rfl⟩, rfl, rfl⟩)
    · simp only [Outcome.pure_eq_ret, Outcome.ret.injEq, Prod.mk.injEq] at hret
      obtain ⟨rfl, rfl, rfl⟩ := hret
      exact .inr (.inr ⟨extPort, ports, mapper, rules, rfl, hok, hm, hrules, rfl, rfl, rfl⟩)

/-- `allocate` found no free address, or handed out the first one. -/
theorem allocate_cases {h h' : Host} {res : Except GoString NetworkInterface}
    (hret : NetworkManager.allocate h = (res, h')) :
    (h.manager.ipAllocator.queue.queue = [] ∧ (∃ err, res = .error err) ∧ h' = h) ∨
    (∃ ip queue, h.manager.ipAllocator.queue.tryRecv = some (ip, queue) ∧
      res = .ok ⟨⟨ip, h.manager.bridgeNetwork.mask⟩, h.manager.bridgeNetwork.ip, []⟩ ∧
      h' = h.setIPs { h.manager.ipAllocator with queue }) := by
  unfold NetworkManager.allocate IPAllocator.acquire at hret
  cases hrecv : h.manager.ipAllocator.queue.tryRecv with
  | none =>
    simp only [hrecv, Prod.mk.injEq] at hret
    obtain ⟨rfl, rfl⟩ := hret
    exact .inl ⟨Chan.tryRecv_eq_none.mp hrecv, ⟨_, rfl⟩, rfl⟩
  | some p =>
    obtain ⟨ip, queue⟩ := p
    simp only [hrecv, Prod.mk.injEq] at hret
    obtain ⟨rfl, rfl⟩ := hret
    exact .inr ⟨ip, queue, rfl, rfl, rfl⟩

/-- One round of the loop of `Release`. -/
theorem releasePorts_cons {port : Int} {ports : List Int} {h h' : Host}
    (hret : NetworkInterface.releasePorts (port :: ports) h = .ret h') :
    ∃ err h₁, PortMapper.unmap port h = .ret (err, h₁) ∧
      NetworkInterface.releasePorts ports
        (h₁.setPorts (h₁.manager.portAllocator.release port).2) = .ret h' := by
  obtain ⟨⟨err, h₁⟩, hunmap, hret⟩ := Outcome.bind_eq_ret.mp hret
  exact ⟨err, h₁, hunmap, hret⟩

/-- `release` runs the loop and then gives the address back. -/
theorem release_cases {iface : NetworkInterface} {h h' : Host} {err : Option GoString}
    (hret : iface.release h = .ret (err, h')) :
    ∃ h₁, NetworkInterface.releasePorts iface.extPorts h = .ret h₁ ∧
      err = (h₁.manager.ipAllocator.release iface.ipNet.ip).1 ∧
      h' = h₁.setIPs (h₁.manager.ipAllocator.release iface.ipNet.ip).2 := by
  obtain ⟨h₁, hloop, hret⟩ := Outcome.bind_eq_ret.mp hret
  simp only [Outcome.pure_eq_ret, Outcome.ret.injEq, Prod.mk.injEq] at hret
  exact ⟨h₁, hloop, hret.1.symm, hret.2.symm⟩

/-! ## With a port mapper nothing panics

A nil port mapper is the only thing these operations trip over; once it is there it
stays. -/

theorem map_returns (port : Int) (dest : TCPAddr) {h : Host} (hm : h.Mapped) :
    ∃ err h', PortMapper.map port dest h = .ret (err, h') ∧ h'.Mapped := by
  obtain ⟨mapper, hmapper⟩ := Option.isSome_iff_exists.mp hm
  unfold PortMapper.map
  obtain ⟨e, -, hip⟩ | ⟨nat, -, -, hip⟩ := iptables_cases (.appendRule ⟨port, dest⟩) h.kernel
  · rw [hip]
    exact ⟨_, _, rfl, hm⟩
  · rw [hip]
    simp only [hmapper]
    exact ⟨_, _, rfl, rfl⟩

theorem unmap_returns (port : Int) {h : Host} (hm : h.Mapped) :
    ∃ err h', PortMapper.unmap port h = .ret (err, h') ∧ h'.Mapped := by
  obtain ⟨mapper, hmapper⟩ := Option.isSome_iff_exists.mp hm
  simp only [PortMapper.unmap, hmapper]
  cases mapper.mapping port with
  | none => exact ⟨_, _, rfl, hm⟩
  | some dest =>
    obtain ⟨e, -, hip⟩ | ⟨nat, -, -, hip⟩ := iptables_cases (.deleteRule ⟨port, dest⟩) h.kernel
    · simp only [hip]
      exact ⟨_, _, rfl, hm⟩
    · simp only [hip]
      exact ⟨_, _, rfl, rfl⟩

theorem allocatePort_returns (iface : NetworkInterface) (port : Int) {h : Host} (hm : h.Mapped) :
    ∃ res iface' h', iface.allocatePort port h = .ret (res, iface', h') ∧ h'.Mapped := by
  unfold NetworkInterface.allocatePort
  split
  · exact ⟨_, _, _, rfl, hm⟩
  · next extPort alloc _ =>
    obtain ⟨err, h₁, hmap, hm₁⟩ :=
      map_returns extPort ⟨iface.ipNet.ip, port⟩ (h := h.setPorts alloc) hm
    rw [hmap, Outcome.ret_bind]
    cases err with
    | none => exact ⟨_, _, _, rfl, hm₁⟩
    | some err => exact ⟨_, _, _, rfl, hm₁⟩

theorem releasePorts_returns (ports : List Int) {h : Host} (hm : h.Mapped) :
    ∃ h', NetworkInterface.releasePorts ports h = .ret h' ∧ h'.Mapped := by
  induction ports generalizing h with
  | nil => exact ⟨h, rfl, hm⟩
  -- a failing `unmap` returns its error, so the loop goes on
  | cons port ports ih =>
    obtain ⟨err, h₁, hunmap, hm₁⟩ := unmap_returns port hm
    rw [NetworkInterface.releasePorts, hunmap]
    exact ih hm₁

theorem release_returns (iface : NetworkInterface) {h : Host} (hm : h.Mapped) :
    ∃ err h', iface.release h = .ret (err, h') ∧ h'.Mapped := by
  obtain ⟨h₁, hloop, hm₁⟩ := releasePorts_returns iface.extPorts hm
  rw [NetworkInterface.release, hloop]
  exact ⟨_, _, rfl, hm₁⟩

end Docker

import DockerEngine.Native.Tenancy
import DockerEngine.Spec.NetworkOps
import DockerEngine.Spec.Populate
import DockerEngine.ForStd.List

/-!
# The address pool and the port pool are conserved

Whatever is asked of a network manager, and whichever iptables commands fail, the free
values of each pool and the values held by live interfaces make up the stock that
`populate` put in. `Conserved` is the invariant, one lease per pool; each operation
moves values between the two sides.

- `Conserved.step`: one operation
- `pools_conserved`: all runs
-/

namespace Docker

open Go

/-! ## One operation on one pool -/

/-- A port that is out goes back into the pool, and the release is not refused. -/
theorem PortAllocator.release_leased (alloc : PortAllocator) {port : Int} {Q out : Multiset Int}
    (hl : Chan.Leased Q alloc.ports (port ::ₘ out)) :
    Chan.Leased Q (alloc.release port).2.ports out ∧
    (alloc.release port).2.rejected = alloc.rejected := by
  obtain ⟨ports, hsend, hl'⟩ := hl.trySend
  simp only [PortAllocator.release, hsend]
  exact ⟨hl', trivial⟩

/-- An address that is out goes back into the pool, and the release is not refused. -/
theorem IPAllocator.release_leased (alloc : IPAllocator) {ip : IP} {P out : Multiset IP}
    (hl : Chan.Leased P alloc.queue (ip ::ₘ out)) :
    Chan.Leased P (alloc.release ip).2.queue out ∧
    (alloc.release ip).2.rejected = alloc.rejected := by
  obtain ⟨queue, hsend, hl'⟩ := hl.trySend
  simp only [IPAllocator.release, hsend]
  exact ⟨hl', trivial⟩

/-- `allocatePort` takes one port out of the pool when it succeeds, and none when it fails. -/
theorem allocatePort_leased {iface iface' : NetworkInterface} {port : Int} {h h' : Host}
    {res : Except GoString Int} {Q out : Multiset Int}
    (hret : iface.allocatePort port h = .ret (res, iface', h'))
    (hl : Chan.Leased Q h.manager.portAllocator.ports out) :
    h'.manager.ipAllocator = h.manager.ipAllocator ∧
    h'.manager.portAllocator.rejected = h.manager.portAllocator.rejected ∧
    ((∃ err, res = .error err ∧ iface' = iface ∧
        Chan.Leased Q h'.manager.portAllocator.ports out) ∨
     (∃ extPort, res = .ok extPort ∧
        iface' = { iface with extPorts := iface.extPorts ++ [extPort] } ∧
        Chan.Leased Q h'.manager.portAllocator.ports (extPort ::ₘ out))) := by
  obtain ⟨-, ⟨err, rfl⟩, rfl, rfl⟩ | ⟨extPort, ports, hrecv, -, ⟨err, rfl⟩, rfl, rfl⟩ |
    ⟨extPort, ports, mapper, rules, hrecv, -, -, -, rfl, rfl, rfl⟩ := allocatePort_cases hret
  -- no free port: nothing has changed
  · exact ⟨rfl, rfl, .inl ⟨err, rfl, rfl, hl⟩⟩
  · -- the acquired port goes straight back
    obtain ⟨hback, hrej⟩ := PortAllocator.release_leased
      { h.manager.portAllocator with ports } (hl.tryRecv hrecv)
    exact ⟨rfl, hrej, .inl ⟨err, rfl, rfl, hback⟩⟩
  -- the port is out of the pool and with the interface
  · exact ⟨rfl, rfl, .inr ⟨extPort, rfl, rfl, hl.tryRecv hrecv⟩⟩

/-- The loop of `Release` puts all ports of the interface back. -/
theorem releasePorts_leased {ports : List Int} {h h' : Host} {Q out : Multiset Int}
    (hret : NetworkInterface.releasePorts ports h = .ret h')
    (hl : Chan.Leased Q h.manager.portAllocator.ports (ports + out)) :
    h'.manager.ipAllocator = h.manager.ipAllocator ∧
    h'.manager.portAllocator.rejected = h.manager.portAllocator.rejected ∧
    Chan.Leased Q h'.manager.portAllocator.ports out := by
  induction ports generalizing h with
  | nil =>
    cases hret
    rw [Multiset.coe_nil, zero_add] at hl
    exact ⟨rfl, rfl, hl⟩
  | cons port ports ih =>
    obtain ⟨err, h₁, hunmap, hret⟩ := releasePorts_cons hret
    obtain ⟨hpa, hia⟩ := unmap_allocators hunmap
    rw [← Multiset.cons_coe, Multiset.cons_add, ← hpa] at hl
    obtain ⟨hback, hrej⟩ := PortAllocator.release_leased _ hl
    obtain ⟨hia', hrej', hl'⟩ := ih hret hback
    exact ⟨hia'.trans hia, hrej'.trans (hrej.trans (by rw [hpa])), hl'⟩

/-! ## The invariant -/

/-- Both pools are leased to the live interfaces, and no release was ever refused. -/
structure Conserved (P : Multiset IP) (Q : Multiset Int) (s : Net) : Prop where
  ips : Chan.Leased P s.host.manager.ipAllocator.queue s.heldIPs
  ports : Chan.Leased Q s.host.manager.portAllocator.ports s.heldPorts
  rejected : s.rejected = 0

/-- Nothing is out of pools that were just populated. -/
theorem Conserved.fresh {network : IPNet} {start finish : Int} {h : Host}
    (hips : newIPAllocator network = .ret h.manager.ipAllocator)
    (hports : newPortAllocator start finish = .ret h.manager.portAllocator) :
    Conserved h.manager.ipAllocator.queue.queue h.manager.portAllocator.ports.queue ⟨h, []⟩ :=
  ⟨Chan.Leased.full _, Chan.Leased.full _, by
    rw [Net.rejected, (newIPAllocator_queue hips).1, (newPortAllocator_queue hports).1]⟩

/-- What an operation does to the host and to the live interfaces. Those are cut at the one that
    the operation is about. -/
inductive Net.Moves (s : Net) : NetOp → Net → Prop where
  | noAddress : Moves s .allocate s
  | allocate {ip : IP} {queue : Chan IP}
      (hrecv : s.host.manager.ipAllocator.queue.tryRecv = some (ip, queue)) :
      Moves s .allocate
        ⟨s.host.setIPs { s.host.manager.ipAllocator with queue },
          s.live ++
            [⟨⟨⟨ip, s.host.manager.bridgeNetwork.mask⟩, s.host.manager.bridgeNetwork.ip, []⟩, []⟩]⟩
  | portRefused {k : Nat} {port : Int} {oks : List Bool} {t : Tenant} {l₁ l₂ : List Tenant}
      {err : GoString} {iface : NetworkInterface} {host : Host} (hlive : s.live = l₁ ++ t :: l₂)
      (hret : t.iface.allocatePort port (s.host.offer oks) = .ret (.error err, iface, host)) :
      Moves s (.allocatePort k port oks) ⟨host, l₁ ++ ⟨iface, t.forwards⟩ :: l₂⟩
  | allocatePort {k : Nat} {port extPort : Int} {oks : List Bool} {t : Tenant}
      {l₁ l₂ : List Tenant} {iface : NetworkInterface} {host : Host}
      (hlive : s.live = l₁ ++ t :: l₂)
      (hret : t.iface.allocatePort port (s.host.offer oks) = .ret (.ok extPort, iface, host)) :
      Moves s (.allocatePort k port oks)
        ⟨host, l₁ ++ ⟨iface, t.forwards ++ [(extPort, port)]⟩ :: l₂⟩
  | release {k : Nat} {oks : List Bool} {t : Tenant} {l₁ l₂ : List Tenant}
      {err : Option GoString} {host : Host} (hlive : s.live = l₁ ++ t :: l₂)
      (ht : s.live[k]? = some t)
      (hret : t.iface.release (s.host.offer oks) = .ret (err, host)) :
      Moves s (.release k oks) ⟨host, l₁ ++ l₂⟩

theorem Net.step_cases {s s' : Net} {op : NetOp} (hstep : s.step op = some s') :
    s.Moves op s' := by
  cases op with
  | allocate =>
    simp only [Net.step] at hstep
    rcases hall : NetworkManager.allocate s.host with ⟨res, host⟩
    obtain ⟨-, ⟨err, rfl⟩, rfl⟩ | ⟨ip, queue, hrecv, rfl, rfl⟩ := allocate_cases hall
    · rw [hall] at hstep
      cases hstep
      exact .noAddress
    · rw [hall] at hstep
      cases hstep
      exact .allocate hrecv
  | allocatePort k port oks =>
    simp only [Net.step, Option.bind_eq_bind, Option.bind_eq_some_iff,
      Outcome.toOption_eq_some] at hstep
    obtain ⟨t, ht, ⟨res, iface, host⟩, hret, hstep⟩ := hstep
    obtain ⟨l₁, l₂, hlive, hset, -⟩ := List.exists_cut ht
    simp only [hset] at hstep
    cases res with
    | ok extPort =>
      cases hstep
      exact .allocatePort hlive hret
    | error err =>
      cases hstep
      exact .portRefused hlive hret
  | release k oks =>
    simp only [Net.step, Option.bind_eq_bind, Option.bind_eq_some_iff,
      Outcome.toOption_eq_some, Option.some.injEq] at hstep
    obtain ⟨t, ht, ⟨err, host⟩, hret, rfl⟩ := hstep
    obtain ⟨l₁, l₂, hlive, -, herase⟩ := List.exists_cut ht
    rw [herase]
    exact .release hlive ht hret

/-- The ports held by a list of live interfaces cut at one of them. -/
private theorem heldPorts_cut (l₁ l₂ : List Tenant) (t : Tenant) :
    (l₁ ++ t :: l₂).flatMap (·.iface.extPorts) =
      l₁.flatMap (·.iface.extPorts) ++ (t.iface.extPorts ++ l₂.flatMap (·.iface.extPorts)) := by
  rw [List.flatMap_append, List.flatMap_cons]

theorem Conserved.allocate {P : Multiset IP} {Q : Multiset Int} {s s' : Net}
    (hc : Conserved P Q s) (hstep : s.step .allocate = some s') : Conserved P Q s' := by
  cases Net.step_cases hstep with
  | noAddress => exact hc
  | @allocate ip queue hrecv =>
    obtain ⟨hips, hports, hrej⟩ := hc
    -- the address moves from the pool to the new interface
    have hheld : (ip ::ₘ (s.heldIPs : Multiset IP)) = ↑(s.heldIPs ++ [ip]) :=
      Multiset.coe_eq_coe.mpr (List.perm_append_singleton ip s.heldIPs).symm
    have hl := hips.tryRecv hrecv
    rw [hheld] at hl
    refine ⟨?_, ?_, hrej⟩
    · simp only [Net.heldIPs, List.map_append, Host.setIPs_ipAllocator]
      exact hl
    · simp only [Net.heldPorts, List.flatMap_append, List.flatMap_singleton, List.append_nil]
      exact hports

theorem Conserved.allocatePort {P : Multiset IP} {Q : Multiset Int} {s s' : Net} {k : Nat}
    {port : Int} {oks : List Bool} (hc : Conserved P Q s)
    (hstep : s.step (.allocatePort k port oks) = some s') : Conserved P Q s' := by
  obtain ⟨hips, hports, hrej⟩ := hc
  cases Net.step_cases hstep with
  | portRefused hlive hret =>
    simp only [Net.heldIPs, Net.heldPorts, hlive] at hips hports
    rw [heldPorts_cut] at hports
    obtain ⟨hia, hrej', ⟨err, -, rfl, hl⟩ | ⟨extPort, hres, -⟩⟩ := allocatePort_leased hret hports
    · refine ⟨?_, ?_, ?_⟩
      · simp only [Net.heldIPs, hia, List.map_append, List.map_cons] at hips ⊢
        exact hips
      · simp only [Net.heldPorts, heldPorts_cut]
        exact hl
      · simp only [Net.rejected, hia, hrej'] at hrej ⊢
        exact hrej
    · simp at hres
  | @allocatePort _ _ extPort _ t l₁ l₂ iface host hlive hret =>
    simp only [Net.heldIPs, Net.heldPorts, hlive] at hips hports
    rw [heldPorts_cut] at hports
    obtain ⟨hia, hrej', ⟨err, hres, -⟩ | ⟨extPort', hres, rfl, hl⟩⟩ :=
      allocatePort_leased hret hports
    · simp at hres
    cases hres
    -- the port moves from the pool to the interface, wherever that stands in the list
    have hheld : (l₁.flatMap (·.iface.extPorts) ++ ((t.iface.extPorts ++ [extPort]) ++
          l₂.flatMap (·.iface.extPorts))).Perm
        (extPort :: (l₁.flatMap (·.iface.extPorts) ++ (t.iface.extPorts ++
          l₂.flatMap (·.iface.extPorts)))) := by
      rw [List.append_assoc, List.singleton_append, ← List.append_assoc,
        ← List.append_assoc (l₁.flatMap _)]
      exact List.perm_middle
    refine ⟨?_, ?_, ?_⟩
    · simp only [Net.heldIPs, hia, List.map_append, List.map_cons] at hips ⊢
      exact hips
    · simp only [Net.heldPorts, heldPorts_cut]
      rw [Multiset.coe_eq_coe.mpr hheld]
      exact hl
    · simp only [Net.rejected, hia, hrej'] at hrej ⊢
      exact hrej

theorem Conserved.release {P : Multiset IP} {Q : Multiset Int} {s s' : Net} {k : Nat}
    {oks : List Bool} (hc : Conserved P Q s)
    (hstep : s.step (.release k oks) = some s') : Conserved P Q s' := by
  obtain ⟨hips, hports, hrej⟩ := hc
  cases Net.step_cases hstep with
  | @release _ _ t l₁ l₂ err host hlive _ hret =>
    obtain ⟨h₁, hloop, -, rfl⟩ := release_cases hret
    -- the ports of `t` are put back by the loop
    have hheldPorts : (s.heldPorts : Multiset Int) =
        t.iface.extPorts + ↑(l₁.flatMap (·.iface.extPorts) ++ l₂.flatMap (·.iface.extPorts)) := by
      rw [Net.heldPorts, hlive, heldPorts_cut, Multiset.coe_add]
      exact Multiset.coe_eq_coe.mpr (List.perm_append_comm_assoc ..)
    rw [hheldPorts] at hports
    obtain ⟨hia, hrej', hl⟩ := releasePorts_leased hloop hports
    -- its address is put back at the end
    have hheldIPs : (s.heldIPs : Multiset IP) =
        t.ip ::ₘ ↑(l₁.map Tenant.ip ++ l₂.map Tenant.ip) := by
      rw [Net.heldIPs, hlive, List.map_append, List.map_cons]
      exact Multiset.coe_eq_coe.mpr List.perm_middle
    rw [hheldIPs] at hips
    obtain ⟨hback, hrejIP⟩ := IPAllocator.release_leased h₁.manager.ipAllocator
      (show Chan.Leased P _ (t.ip ::ₘ _) by rw [hia]; exact hips)
    refine ⟨?_, ?_, ?_⟩
    · simp only [Net.heldIPs, List.map_append]
      exact hback
    · simp only [Net.heldPorts, List.flatMap_append]
      exact hl
    · simp only [Net.rejected, Host.setIPs_ipAllocator, Host.setIPs_portAllocator] at hrej ⊢
      rw [show t.iface.ipNet.ip = t.ip from rfl, hrejIP, hia, hrej']
      exact hrej

/-- One operation keeps both pools conserved. -/
theorem Conserved.step {P : Multiset IP} {Q : Multiset Int} {s s' : Net} {op : NetOp}
    (hc : Conserved P Q s) (hstep : s.step op = some s') : Conserved P Q s' := by
  cases op with
  | allocate => exact hc.allocate hstep
  | allocatePort k port oks => exact hc.allocatePort hstep
  | release k oks => exact hc.release hstep

/-- With a port mapper every operation on a live interface returns, and the mapper stays. -/
theorem Net.step_returns {s : Net} {op : NetOp} (hm : s.host.Mapped) (ht : s.Targets op) :
    ∃ s', s.step op = some s' ∧ s'.host.Mapped := by
  cases op with
  | allocate =>
    simp only [Net.step]
    rcases hall : NetworkManager.allocate s.host with ⟨res, host⟩
    obtain ⟨-, ⟨err, rfl⟩, rfl⟩ | ⟨ip, queue, -, rfl, rfl⟩ := allocate_cases hall
    · exact ⟨_, rfl, hm⟩
    · exact ⟨_, rfl, hm⟩
  | allocatePort k port oks =>
    obtain ⟨res, iface, host, hret, hm'⟩ :=
      allocatePort_returns s.live[k].iface port (h := s.host.offer oks) hm
    simp only [Net.step, List.getElem?_eq_getElem ht, Option.bind_eq_bind, Option.bind_some, hret,
      Outcome.toOption_ret]
    cases res with
    | ok extPort => exact ⟨_, rfl, hm'⟩
    | error err => exact ⟨_, rfl, hm'⟩
  | release k oks =>
    obtain ⟨err, host, hret, hm'⟩ := release_returns s.live[k].iface (h := s.host.offer oks) hm
    simp only [Net.step, List.getElem?_eq_getElem ht, Option.bind_eq_bind, Option.bind_some, hret,
      Outcome.toOption_ret]
    exact ⟨_, rfl, hm'⟩

/-- The operation of a step spoke of a live interface. -/
theorem Net.targets_of_step {s s' : Net} {op : NetOp} (hstep : s.step op = some s') :
    s.Targets op := by
  cases op with
  | allocate => trivial
  | allocatePort k port oks =>
    obtain ⟨t, ht, -⟩ := Option.bind_eq_some_iff.mp hstep
    exact (List.getElem?_eq_some_iff.mp ht).1
  | release k oks =>
    obtain ⟨t, ht, -⟩ := Option.bind_eq_some_iff.mp hstep
    exact (List.getElem?_eq_some_iff.mp ht).1

theorem Net.mapped_step {s s' : Net} {op : NetOp} (hm : s.host.Mapped)
    (hstep : s.step op = some s') : s'.host.Mapped := by
  obtain ⟨s₁, hs₁, hm₁⟩ := Net.step_returns hm (Net.targets_of_step hstep)
  rw [hstep] at hs₁
  cases hs₁
  exact hm₁

/-! ## All runs -/

/-- After any operations on a freshly populated manager, the free and the held addresses
    make up the stock, and so do the free and the held ports; hence nothing is held twice,
    no release was refused, and once every interface is released both pools are
    permutations of what they were. If the manager has a port mapper, no operation on a
    live interface can panic or block either. -/
theorem pools_conserved {network : IPNet} {start finish : Int} {ips : IPAllocator}
    {ports : PortAllocator} (mapper : Option PortMapper) (nat : NatTable)
    (hips : newIPAllocator network = .ret ips)
    (hports : newPortAllocator start finish = .ret ports) {ops : List NetOp} {s : Net}
    (hrun : netSystem.run (Net.populated network ips ports mapper nat) ops = some s) :
    (s.freeIPs : Multiset IP) + s.heldIPs = ips.queue.queue ∧
    (s.freePorts : Multiset Int) + s.heldPorts = ports.ports.queue ∧
    s.heldIPs.Nodup ∧ s.heldPorts.Nodup ∧ s.rejected = 0 ∧
    (s.live = [] → s.freeIPs.Perm ips.queue.queue ∧ s.freePorts.Perm ports.ports.queue) ∧
    (mapper.isSome → ∀ op, s.Targets op → (s.step op).isSome) := by
  have hc : Conserved ips.queue.queue ports.ports.queue s :=
    System.run_invariant netSystem (fun _ _ _ => Conserved.step)
      (Conserved.fresh (h := (Net.populated network ips ports mapper nat).host) hips hports) hrun
  have hm : mapper.isSome → s.host.Mapped := fun h =>
    System.run_invariant netSystem (fun _ _ _ => Net.mapped_step)
      (show (Net.populated network ips ports mapper nat).host.Mapped from h) hrun
  -- the stock has no value twice, so free and held values are all different
  have hnodupIPs := hc.ips.nodup (Multiset.coe_nodup.mpr (newIPAllocator_nodup hips))
  have hnodupPorts := hc.ports.nodup (Multiset.coe_nodup.mpr (newPortAllocator_nodup hports))
  refine ⟨hc.ips.balance, hc.ports.balance, Multiset.coe_nodup.mp hnodupIPs.2.1,
    Multiset.coe_nodup.mp hnodupPorts.2.1, hc.rejected, ?_, ?_⟩
  -- nothing is held, so the pools hold all of the stock
  · intro hlive
    have hips' := hc.ips
    have hports' := hc.ports
    simp only [Net.heldIPs, Net.heldPorts, hlive, List.map_nil, List.flatMap_nil,
      Multiset.coe_nil] at hips' hports'
    exact ⟨hips'.perm_of_none_out, hports'.perm_of_none_out⟩
  · intro hsome op ht
    obtain ⟨s', hs', -⟩ := Net.step_returns (hm hsome) ht
    rw [hs']
    rfl

/-- The loopback network with five addresses and two ports: a failing `-A`, a mapping,
    and a release whose `-D` fails. -/
theorem pools_conserved_loopback :
    ∃ ips ports s, newIPAllocator ⟨⟨127, 0, 0, 1⟩, ⟨255, 255, 255, 248⟩⟩ = .ret ips ∧
      newPortAllocator 49153 49155 = .ret ports ∧
      netSystem.run (Net.populated ⟨⟨127, 0, 0, 1⟩, ⟨255, 255, 255, 248⟩⟩ ips ports
          (some ⟨fun _ => none⟩) ⟨1, some []⟩)
        [.allocate, .allocatePort 0 80 [false], .allocatePort 0 80 [true], .release 0 [false]]
        = some s ∧
      (s.freeIPs.Perm ips.queue.queue ∧ s.freePorts.Perm ports.ports.queue) :=
  ⟨_, _, _, rfl, rfl, rfl,
    (@pools_conserved ⟨⟨127, 0, 0, 1⟩, ⟨255, 255, 255, 248⟩⟩ 49153 49155 _ _
      (some ⟨fun _ => none⟩) ⟨1, some []⟩ rfl rfl
      [.allocate, .allocatePort 0 80 [false], .allocatePort 0 80 [true], .release 0 [false]]
      _ rfl).2.2.2.2.2.1 rfl⟩

end Docker

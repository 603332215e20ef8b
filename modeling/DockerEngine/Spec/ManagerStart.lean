import DockerEngine.Native.Tenancy
import DockerEngine.Spec.PortForwarding

/-!
# A network manager that was started

`newNetworkManager` drops the error of `newPortMapper`, so it returns a manager whose
iptables commands failed like any other, only without a port mapper. Which commands have to
succeed depends on what an earlier daemon left in the nat table: `-N` and `-A` always, and
`-D`, `-F` and `-X` as far as there is something for them to take away.

- `newPortMapper_ok_iff`: when the port mapper is made
- `manager_works`: all runs of the manager that was returned
-/

namespace Docker

open Go

/-! ## The commands of a start -/

/-- iptables command number `i` from now is let through. -/
def Kernel.lets (k : Kernel) (i : Nat) : Bool := (k.oks.drop i).headD true

/-- An old chain is emptied, its only jump deleted and the chain deleted, as far as it is there,
    and both commands for the new one are let through. -/
structure Kernel.SetsUp (k : Kernel) : Prop where
  clears : ∀ rules, k.nat.docker = some rules → k.lets 2 = true ∧
    (rules = [] ∨ k.lets 1 = true) ∧ (k.nat.jumps = 0 ∨ k.nat.jumps = 1 ∧ k.lets 0 = true)
  newChain : k.lets 3 = true
  appendJump : k.lets 4 = true

section

variable (k : Kernel)

theorem iptables_oks (cmd : Command) : (iptables cmd k).2.oks = k.oks.tail := by
  obtain ⟨e, -, hip⟩ | ⟨nat, -, -, hip⟩ := iptables_cases cmd k
  · rw [hip]
    rfl
  · rw [hip]

/-- A command that finds nothing to refuse does what it does when it is let through. -/
theorem iptables_lets {cmd : Command} {nat : NatTable} (hexec : cmd.exec k.nat = some nat) :
    (iptables cmd k).2.nat = if k.lets 0 then nat else k.nat := by
  obtain ⟨e, hrefused, hip⟩ | ⟨nat', hok, hexec', hip⟩ := iptables_cases cmd k
  · rw [hip, if_neg]
    · rfl
    · intro hok
      simp [hrefused hok] at hexec
  · rw [hexec] at hexec'
    cases hexec'
    rw [hip, if_pos (show k.lets 0 = true from hok)]

theorem deleteJump_nat : (iptables .deleteJump k).2.nat =
    if k.lets 0 then { k.nat with jumps := k.nat.jumps - 1 } else k.nat := by
  by_cases hzero : k.nat.jumps = 0
  · -- iptables refuses, as there is no jump
    have hsame : { k.nat with jumps := k.nat.jumps - 1 } = k.nat := by
      rw [hzero, Nat.zero_sub, ← hzero]
    obtain ⟨e, -, hip⟩ | ⟨nat, -, hexec, -⟩ := iptables_cases .deleteJump k
    · rw [hip, hsame, ite_self]
      rfl
    · simp [Command.exec, hzero] at hexec
  · exact iptables_lets k (by simp [Command.exec, hzero])

theorem flushChain_nat : (iptables .flushChain k).2.nat =
    if k.lets 0 then { k.nat with docker := k.nat.docker.map fun _ => [] } else k.nat := by
  cases hchain : k.nat.docker with
  | none =>
    obtain ⟨e, -, hip⟩ | ⟨nat, -, hexec, -⟩ := iptables_cases .flushChain k
    · rw [hip, Option.map_none, ← hchain]
      simp
    · simp [Command.exec, hchain] at hexec
  | some rules => exact iptables_lets k (by simp [Command.exec, hchain])

theorem deleteChain_docker : (iptables .deleteChain k).2.nat.docker = none ↔
    k.nat.docker = none ∨ k.lets 0 = true ∧ k.nat.docker = some [] ∧ k.nat.jumps = 0 := by
  by_cases hfree : k.nat.docker = some [] ∧ k.nat.jumps = 0
  · rw [iptables_lets k (show Command.deleteChain.exec k.nat = some { k.nat with docker := none } by
      simp [Command.exec, hfree])]
    cases k.lets 0 <;> simp [hfree]
  · obtain ⟨e, -, hip⟩ | ⟨nat, -, hexec, -⟩ := iptables_cases .deleteChain k
    · rw [hip]
      simp [hfree]
    · simp [Command.exec, hfree] at hexec

/-- `cleanup` lets three commands run. -/
theorem cleanup_oks : (PortMapper.cleanup k).2.oks = k.oks.drop 3 := by
  simp only [PortMapper.cleanup, iptables_oks, ← List.drop_one, List.drop_drop]

/-- After `cleanup` there is no chain, if there was none or its parts could be taken away. -/
theorem cleanup_docker : (PortMapper.cleanup k).2.nat.docker = none ↔
    ∀ rules, k.nat.docker = some rules → k.lets 2 = true ∧
      (rules = [] ∨ k.lets 1 = true) ∧ (k.nat.jumps = 0 ∨ k.nat.jumps = 1 ∧ k.lets 0 = true) := by
  have hlets₁ : (iptables .deleteJump k).2.lets 0 = k.lets 1 := by
    rw [Kernel.lets, iptables_oks, Kernel.lets, ← List.drop_one, List.drop_drop]
  have hlets₂ : (iptables .flushChain (iptables .deleteJump k).2).2.lets 0 = k.lets 2 := by
    rw [Kernel.lets, iptables_oks, iptables_oks, Kernel.lets, ← List.drop_one, ← List.drop_one,
      List.drop_drop, List.drop_drop]
  show (iptables .deleteChain (iptables .flushChain (iptables .deleteJump k).2).2).2.nat.docker =
    none ↔ _
  rw [deleteChain_docker, hlets₂, flushChain_nat, hlets₁, deleteJump_nat]
  cases hchain : k.nat.docker with
  | none => cases k.lets 0 <;> cases k.lets 1 <;> simp [hchain]
  | some rules =>
    cases k.lets 0 <;> cases k.lets 1 <;> simp [hchain] <;> omega

/-- `setup` succeeds when there is no chain and both commands are let through, and then the
    chain is there and jumped to. -/
theorem setup_cases :
    (k.nat.docker = none ∧ k.lets 0 = true ∧ k.lets 1 = true ∧
      PortMapper.setup k = (none, ⟨⟨k.nat.jumps + 1, some []⟩, k.oks.drop 2⟩)) ∨
    (¬ (k.nat.docker = none ∧ k.lets 0 = true ∧ k.lets 1 = true) ∧
      ∃ err, (PortMapper.setup k).1 = some err) := by
  have hlets : ∀ nat, (⟨nat, k.oks.tail⟩ : Kernel).oks.headD true = k.lets 1 := by
    intro nat
    rw [Kernel.lets, ← List.drop_one]
  unfold PortMapper.setup
  obtain ⟨e, hrefused, hnew⟩ | ⟨nat, hok, hexec, hnew⟩ := iptables_cases .newChain k
  · simp only [hnew]
    refine .inr ⟨fun ⟨hnone, hok, _⟩ => ?_, _, rfl⟩
    have hno := hrefused hok
    simp [Command.exec, hnone] at hno
  · have hnat : k.nat.docker = none ∧ nat = { k.nat with docker := some [] } := by
      cases hchain : k.nat.docker with
      | none => simpa [Command.exec, hchain] using hexec.symm
      | some rules => simp [Command.exec, hchain] at hexec
    obtain ⟨hnone, rfl⟩ := hnat
    simp only [hnew]
    obtain ⟨e, hrefused, hjump⟩ | ⟨nat', hok', hexec', hjump⟩ :=
      iptables_cases .appendJump ⟨{ k.nat with docker := some [] }, k.oks.tail⟩
    · simp only [hjump]
      refine .inr ⟨fun ⟨_, _, hok'⟩ => ?_, _, rfl⟩
      have hno := hrefused ((hlets _).trans hok')
      simp [Command.exec] at hno
    · simp only [hjump]
      cases hexec'
      have htail : k.oks.tail.tail = k.oks.drop 2 := by
        rw [← List.drop_one, ← List.drop_one, List.drop_drop]
      exact .inl ⟨hnone, hok, (hlets _).symm.trans hok', by rw [← htail]⟩

/-- `newPortMapper` succeeds exactly when the commands it needs do, and then the chain is
    there and jumped to. -/
theorem newPortMapper_cases :
    (k.SetsUp ∧ ∃ mapper, (newPortMapper k).1 = .ok mapper ∧
      (newPortMapper k).2.nat.docker = some [] ∧ 0 < (newPortMapper k).2.nat.jumps) ∨
    (¬ k.SetsUp ∧ ∃ err, (newPortMapper k).1 = .error err) := by
  have hlets : ∀ i, (PortMapper.cleanup k).2.lets i = k.lets (3 + i) := by
    intro i
    rw [Kernel.lets, cleanup_oks, List.drop_drop, Kernel.lets]
  unfold newPortMapper
  obtain ⟨hnone, hnew, hjump, hsetup⟩ | ⟨hno, err, hsetup⟩ := setup_cases (PortMapper.cleanup k).2
  · simp only [hsetup]
    rw [hlets] at hnew hjump
    exact .inl ⟨⟨(cleanup_docker k).mp hnone, hnew, hjump⟩, _, rfl, trivial, Nat.succ_pos _⟩
  · refine .inr ⟨fun hsets => hno ?_, ?_⟩
    · rw [hlets, hlets]
      exact ⟨(cleanup_docker k).mpr hsets.clears, hsets.newChain, hsets.appendJump⟩
    · rcases hres : PortMapper.setup (PortMapper.cleanup k).2 with ⟨res, k'⟩
      rw [hres] at hsetup
      cases hsetup
      simp only [hres]
      exact ⟨err, rfl⟩

end

/-! ## The manager at work -/

/-- The port mapper is there, and so is the chain, with a jump to it. -/
structure Host.SetUp (h : Host) : Prop where
  mapper : h.Mapped
  chain : h.kernel.nat.docker.isSome
  jump : 0 < h.kernel.nat.jumps

namespace Host.SetUp

variable {h h' : Host}

/-- What an operation may do to the table and the mapper. -/
theorem of_eq (hs : h.SetUp) (hm : h'.Mapped)
    (hchain : h.kernel.nat.docker.isSome → h'.kernel.nat.docker.isSome)
    (hjumps : h'.kernel.nat.jumps = h.kernel.nat.jumps) : h'.SetUp :=
  ⟨hm, hchain hs.chain, hjumps ▸ hs.jump⟩

theorem unmap (hs : h.SetUp) {port : Int} {err : Option GoString}
    (hret : PortMapper.unmap port h = .ret (err, h')) : h'.SetUp := by
  obtain ⟨mapper, -, ⟨-, rfl⟩ | ⟨dest, -, -, rfl⟩ | ⟨dest, rules, -, -, rfl⟩⟩ := unmap_cases hret
  · exact hs
  · exact hs.of_eq hs.mapper id rfl
  · exact hs.of_eq rfl (fun _ => rfl) rfl

theorem allocatePort (hs : h.SetUp) {iface iface' : NetworkInterface} {port : Int}
    {res : Except GoString Int} (hret : iface.allocatePort port h = .ret (res, iface', h')) :
    h'.SetUp := by
  obtain ⟨-, -, -, rfl⟩ | ⟨extPort, ports, -, -, -, -, rfl⟩ |
    ⟨extPort, ports, mapper, rules, -, -, -, -, -, -, rfl⟩ := allocatePort_cases hret
  · exact hs
  · exact hs.of_eq hs.mapper id rfl
  · exact hs.of_eq rfl (fun _ => rfl) rfl

theorem releasePorts {ports : List Int} (hs : h.SetUp)
    (hret : NetworkInterface.releasePorts ports h = .ret h') : h'.SetUp := by
  induction ports generalizing h with
  | nil =>
    cases hret
    exact hs
  | cons port ports ih =>
    obtain ⟨err, h₁, hunmap, hrest⟩ := releasePorts_cons hret
    have hs₁ := hs.unmap hunmap
    have hs₂ : (h₁.setPorts (h₁.manager.portAllocator.release port).2).SetUp :=
      hs₁.of_eq hs₁.mapper id rfl
    exact ih hs₂ hrest

theorem release (hs : h.SetUp) {iface : NetworkInterface} {err : Option GoString}
    (hret : iface.release h = .ret (err, h')) : h'.SetUp := by
  obtain ⟨h₁, hloop, -, rfl⟩ := release_cases hret
  have hs₁ := hs.releasePorts hloop
  exact hs₁.of_eq hs₁.mapper id rfl

theorem offer (hs : h.SetUp) (oks : List Bool) : (h.offer oks).SetUp := hs.of_eq hs.mapper id rfl

theorem step {s s' : Net} {op : NetOp} (hs : s.host.SetUp) (hstep : s.step op = some s') :
    s'.host.SetUp := by
  cases Net.step_cases hstep with
  | noAddress => exact hs
  | allocate => exact hs.of_eq hs.mapper id rfl
  | portRefused _ hret | allocatePort _ hret => exact (hs.offer _).allocatePort hret
  | release _ _ hret => exact (hs.offer _).release hret

end Host.SetUp

/-- No operation panics or fails for want of the chain. `Map` fails when its command is not let
    through, `AllocatePort` also when no port is free, and `Unmap` also when the port is not
    mapped or its rule is not in the chain. -/
structure Host.Works (h : Host) : Prop where
  map : ∀ port dest oks, ∃ err h', PortMapper.map port dest (h.offer oks) = .ret (err, h') ∧
    (err ≠ none → oks.headD true = false)
  unmap : ∀ port oks, ∃ err h', PortMapper.unmap port (h.offer oks) = .ret (err, h') ∧
    (err ≠ none → oks.headD true = false ∨ ∃ mapper rules, h.manager.portMapper = some mapper ∧
      h.kernel.nat.docker = some rules ∧
      ∀ dest, mapper.mapping port = some dest → ⟨port, dest⟩ ∉ rules)
  allocatePort : ∀ (iface : NetworkInterface) port oks, ∃ res iface' h',
    iface.allocatePort port (h.offer oks) = .ret (res, iface', h') ∧
    ((∃ err, res = .error err) →
      h.manager.portAllocator.ports.queue = [] ∨ oks.headD true = false)
  release : ∀ (iface : NetworkInterface) oks, ∃ err h',
    iface.release (h.offer oks) = .ret (err, h')

namespace Host.SetUp

variable {h : Host}

/-- With the chain in its place, what iptables lets through is not refused. -/
theorem not_refused (hs : h.SetUp) {oks : List Bool}
    (hrefused : oks.headD true = true → h.kernel.nat.docker = none) : oks.headD true = false := by
  have hchain := hs.chain
  cases hok : oks.headD true with
  | false => rfl
  | true =>
    rw [hrefused hok] at hchain
    simp at hchain

theorem works_map (hs : h.SetUp) (port : Int) (dest : TCPAddr) (oks : List Bool) :
    ∃ err h', PortMapper.map port dest (h.offer oks) = .ret (err, h') ∧
      (err ≠ none → oks.headD true = false) := by
  obtain ⟨err, h', hret, -⟩ := map_returns port dest (hs.offer oks).mapper
  refine ⟨err, h', hret, fun hfail => ?_⟩
  obtain ⟨e, -, hrefused, -⟩ | ⟨mapper, rules, rfl, -⟩ := map_cases hret
  · exact hs.not_refused hrefused
  · exact absurd rfl hfail

theorem works_unmap (hs : h.SetUp) (port : Int) (oks : List Bool) :
    ∃ err h', PortMapper.unmap port (h.offer oks) = .ret (err, h') ∧
      (err ≠ none → oks.headD true = false ∨ ∃ mapper rules, h.manager.portMapper = some mapper ∧
        h.kernel.nat.docker = some rules ∧
        ∀ dest, mapper.mapping port = some dest → ⟨port, dest⟩ ∉ rules) := by
  obtain ⟨mapper, hmapper⟩ := Option.isSome_iff_exists.mp hs.mapper
  obtain ⟨rules, hrules⟩ := Option.isSome_iff_exists.mp hs.chain
  simp only [PortMapper.unmap, Host.offer_manager, hmapper]
  cases hport : mapper.mapping port with
  | none =>
    refine ⟨_, _, rfl, fun _ => .inr ⟨mapper, rules, rfl, hrules, fun dest hdest => ?_⟩⟩
    rw [hport] at hdest
    simp at hdest
  | some dest =>
    obtain ⟨e, hrefused, hip⟩ | ⟨nat, -, -, hip⟩ :=
      iptables_cases (.deleteRule ⟨port, dest⟩) (h.offer oks).kernel
    · simp only [hip]
      refine ⟨_, _, rfl, fun _ => ?_⟩
      cases hok : oks.headD true with
      | false => exact .inl rfl
      | true =>
        -- iptables refuses a rule that is not there
        refine .inr ⟨mapper, rules, rfl, hrules, fun dest' hdest' hmem => ?_⟩
        cases hport.symm.trans hdest'
        have hno := hrefused hok
        simp [Command.exec, hrules, hmem] at hno
    · simp only [hip]
      exact ⟨_, _, rfl, fun hfail => absurd rfl hfail⟩

theorem works_allocatePort (hs : h.SetUp) (iface : NetworkInterface) (port : Int)
    (oks : List Bool) : ∃ res iface' h',
      iface.allocatePort port (h.offer oks) = .ret (res, iface', h') ∧
      ((∃ err, res = .error err) →
        h.manager.portAllocator.ports.queue = [] ∨ oks.headD true = false) := by
  obtain ⟨res, iface', h', hret, -⟩ := allocatePort_returns iface port (hs.offer oks).mapper
  refine ⟨res, iface', h', hret, fun ⟨err, hres⟩ => ?_⟩
  obtain ⟨hempty, -⟩ | ⟨extPort, ports, -, hrefused, -⟩ |
    ⟨extPort, ports, mapper, rules, -, -, -, -, hok, -⟩ := allocatePort_cases hret
  · exact .inl hempty
  · exact .inr (hs.not_refused hrefused)
  · rw [hres] at hok
    simp at hok

theorem works (hs : h.SetUp) : h.Works where
  map := hs.works_map
  unmap := hs.works_unmap
  allocatePort := hs.works_allocatePort
  release iface oks := by
    obtain ⟨err, h', hret, -⟩ := release_returns iface (hs.offer oks).mapper
    exact ⟨err, h', hret⟩

end Host.SetUp

/-! ## All runs -/

/-- A manager that was returned has its port mapper, the chain and the jump in every run of
    `Allocate`, `AllocatePort` and `Release`, and nothing panics or fails for want of the
    chain, exactly when the commands that its start needed were let through. Otherwise it
    has no port mapper, and no error was returned either. -/
theorem manager_works {network : IPNet} {k : Kernel} {h : Host}
    (hret : newNetworkManager network k = .ret h) :
    (∀ ops s, netSystem.run ⟨h, []⟩ ops = some s → s.host.SetUp ∧ s.host.Works) ↔ k.SetsUp := by
  obtain ⟨ips, ports, -, -, rfl⟩ := newNetworkManager_cases hret
  constructor
  · intro hruns
    have hmapped := (hruns [] _ rfl).1.mapper
    obtain ⟨hsets, -⟩ | ⟨-, err, herr⟩ := newPortMapper_cases k
    · exact hsets
    · simp [Host.Mapped, herr, Except.toOption] at hmapped
  · intro hsets ops s hrun
    obtain ⟨-, mapper, hmapper, hchain, hjumps⟩ | ⟨hno, -⟩ := newPortMapper_cases k
    · have hs : s.host.SetUp := by
        refine System.run_invariant netSystem (P := fun s => s.host.SetUp)
          (fun _ _ _ => Host.SetUp.step) ⟨?_, ?_, hjumps⟩ hrun
        · simp [Host.Mapped, hmapper, Except.toOption]
        · simp [hchain]
      exact ⟨hs, hs.works⟩
    · exact absurd hsets hno

/-- A daemon is started again after one that mapped a port: `-D`, `-F` and `-X` clear the
    table, and a port is mapped. -/
theorem manager_works_again :
    ∃ h s, newNetworkManager loopback ⟨⟨1, some [⟨49153, ⟨⟨127, 0, 0, 2⟩, 80⟩⟩]⟩, []⟩ = .ret h ∧
      netSystem.run ⟨h, []⟩ [.allocate] = some s ∧ s.host.SetUp := by
  obtain ⟨ports, hports⟩ := newPortAllocator_returns (show portRangeStart ≤ portRangeEnd by decide)
  obtain ⟨ips, hips⟩ : ∃ ips, newIPAllocator loopback = .ret ips := ⟨_, rfl⟩
  have hret : newNetworkManager loopback ⟨⟨1, some [⟨49153, ⟨⟨127, 0, 0, 2⟩, 80⟩⟩]⟩, []⟩ =
      .ret ⟨⟨loopback, ips, ports, some ⟨fun _ => none⟩⟩, ⟨⟨1, some []⟩, []⟩⟩ := by
    rw [newNetworkManager, hports, hips]
    rfl
  cases hips
  have hsets : Kernel.SetsUp ⟨⟨1, some [⟨49153, ⟨⟨127, 0, 0, 2⟩, 80⟩⟩]⟩, []⟩ :=
    ⟨fun rules _ => ⟨rfl, .inr rfl, .inr ⟨rfl, rfl⟩⟩, rfl, rfl⟩
  exact ⟨_, _, hret, rfl, ((manager_works hret).mpr hsets [.allocate] _ rfl).1⟩

/-- iptables makes the chain and then fails to make the jump to it. The manager is returned all
    the same, and the first port that it maps is a nil dereference. -/
theorem manager_unmapped :
    ∃ h, newNetworkManager loopback ⟨⟨0, none⟩, [true, true, true, true, false]⟩ = .ret h ∧
      h.manager.portMapper = none ∧ h.kernel.nat.jumps = 0 ∧
      PortMapper.map 49153 ⟨⟨127, 0, 0, 2⟩, 80⟩ h = .panic := by
  obtain ⟨ports, hports⟩ := newPortAllocator_returns (show portRangeStart ≤ portRangeEnd by decide)
  obtain ⟨ips, hips⟩ : ∃ ips, newIPAllocator loopback = .ret ips := ⟨_, rfl⟩
  refine ⟨⟨⟨loopback, ips, ports, none⟩, ⟨⟨0, some []⟩, []⟩⟩, ?_, rfl, rfl, rfl⟩
  rw [newNetworkManager, hports, hips]
  rfl

end Docker

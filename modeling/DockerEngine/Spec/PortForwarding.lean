import DockerEngine.Native.Tenancy
import DockerEngine.Spec.NetworkPools
import DockerEngine.ForStd.Mirror

/-!
# Port forwarding and the DOCKER chain

Three records speak of an external port: the port pool, the port mapper and the DOCKER
chain of the kernel. As long as no `iptables -D` of a `Release` fails they agree
(`Forwarding`): the chain mirrors the mapper, and the mapper knows the ports of the live
interfaces and nothing else. `Release` gives a port back to the pool even when its rule
could not be deleted, and then they do not agree any more.

- `forwards_exactly`: all runs in which the deletions succeed
- `stale_forward`: a run in which one fails
-/

namespace Docker

open Go

/-- The rules of the chain are the entries of the mapper. -/
abbrev ChainMirrors (rules : List Rule) (mapping : Int → Option TCPAddr) : Prop :=
  Mirrors Rule.port Rule.mk rules mapping

/-- The pool, the mapper and the chain agree about the external ports. -/
structure Forwarding (s : Net) (mapper : PortMapper) (rules : List Rule) : Prop where
  mapper_eq : s.host.manager.portMapper = some mapper
  rules_eq : s.host.kernel.nat.docker = some rules
  mirrors : ChainMirrors rules mapper.mapping
  asked : ∀ t ∈ s.live, t.iface.extPorts = t.forwards.map Prod.fst
  mapped : ∀ t ∈ s.live, ∀ f ∈ t.forwards, mapper.mapping f.1 = some ⟨t.ip, f.2⟩
  unmapped : ∀ port, port ∉ s.heldPorts → mapper.mapping port = none

/-! ## A fresh manager -/

/-- A port mapper that was set up is empty, and so is the chain. -/
theorem newPortMapper_ok {k k' : Kernel} {mapper : PortMapper}
    (h : newPortMapper k = (.ok mapper, k')) :
    mapper.mapping = (fun _ => none) ∧ k'.nat.docker = some [] := by
  simp only [newPortMapper, PortMapper.cleanup] at h
  generalize (iptables .deleteChain (iptables .flushChain (iptables .deleteJump k).2).2).2 = k₀ at h
  unfold PortMapper.setup at h
  obtain ⟨e, -, hnew⟩ | ⟨nat, -, hexec, hnew⟩ := iptables_cases .newChain k₀
  · simp only [hnew, Prod.mk.injEq, reduceCtorEq, false_and] at h
  · obtain ⟨e, -, hjump⟩ | ⟨nat', -, hexec', hjump⟩ :=
      iptables_cases .appendJump ⟨nat, k₀.oks.tail⟩
    · simp only [hnew, hjump, Prod.mk.injEq, reduceCtorEq, false_and] at h
    · simp only [hnew, hjump, Prod.mk.injEq, Except.ok.injEq] at h
      obtain ⟨rfl, rfl⟩ := h
      simp only [Command.exec] at hexec hexec'
      split at hexec
      · simp at hexec
      · cases hexec
        cases hexec'
        exact ⟨rfl, rfl⟩

/-- What `newNetworkManager` puts together. -/
theorem newNetworkManager_cases {network : IPNet} {k : Kernel} {h : Host}
    (hret : newNetworkManager network k = .ret h) :
    ∃ ips ports, newIPAllocator network = .ret ips ∧
      newPortAllocator portRangeStart portRangeEnd = .ret ports ∧
      h = ⟨⟨network, ips, ports, (newPortMapper k).1.toOption⟩, (newPortMapper k).2⟩ := by
  obtain ⟨ips, hips, hret⟩ := Outcome.bind_eq_ret.mp hret
  obtain ⟨ports, hports, hret⟩ := Outcome.bind_eq_ret.mp hret
  cases hret
  exact ⟨ips, ports, hips, hports, rfl⟩

theorem Forwarding.ready {s : Net} (h : s.Ready) :
    ∃ P Q mapper rules, Multiset.Nodup Q ∧ Conserved P Q s ∧ Forwarding s mapper rules := by
  obtain ⟨network, k, h, hret, hm, rfl⟩ := h
  obtain ⟨ips, ports, hips, hports, rfl⟩ := newNetworkManager_cases hret
  rcases hmapper : newPortMapper k with ⟨res, k'⟩
  cases res with
  | error err => simp [Host.Mapped, hmapper, Except.toOption] at hm
  | ok mapper =>
    obtain ⟨hempty, hrules⟩ := newPortMapper_ok hmapper
    refine ⟨ips.queue.queue, ports.ports.queue, mapper, [],
      Multiset.coe_nodup.mpr (newPortAllocator_nodup hports),
      Conserved.fresh (h := ⟨⟨network, ips, ports, some mapper⟩, k'⟩) hips hports, ?_⟩
    exact ⟨rfl, hrules, hempty ▸ Mirrors.empty Rule.port Rule.mk, by simp, by simp,
      fun _ _ => by rw [hempty]⟩

/-! ## The loop of `Release` -/

/-- When the deletions succeed, the released ports lose their rule and their entry, and
    the other ports keep theirs. -/
theorem releasePorts_forwarding {ports : List Int} {h h' : Host} {mapper : PortMapper}
    {rules : List Rule} (hret : NetworkInterface.releasePorts ports h = .ret h')
    (hoks : ∀ b ∈ h.kernel.oks.take ports.length, b = true)
    (hm : h.manager.portMapper = some mapper) (hr : h.kernel.nat.docker = some rules)
    (hmir : ChainMirrors rules mapper.mapping) :
    ∃ mapper' rules', h'.manager.portMapper = some mapper' ∧
      h'.kernel.nat.docker = some rules' ∧ ChainMirrors rules' mapper'.mapping ∧
      ∀ port, mapper'.mapping port = if port ∈ ports then none else mapper.mapping port := by
  induction ports generalizing h mapper rules with
  | nil =>
    cases hret
    exact ⟨mapper, rules, hm, hr, hmir, fun port => by simp⟩
  | cons port ports ih =>
    obtain ⟨err, h₁, hunmap, hrest⟩ := releasePorts_cons hret
    obtain ⟨m, hm', hcase⟩ := unmap_cases hunmap
    rw [hm] at hm'
    cases hm'
    rcases hcase with ⟨hnone, rfl⟩ | ⟨dest, hdest, hrefused, rfl⟩ | ⟨dest, rules', hdest, hr', rfl⟩
    · -- the port was not mapped: nothing to do
      have hoks' : ∀ b ∈ h₁.kernel.oks.take ports.length, b = true := fun b hb =>
        hoks b (List.take_subset_take_left _ (Nat.le_succ _) hb)
      obtain ⟨m', r', hm', hr', hmir', hmap⟩ := ih hrest hoks' hm hr hmir
      refine ⟨m', r', hm', hr', hmir', fun p => ?_⟩
      rw [hmap p]
      by_cases hp : p = port
      · subst hp
        simp [hnone]
      · simp [hp]
    · -- iptables does not refuse: the outcome is `true` and the rule is in the chain
      have hok : h.kernel.oks.headD true = true := by
        cases hoks' : h.kernel.oks with
        | nil => rfl
        | cons b bs => exact hoks b (by simp [hoks'])
      exact absurd (hmir.mem hdest) (hrefused hok rules hr)
    · -- the deletion used up one outcome of iptables
      rw [hr] at hr'
      cases hr'
      have hoks' : ∀ b ∈ h.kernel.oks.tail.take ports.length, b = true := by
        cases hoks' : h.kernel.oks with
        | nil => simp
        | cons b bs =>
          intro c hc
          exact hoks c (by simp only [hoks', List.length_cons, List.take_succ_cons]
                           exact List.mem_cons_of_mem _ hc)
      obtain ⟨m', r', hm', hr', hmir', hmap⟩ :=
        ih hrest hoks' rfl rfl
          (hmir.erase (fun _ _ => rfl) hdest)
      refine ⟨m', r', hm', hr', hmir', fun p => ?_⟩
      rw [hmap p]
      by_cases hp : p = port
      · subst hp
        simp
      · simp [hp]

/-! ## The invariant -/

/-- Every iptables `-D` that a release runs succeeds; the other commands may fail. -/
def UnmapsSucceed (s : Net) : NetOp → Prop
  | .release k oks => ∀ t, s.live[k]? = some t → ∀ b ∈ oks.take t.iface.extPorts.length, b = true
  | _ => True

theorem Forwarding.allocate {s s' : Net} {mapper : PortMapper} {rules : List Rule}
    (hf : Forwarding s mapper rules) (hstep : s.step .allocate = some s') :
    Forwarding s' mapper rules := by
  cases Net.step_cases hstep with
  | noAddress => exact hf
  | allocate =>
    -- a new interface has no port yet
    refine ⟨hf.mapper_eq, hf.rules_eq, hf.mirrors, fun t ht => ?_, fun t ht f hfm => ?_,
      fun port hport => hf.unmapped port fun hmem => hport ?_⟩
    · rcases List.mem_append.mp ht with ht | ht
      · exact hf.asked t ht
      · rw [List.mem_singleton.mp ht]
        rfl
    · rcases List.mem_append.mp ht with ht | ht
      · exact hf.mapped t ht f hfm
      · rw [List.mem_singleton.mp ht] at hfm
        exact absurd hfm (List.not_mem_nil)
    · rw [Net.heldPorts, List.flatMap_append]
      exact List.mem_append_left _ hmem

/-- A port a live interface was asked to forward is held. -/
theorem Forwarding.held {s : Net} {mapper : PortMapper} {rules : List Rule}
    (hf : Forwarding s mapper rules) {t : Tenant} (ht : t ∈ s.live) {f : Int × Int}
    (hfm : f ∈ t.forwards) : f.1 ∈ s.heldPorts := by
  refine List.mem_flatMap.mpr ⟨t, ht, ?_⟩
  rw [hf.asked t ht]
  exact List.mem_map_of_mem hfm

/-- Requests that map no port. -/
theorem Forwarding.of_live {s s' : Net} {mapper : PortMapper} {rules : List Rule}
    (hf : Forwarding s mapper rules) (hmapper : s'.host.manager.portMapper = some mapper)
    (hrules : s'.host.kernel.nat.docker = some rules) (hlive : s'.live = s.live) :
    Forwarding s' mapper rules := by
  refine ⟨hmapper, hrules, hf.mirrors, ?_, ?_, ?_⟩
  · rw [hlive]; exact hf.asked
  · rw [hlive]; exact hf.mapped
  · simp only [Net.heldPorts, hlive]; exact hf.unmapped

theorem Forwarding.allocatePort {s s' : Net} {mapper : PortMapper} {rules : List Rule} {k : Nat}
    {port : Int} {oks : List Bool} {P : Multiset IP} {Q : Multiset Int} (hQ : Q.Nodup)
    (hc : Conserved P Q s) (hf : Forwarding s mapper rules)
    (hstep : s.step (.allocatePort k port oks) = some s') :
    ∃ mapper' rules', Forwarding s' mapper' rules' := by
  cases Net.step_cases hstep with
  | portRefused hlive hret =>
    refine ⟨mapper, rules, ?_⟩
    obtain ⟨-, -, rfl, rfl⟩ | ⟨_, _, -, -, -, rfl, rfl⟩ | ⟨_, _, _, _, -, -, -, -, hres, -⟩ :=
      allocatePort_cases hret
    -- no free port
    · exact hf.of_live hf.mapper_eq hf.rules_eq hlive.symm
    -- the rule was refused and the port given back
    · exact hf.of_live hf.mapper_eq hf.rules_eq hlive.symm
    · simp at hres
  | @allocatePort _ _ extPort _ t l₁ l₂ iface host hlive hret =>
    obtain ⟨-, ⟨err, hres⟩, -⟩ | ⟨_, _, -, -, ⟨err, hres⟩, -⟩ |
      ⟨extPort', ports, m, r, hrecv, -, hm, hr, hres, rfl, rfl⟩ := allocatePort_cases hret
    · simp at hres
    · simp at hres
    cases hres
    rw [Host.offer_manager, hf.mapper_eq] at hm
    rw [Host.offer_nat, hf.rules_eq] at hr
    cases hm
    cases hr
    -- a free port is held by nobody, so it is not mapped yet
    have hfree : extPort ∉ s.heldPorts := by
      have hmem : extPort ∈ s.freePorts := by
        have hq := (Chan.tryRecv_eq_some hrecv).2
        rw [Host.offer_manager] at hq
        rw [Net.freePorts, hq]
        exact List.mem_cons_self
      exact fun hheld => (hc.ports.nodup hQ).2.2 extPort hmem hheld
    have hnone := hf.unmapped extPort hfree
    have hother : ∀ t' ∈ s.live, ∀ f ∈ t'.forwards,
        Function.update mapper.mapping extPort (some ⟨t.iface.ipNet.ip, port⟩) f.1 =
          some ⟨t'.ip, f.2⟩ := by
      intro t' ht' f hfm
      have hne : f.1 ≠ extPort := fun heq => hfree (heq ▸ hf.held ht' hfm)
      rw [Function.update_of_ne hne]
      exact hf.mapped t' ht' f hfm
    have htmem : t ∈ s.live := by
      rw [hlive]
      exact List.mem_append_right _ List.mem_cons_self
    -- the chain and the mapper get the same entry
    refine ⟨_, _, rfl, rfl, hf.mirrors.append (fun _ _ => rfl) hnone ⟨t.iface.ipNet.ip, port⟩,
      ?_, ?_, ?_⟩
    · intro t' ht'
      rcases List.mem_append.mp ht' with ht' | ht'
      · exact hf.asked t' (hlive ▸ List.mem_append_left _ ht')
      rcases List.mem_cons.mp ht' with rfl | ht'
      · rw [List.map_append, ← hf.asked t htmem]
        rfl
      · exact hf.asked t' (hlive ▸ List.mem_append_right _ (List.mem_cons_of_mem _ ht'))
    · intro t' ht' f hfm
      rcases List.mem_append.mp ht' with ht' | ht'
      · exact hother t' (hlive ▸ List.mem_append_left _ ht') f hfm
      rcases List.mem_cons.mp ht' with rfl | ht'
      · rcases List.mem_append.mp hfm with hfm | hfm
        · exact hother t htmem f hfm
        · rw [List.mem_singleton.mp hfm]
          exact Function.update_self ..
      · exact hother t' (hlive ▸ List.mem_append_right _ (List.mem_cons_of_mem _ ht')) f hfm
    · intro p hp
      simp only [Net.heldPorts, List.flatMap_append, List.flatMap_cons, List.mem_append,
        List.mem_singleton, not_or] at hp
      obtain ⟨hp₁, ⟨hpt, hpe⟩, hp₂⟩ := hp
      show Function.update mapper.mapping extPort _ p = none
      rw [Function.update_of_ne hpe]
      refine hf.unmapped p fun hmem => ?_
      simp only [Net.heldPorts, hlive, List.flatMap_append, List.flatMap_cons,
        List.mem_append] at hmem
      exact hmem.elim hp₁ (fun h => h.elim hpt hp₂)

theorem Forwarding.release {s s' : Net} {mapper : PortMapper} {rules : List Rule} {k : Nat}
    {oks : List Bool} {P : Multiset IP} {Q : Multiset Int} (hQ : Q.Nodup)
    (hc : Conserved P Q s) (hf : Forwarding s mapper rules) (hok : UnmapsSucceed s (.release k oks))
    (hstep : s.step (.release k oks) = some s') :
    ∃ mapper' rules', Forwarding s' mapper' rules' := by
  cases Net.step_cases hstep with
  | @release _ _ t l₁ l₂ err host hlive ht hret =>
    obtain ⟨h₁, hloop, -, rfl⟩ := release_cases hret
    obtain ⟨mapper', rules', hm', hr', hmir', hmap⟩ :=
      releasePorts_forwarding hloop (hok t ht) hf.mapper_eq hf.rules_eq hf.mirrors
    -- no other live interface holds a port of `t`
    have hnodup : (l₁.flatMap (·.iface.extPorts) ++
        (t.iface.extPorts ++ l₂.flatMap (·.iface.extPorts))).Nodup := by
      have := (hc.ports.nodup hQ).2.1
      rwa [Multiset.coe_nodup, Net.heldPorts, hlive, List.flatMap_append, List.flatMap_cons] at this
    have hkept : ∀ t' ∈ l₁ ++ l₂, ∀ f ∈ t'.forwards, f.1 ∉ t.iface.extPorts := by
      intro t' ht' f hfm hmem
      have hmem' : f.1 ∈ t'.iface.extPorts := by
        rw [hf.asked t' (by rw [hlive]; grind)]
        exact List.mem_map_of_mem hfm
      rw [List.nodup_append'] at hnodup
      rcases List.mem_append.mp ht' with ht' | ht'
      · exact hnodup.2.2 (List.mem_flatMap.mpr ⟨t', ht', hmem'⟩) (List.mem_append_left _ hmem)
      · exact (List.nodup_append'.mp hnodup.2.1).2.2 hmem (List.mem_flatMap.mpr ⟨t', ht', hmem'⟩)
    refine ⟨mapper', rules', hm', hr', hmir', ?_, ?_, ?_⟩
    · intro t' ht'
      exact hf.asked t' (by rw [hlive]; grind)
    -- an interface that stays keeps its entries
    · intro t' ht' f hfm
      rw [hmap f.1, if_neg (hkept t' ht' f hfm)]
      exact hf.mapped t' (by rw [hlive]; grind) f hfm
    · intro p hp
      rw [hmap p]
      by_cases hpt : p ∈ t.iface.extPorts
      · rw [if_pos hpt]
      · rw [if_neg hpt]
        refine hf.unmapped p fun hmem => hp ?_
        rw [Net.heldPorts, List.flatMap_append, List.mem_append]
        rw [Net.heldPorts, hlive, List.flatMap_append, List.flatMap_cons, List.mem_append,
          List.mem_append] at hmem
        exact hmem.elim .inl (fun h => h.elim (fun h => absurd h hpt) .inr)

theorem Forwarding.step {s s' : Net} {mapper : PortMapper} {rules : List Rule} {op : NetOp}
    {P : Multiset IP} {Q : Multiset Int} (hQ : Q.Nodup) (hc : Conserved P Q s)
    (hf : Forwarding s mapper rules) (hok : UnmapsSucceed s op) (hstep : s.step op = some s') :
    ∃ mapper' rules', Forwarding s' mapper' rules' := by
  cases op with
  | allocate => exact ⟨mapper, rules, hf.allocate hstep⟩
  | allocatePort k port oks => exact hf.allocatePort hQ hc hstep
  | release k oks => exact hf.release hQ hc hok hstep

/-! ## A manager on the loopback network -/

def loopback : IPNet := ⟨⟨127, 0, 0, 1⟩, ⟨255, 255, 255, 248⟩⟩

/-- The manager of a loopback network on an empty nat table, when the port pool has the
    capacity `cap` and the ports `rest` after the first. -/
def loopbackNet (ips : IPAllocator) (ports : PortAllocator) : Net :=
  ⟨⟨⟨loopback, ips, ports, some ⟨fun _ => none⟩⟩, ⟨⟨1, some []⟩, []⟩⟩, []⟩

/-- The pool of the daemon's port range holds 49153 and 49154 first. The others stay
    unevaluated. -/
theorem loopbackNet_ready : ∃ ips rest cap, ∃ hb : (49153 :: 49154 :: rest).length ≤ cap,
    newIPAllocator loopback = .ret ips ∧
      (loopbackNet ips ⟨⟨cap, 49153 :: 49154 :: rest, hb⟩, 0⟩).Ready := by
  obtain ⟨⟨⟨cap, queue, hb⟩, rejected⟩, hports⟩ :=
    newPortAllocator_returns (show portRangeStart ≤ portRangeEnd by decide)
  obtain ⟨hrejected, hqueue⟩ := newPortAllocator_queue hports
  have hcons : (List.range (portRangeEnd - portRangeStart).toNat) =
      0 :: 1 :: ((List.range (portRangeEnd - portRangeStart - 2).toNat).map
        Nat.succ).map Nat.succ := by
    rw [← List.map_cons (f := Nat.succ) (a := 0), ← List.range_succ_eq_map]
    exact List.range_succ_eq_map
  simp only [hcons, List.map_cons] at hqueue hrejected
  subst hqueue hrejected
  refine ⟨_, _, cap, hb, rfl, loopback, ⟨⟨0, none⟩, []⟩, _, ?_, ?_, rfl⟩
  · rw [newNetworkManager, hports]
    rfl
  · rfl

/-! ## All runs -/

/-- In every run of a manager in which the deletions of the releases succeed (the other
    commands may fail): a free port has no entry in the mapper and no rule in the chain,
    and each port of a live interface has exactly one rule, for the private port it was
    asked for on the address of that interface. -/
theorem forwards_exactly {s : Net} (h : readySystem.ReachableVia UnmapsSucceed s) :
    ∃ mapper rules, s.host.manager.portMapper = some mapper ∧
      s.host.kernel.nat.docker = some rules ∧
      (∀ port ∈ s.freePorts, mapper.mapping port = none ∧ ∀ r ∈ rules, r.port ≠ port) ∧
      ∀ t ∈ s.live, t.iface.extPorts = t.forwards.map Prod.fst ∧
        ∀ f ∈ t.forwards, rules.filter (fun r => r.port = f.1) = [⟨f.1, ⟨t.ip, f.2⟩⟩] := by
  have hinv : ∃ P Q mapper rules,
      Multiset.Nodup Q ∧ Conserved P Q s ∧ Forwarding s mapper rules := by
    refine h.invariant (fun s₀ => Forwarding.ready) ?_
    rintro s₁ op s₂ ⟨P, Q, mapper, rules, hQ, hc, hf⟩ hok hstep
    obtain ⟨mapper', rules', hf'⟩ := hf.step hQ hc hok hstep
    exact ⟨P, Q, mapper', rules', hQ, hc.step hstep, hf'⟩
  obtain ⟨P, Q, mapper, rules, hQ, hc, hf⟩ := hinv
  refine ⟨mapper, rules, hf.mapper_eq, hf.rules_eq, fun port hfree => ?_,
    fun t ht => ⟨hf.asked t ht, fun f hfm => hf.mirrors.filter_eq (hf.mapped t ht f hfm)⟩⟩
  -- a free port is held by nobody
  have hnone := hf.unmapped port ((hc.ports.nodup hQ).2.2 port hfree)
  exact ⟨hnone, hf.mirrors.key_ne hnone⟩

/-- One interface with one port. -/
theorem forwards_exactly_loopback :
    ∃ s, readySystem.ReachableVia UnmapsSucceed s ∧ s.heldPorts = [49153] ∧
      ∃ rules, s.host.kernel.nat.docker = some rules ∧
        rules.filter (fun r => r.port = 49153) = [⟨49153, ⟨⟨127, 0, 0, 2⟩, 80⟩⟩] := by
  obtain ⟨ips, rest, cap, hb, hips, hready⟩ := loopbackNet_ready
  cases hips
  have hreach := (System.ReachableVia.init hready : readySystem.ReachableVia UnmapsSucceed _)
  have h₁ := hreach.step (e := .allocate) (by simp only [UnmapsSucceed]) rfl
  have h₂ := h₁.step (e := .allocatePort 0 80 [true]) (by simp only [UnmapsSucceed]) rfl
  obtain ⟨mapper, rules, hm, hr, hfree, hlive⟩ := forwards_exactly h₂
  have hrule := (hlive _ (List.mem_singleton_self _)).2 _ (List.mem_singleton_self _)
  exact ⟨_, h₂, rfl, rules, hr, hrule⟩

/-- When iptables fails to delete the rule, `Release` gives the port back all the same: it
    is free, yet mapped to an address that is free as well, and its rule is in the chain. -/
theorem stale_forward :
    ∃ s₀ s mapper, s₀.Ready ∧
      readySystem.run s₀ [.allocate, .allocatePort 0 80 [true], .release 0 [false]] = some s ∧
      49153 ∈ s.freePorts ∧ s.host.manager.portMapper = some mapper ∧
      mapper.mapping 49153 = some ⟨⟨127, 0, 0, 2⟩, 80⟩ ∧
      s.host.kernel.nat.docker = some [⟨49153, ⟨⟨127, 0, 0, 2⟩, 80⟩⟩] := by
  obtain ⟨ips, rest, cap, hb, hips, hready⟩ := loopbackNet_ready
  cases hips
  have hroom : (49154 :: rest).length < cap := hb
  refine ⟨_, _, _, hready, rfl, ?_, rfl, rfl, rfl⟩
  show 49153 ∈
    (PortAllocator.release ⟨⟨cap, 49154 :: rest, Nat.le_of_lt hb⟩, 0⟩ 49153).2.ports.queue
  simp only [PortAllocator.release, Chan.trySend, dif_pos hroom]
  simp

end Docker

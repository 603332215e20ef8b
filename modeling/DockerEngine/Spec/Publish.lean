import DockerEngine.Spec.Ports
import DockerEngine.Go.Itoa
import Mathlib.Data.List.Dedup

/-!
# What `allocateNetwork` opens is what it reports

The loop of `allocateNetwork` takes the first free external ports, one for each port of the
container, and enters each pair into the port map under the private port. A private port
that comes twice gets two external ports and one entry.

- `allocatePorts_ok`: all that a successful loop does
- `ports_reported`: when the port map reports the external ports of the interface
-/

namespace Docker

open Go

namespace Ports

/-! ## Port maps -/

/-- The entries for pairs of a private and an external port, one after the other. -/
def PortMap.enter (m : PortMap) (pairs : List (Int × Int)) : PortMap :=
  pairs.foldl (fun m pair => m.set (itoa pair.1) (itoa pair.2)) m

namespace PortMap

theorem mem_keys_set {m : PortMap} {key value k : GoString} :
    k ∈ (m.set key value).map Prod.fst ↔ k = key ∨ k ∈ m.map Prod.fst := by
  simp only [PortMap.set, List.map_cons, List.mem_cons, List.mem_map, List.mem_filter]
  constructor
  · rintro (hk | ⟨entry, ⟨hentry, -⟩, rfl⟩)
    · exact .inl hk
    · exact .inr ⟨entry, hentry, rfl⟩
  · rintro (hk | ⟨entry, hentry, rfl⟩)
    · exact .inl hk
    · by_cases heq : entry.1 = key
      · exact .inl heq
      · exact .inr ⟨entry, ⟨hentry, by simpa using heq⟩, rfl⟩

theorem keys_set_nodup {m : PortMap} (h : (m.map Prod.fst).Nodup) (key value : GoString) :
    ((m.set key value).map Prod.fst).Nodup := by
  rw [PortMap.set, List.map_cons, List.nodup_cons]
  refine ⟨fun hmem => ?_, ?_⟩
  · obtain ⟨entry, hentry, hkey⟩ := List.mem_map.mp hmem
    have hne := (List.mem_filter.mp hentry).2
    simp [hkey] at hne
  · exact h.sublist (List.filter_sublist.map _)

theorem keys_enter {m : PortMap} (h : (m.map Prod.fst).Nodup) (pairs : List (Int × Int)) :
    ((m.enter pairs).map Prod.fst).Nodup ∧ ∀ k, k ∈ (m.enter pairs).map Prod.fst ↔
      k ∈ pairs.map (fun pair => itoa pair.1) ∨ k ∈ m.map Prod.fst := by
  induction pairs generalizing m with
  | nil => exact ⟨h, fun k => by simp [enter]⟩
  | cons pair pairs ih =>
    obtain ⟨hnodup, hmem⟩ := ih (keys_set_nodup h (itoa pair.1) (itoa pair.2))
    refine ⟨hnodup, fun k => (hmem k).trans ?_⟩
    rw [mem_keys_set, List.map_cons, List.mem_cons, or_left_comm, or_assoc]

/-- There is one entry for each private port. -/
theorem length_enter (pairs : List (Int × Int)) :
    (PortMap.enter [] pairs).length = (pairs.map fun pair => itoa pair.1).dedup.length := by
  obtain ⟨hnodup, hmem⟩ := keys_enter (m := []) (by simp) pairs
  have hperm : ((PortMap.enter [] pairs).map Prod.fst).Perm
      (pairs.map fun pair => itoa pair.1).dedup := by
    rw [List.perm_ext_iff_of_nodup hnodup (List.nodup_dedup _)]
    intro k
    rw [hmem k, List.mem_dedup]
    simp
  rw [← hperm.length_eq, List.length_map]

/-- Without repetition, each pair gets its entry. -/
theorem enter_of_nodup {m : PortMap} {pairs : List (Int × Int)} (h : (pairs.map Prod.fst).Nodup)
    (hnew : ∀ pair ∈ pairs, itoa pair.1 ∉ m.map Prod.fst) :
    m.enter pairs = (pairs.map fun pair => (itoa pair.1, itoa pair.2)).reverse ++ m := by
  induction pairs generalizing m with
  | nil => rfl
  | cons pair pairs ih =>
    rw [List.map_cons, List.nodup_cons] at h
    have hset : m.set (itoa pair.1) (itoa pair.2) = (itoa pair.1, itoa pair.2) :: m := by
      rw [PortMap.set, List.filter_eq_self.mpr]
      intro entry hentry
      have hne : entry.1 ≠ itoa pair.1 := fun heq =>
        hnew pair List.mem_cons_self (heq ▸ List.mem_map_of_mem hentry)
      simpa using hne
    show (m.set (itoa pair.1) (itoa pair.2)).enter pairs = _
    rw [ih h.2, hset, List.map_cons, List.reverse_cons, List.append_assoc]
    · rfl
    · intro pair' hpair' hmem
      rw [mem_keys_set] at hmem
      obtain heq | hmem := hmem
      · exact h.1 (itoa_injective heq ▸ List.mem_map_of_mem hpair')
      · exact hnew pair' (List.mem_cons_of_mem _ hpair') hmem

end PortMap

/-! ## A loop that succeeds -/

/-- The rule for a private and an external port of an address. -/
def ruleFor (ip : IP) (pair : Int × Int) : Rule := ⟨pair.2, ⟨ip, pair.1⟩⟩

/-- The loop of `allocateNetwork` moves the first free ports to the interface, and enters,
    opens and maps each for the private port it is for. -/
theorem allocatePorts_ok {ports : List Int} {iface iface' : NetworkInterface} {m m' : PortMap}
    {h h' : Host} (hret : Container.allocatePorts ports iface m h = .ret (none, iface', m', h'))
    (hnodup : h.freePorts.Nodup) :
    ∃ exts, exts.length = ports.length ∧ h.freePorts = exts ++ h'.freePorts ∧
      iface' = { iface with extPorts := iface.extPorts ++ exts } ∧
      m' = m.enter (ports.zip exts) ∧ h'.manager.ipAllocator = h.manager.ipAllocator ∧
      h'.kernel.nat.docker =
        h.kernel.nat.docker.map (· ++ (ports.zip exts).map (ruleFor iface.ipNet.ip)) ∧
      (ports ≠ [] → h.kernel.nat.docker ≠ none) ∧
      (∀ pair ∈ ports.zip exts, h'.destOf pair.2 = some ⟨iface.ipNet.ip, pair.1⟩) ∧
      ∀ e ∉ exts, h'.destOf e = h.destOf e := by
  induction ports generalizing iface m h with
  | nil =>
    cases hret
    refine ⟨[], rfl, rfl, by simp, rfl, rfl, ?_, by simp, by simp, fun _ _ => rfl⟩
    simp
  | cons port ports ih =>
    obtain ⟨res, iface₁, h₁, halloc, hround⟩ := allocatePorts_cons hret
    obtain ⟨-, ⟨msg, rfl⟩, -⟩ | ⟨e, q, -, -, ⟨msg, rfl⟩, -⟩ |
      ⟨e, q, mapper, rules, hrecv, -, hm, hrules, rfl, rfl, rfl⟩ := allocatePort_cases halloc
    · obtain ⟨msg', err₂, -, hnone, -⟩ | ⟨extPort, hres, -⟩ := hround
      · simp at hnone
      · simp at hres
    · obtain ⟨msg', err₂, -, hnone, -⟩ | ⟨extPort, hres, -⟩ := hround
      · simp at hnone
      · simp at hres
    · obtain ⟨msg', err₂, hres, -⟩ | ⟨extPort, hres, hret⟩ := hround
      · simp at hres
      cases hres
      have hqueue : h.freePorts = e :: q.queue := (Chan.tryRecv_eq_some hrecv).2
      rw [hqueue, List.nodup_cons] at hnodup
      obtain ⟨exts, hlen, hfree, hiface, hm', hips, hdocker, -, hdest, hothers⟩ :=
        ih hret hnodup.2
      -- the queue has each port once, so the rest of the loop does not map this one again
      have hexts : e ∉ exts := fun hmem => by
        have hfree' : q.queue = exts ++ h'.freePorts := hfree
        exact hnodup.1 (hfree' ▸ List.mem_append_left _ hmem)
      have hmapped : h'.destOf e = some ⟨iface.ipNet.ip, port⟩ :=
        (hothers e hexts).trans (Function.update_self ..)
      refine ⟨e :: exts, by simp [hlen], ?_, ?_, hm', hips, ?_, by simp [hrules], ?_,
        fun e' he' => ?_⟩
      · rw [hqueue, List.cons_append]
        exact congrArg (e :: ·) hfree
      · rw [hiface]
        simp
      · rw [hdocker, hrules]
        simp [ruleFor]
      · intro pair hpair
        rw [List.zip_cons_cons, List.mem_cons] at hpair
        obtain rfl | hpair := hpair
        · exact hmapped
        · exact hdest pair hpair
      · rw [List.mem_cons, not_or] at he'
        rw [hothers e' he'.2]
        simp only [Host.destOf, hm, Host.setMapping_portMapper, Option.bind_some]
        exact Function.update_of_ne he'.1 _ _

/-- A successful `allocateNetwork` takes the first free address and the first free ports. -/
theorem allocateNetwork_ok {c c' : Container} {h h' : Host}
    (hret : c.allocateNetwork h = .ret (none, c', h')) (hnodup : h.freePorts.Nodup) :
    ∃ iface, c'.network = some iface ∧ h.freeIPs = iface.ipNet.ip :: h'.freeIPs ∧
      iface.extPorts.length = c.ports.length ∧ h.freePorts = iface.extPorts ++ h'.freePorts ∧
      c'.networkSettings.portMapping = PortMap.enter [] (c.ports.zip iface.extPorts) ∧
      c'.id = c.id ∧
      h'.kernel.nat.docker = h.kernel.nat.docker.map
        (· ++ (c.ports.zip iface.extPorts).map (ruleFor iface.ipNet.ip)) ∧
      (c.ports ≠ [] → h.kernel.nat.docker ≠ none) ∧
      ∀ pair ∈ c.ports.zip iface.extPorts, h'.destOf pair.2 = some ⟨iface.ipNet.ip, pair.1⟩ := by
  obtain ⟨-, ⟨msg, herr⟩, -⟩ | ⟨ip, queue, iface', m, hrecv, hports, ⟨⟨msg, herr⟩, -⟩ | ⟨-, rfl⟩⟩ :=
    allocateNetwork_split hret
  · cases herr
  · cases herr
  · obtain ⟨exts, hlen, hfree, rfl, rfl, hips, hdocker, hchain, hdest, -⟩ :=
      allocatePorts_ok hports hnodup
    refine ⟨_, rfl, ?_, hlen, hfree, rfl, rfl, hdocker, hchain, hdest⟩
    rw [Host.freeIPs, Host.freeIPs, hips]
    exact (Chan.tryRecv_eq_some hrecv).2

/-! ## What is reported -/

/-- The first rule for the port sends it to `dest`, and the port mapper knows. -/
def ForwardsTo (h : Host) (port : Int) (dest : TCPAddr) : Prop :=
  h.destOf port = some dest ∧ ∃ rules, h.kernel.nat.docker = some rules ∧
    rules.find? (fun rule => rule.port = port) = some ⟨port, dest⟩

/-- The port map of a container holds the external ports of its interface, each once, they are
    forwarded as it says, and `CmdPort` finds all of them. -/
structure Reported (d : Daemon) (c : Container) (iface : NetworkInterface) : Prop where
  values : (c.networkSettings.portMapping.map Prod.snd).Perm (iface.extPorts.map itoa)
  once : iface.extPorts.Nodup
  forwarded : ∀ entry ∈ c.networkSettings.portMapping, ∃ p e, entry = (itoa p, itoa e) ∧
    ForwardsTo d.host e ⟨iface.ipNet.ip, p⟩
  found : ∀ e ∈ iface.extPorts, ∃ p, d.cmdPort c.id (itoa p) = .ok (itoa e)

/-- No rule is left in the chain that sends one of the external ports elsewhere. -/
def Unshadowed (h : Host) (c : Container) : Prop :=
  ∀ ip, h.freeIPs.head? = some ip → ∀ pair ∈ c.ports.zip h.freePorts,
    ∀ rules, h.kernel.nat.docker = some rules →
      ∀ rule, rules.find? (fun rule => rule.port = pair.2) = some rule → rule.dest = ⟨ip, pair.1⟩

/-! ## The containers of a daemon have different names -/

theorem start_id {c c' : Container} {h h' : Host} {mounted spawned : Bool}
    (hret : c.start mounted spawned h = .ret (c', h')) : c'.id = c.id := by
  unfold Container.start at hret
  split at hret
  · cases hret
    rfl
  · obtain ⟨⟨err, c₁, h₁⟩, halloc, hret⟩ := Outcome.bind_eq_ret.mp hret
    have hid : c₁.id = c.id := by
      obtain ⟨-, -, rfl, -⟩ | ⟨ip, queue, iface, m, -, -, ⟨-, rfl⟩ | ⟨-, rfl⟩⟩ :=
        allocateNetwork_split halloc <;> rfl
    cases err with
    | some msg =>
      cases hret
      exact hid
    | none =>
      cases spawned <;> cases hret <;> exact hid

theorem monitor_id {c c' : Container} {h h' : Host} (hret : c.monitor h = .ret (c', h')) :
    c'.id = c.id := by
  obtain ⟨iface, err, -, -, rfl⟩ := monitor_cases hret
  rfl

theorem map_id_set {cs : List Container} {k : Nat} {c c' : Container} (hk : cs[k]? = some c)
    (hid : c'.id = c.id) : (cs.set k c').map Container.id = cs.map Container.id := by
  obtain ⟨l₁, l₂, rfl, hset, -⟩ := List.exists_cut hk
  simp [hset, hid]

theorem ids_nodup_step {d d' : Daemon} {op : PortOp} (h : (d.containers.map Container.id).Nodup)
    (hstep : d.step op = some d') : (d'.containers.map Container.id).Nodup := by
  cases op with
  | create id ports =>
    simp only [Daemon.step] at hstep
    split at hstep
    · cases hstep
      exact h
    · next hnew =>
      cases hstep
      rw [List.map_append, List.nodup_append']
      refine ⟨h, List.nodup_singleton _, ?_⟩
      simp only [List.map_cons, List.map_nil, List.disjoint_singleton]
      intro hmem
      obtain ⟨c, hc, hid⟩ := List.mem_map.mp hmem
      -- `Get` would have found the container
      apply hnew
      rw [Daemon.get, List.find?_isSome]
      exact ⟨c, hc, decide_eq_true hid⟩
  | start k mounted spawned oks =>
    obtain ⟨c, c', h', hk, hret, rfl⟩ := Daemon.step_start_cases hstep
    show ((d.containers.set k c').map Container.id).Nodup
    rwa [map_id_set hk (start_id hret)]
  | exit k oks =>
    obtain ⟨c, c', h', hk, -, hret, rfl⟩ := Daemon.step_exit_cases hstep
    show ((d.containers.set k c').map Container.id).Nodup
    rwa [map_id_set hk (monitor_id hret)]
  | restart network oks =>
    obtain ⟨h', -, rfl⟩ := Daemon.step_restart_cases hstep
    rw [List.map_map]
    exact h

theorem reachable_ids {d : Daemon} (hd : portSystem.Reachable d) :
    (d.containers.map Container.id).Nodup := by
  refine hd.invariant (fun d₀ hinit => ?_) fun _ _ _ h _ hstep => ids_nodup_step h hstep
  obtain ⟨network, k, -, hnil⟩ := hinit
  simp [hnil]

theorem reachable_apart {d : Daemon} (hd : portSystem.Reachable d) : PortsApart d :=
  hd.invariant (fun _ => PortsApart.fresh) fun _ _ _ h _ hstep => h.step hstep

/-! ## When the report is right -/

section

variable {c : Container} {ports exts rest : List Int}

theorem zip_free (hlen : exts.length = ports.length) :
    ports.zip (exts ++ rest) = ports.zip exts := by
  calc ports.zip (exts ++ rest)
    _ = (ports ++ []).zip (exts ++ rest) := by rw [List.append_nil]
    _ = ports.zip exts ++ [].zip rest := List.zip_append hlen.symm
    _ = ports.zip exts := by simp

/-- With as many entries as ports, no private port comes twice. -/
theorem nodup_of_length (hlen : exts.length = ports.length)
    (h : (PortMap.enter [] (ports.zip exts)).length = ports.length) : ports.Nodup := by
  have hkeys : ((ports.zip exts).map fun pair => itoa pair.1) = ports.map itoa := by
    calc ((ports.zip exts).map fun pair => itoa pair.1)
      _ = ((ports.zip exts).map Prod.fst).map itoa := by rw [List.map_map]; rfl
      _ = ports.map itoa := by rw [List.map_fst_zip hlen.ge]
  rw [PortMap.length_enter, hkeys] at h
  have heq : (ports.map itoa).dedup = ports.map itoa :=
    (List.dedup_sublist _).eq_of_length (by rw [h, List.length_map])
  exact (List.dedup_eq_self.mp heq).of_map

/-- Different external ports: the rule for each is the only one of the new rules for it. -/
theorem find?_ruleFor (hnodup : exts.Nodup) (hlen : exts.length = ports.length) (ip : IP)
    {pair : Int × Int} (hpair : pair ∈ ports.zip exts) :
    ((ports.zip exts).map (ruleFor ip)).find? (fun rule => rule.port = pair.2) =
      some (ruleFor ip pair) := by
  apply List.find?_key_of_mem (f := Rule.port) (a := ruleFor ip pair)
  · rw [List.map_map]
    show ((ports.zip exts).map Prod.snd).Nodup
    rwa [List.map_snd_zip hlen.le]
  · exact List.mem_map_of_mem hpair

end

/-- When `allocateNetwork` succeeds, in whatever state the daemon has got to, the port map
    reports all external ports of the interface rightly exactly when no private port of the
    container is given twice and none of the external ports has a rule left that sends it
    elsewhere. -/
theorem ports_reported {d : Daemon} (hd : portSystem.Reachable d) {k : Nat} {c c' : Container}
    (hk : d.containers[k]? = some c) {oks : List Bool} {h' : Host}
    (hret : c.allocateNetwork (d.host.offer oks) = .ret (none, c', h')) :
    (∃ iface, c'.network = some iface ∧ Reported ⟨h', d.containers.set k c'⟩ c' iface) ↔
      c.ports.Nodup ∧ Unshadowed d.host c := by
  have hfreeNodup := (reachable_apart hd).freePorts
  obtain ⟨iface, hnet, hips, hlen, hfree, hmap, hid, hdocker, hchain, hdest⟩ :=
    allocateNetwork_ok hret hfreeNodup
  have hips' : d.host.freeIPs.head? = some iface.ipNet.ip := congrArg List.head? hips
  have hzip : c.ports.zip d.host.freePorts = c.ports.zip iface.extPorts := by
    rw [show d.host.freePorts = iface.extPorts ++ h'.freePorts from hfree, zip_free hlen]
  have hexts : iface.extPorts.Nodup := by
    rw [show d.host.freePorts = iface.extPorts ++ h'.freePorts from hfree] at hfreeNodup
    exact hfreeNodup.of_append_left
  have hfst : (c.ports.zip iface.extPorts).map Prod.fst = c.ports := List.map_fst_zip hlen.ge
  have hsnd : (c.ports.zip iface.extPorts).map Prod.snd = iface.extPorts := List.map_snd_zip hlen.le
  -- the entries, when no private port comes twice
  have henter (hnodup : c.ports.Nodup) : c'.networkSettings.portMapping =
      ((c.ports.zip iface.extPorts).map fun pair => (itoa pair.1, itoa pair.2)).reverse := by
    rw [hmap, PortMap.enter_of_nodup (by rwa [hfst]) (by simp), List.append_nil]
  constructor
  · rintro ⟨iface', hnet', hrep⟩
    cases hnet.symm.trans hnet'
    have hnodup : c.ports.Nodup := by
      refine nodup_of_length hlen ?_
      have hvalues := hrep.values.length_eq
      rwa [List.length_map, List.length_map, hmap, hlen] at hvalues
    refine ⟨hnodup, fun ip hip pair hpair rules hrules rule hfind => ?_⟩
    cases hips'.symm.trans hip
    rw [hzip] at hpair
    obtain ⟨p, e, heq, -, rules', hrules', hfind'⟩ := hrep.forwarded (itoa pair.1, itoa pair.2)
      (by rw [henter hnodup, List.mem_reverse]; exact List.mem_map_of_mem hpair)
    rw [Prod.mk.injEq] at heq
    cases itoa_injective heq.1
    cases itoa_injective heq.2
    -- the old rule comes before the new one
    have hrules₀ : (d.host.offer oks).kernel.nat.docker = some rules := hrules
    rw [hdocker, hrules₀, Option.map_some, Option.some.injEq] at hrules'
    rw [← hrules', List.find?_append, hfind, Option.some_or, Option.some.injEq] at hfind'
    rw [hfind']
  · rintro ⟨hnodup, hshadow⟩
    refine ⟨iface, hnet, ?_, hexts, fun entry hentry => ?_, fun e he => ?_⟩
    · rw [henter hnodup, List.map_reverse, List.map_map]
      refine (List.reverse_perm _).trans (.of_eq ?_)
      calc (c.ports.zip iface.extPorts).map (fun pair => itoa pair.2)
        _ = ((c.ports.zip iface.extPorts).map Prod.snd).map itoa := by rw [List.map_map]; rfl
        _ = iface.extPorts.map itoa := by rw [hsnd]
    · rw [henter hnodup, List.mem_reverse] at hentry
      obtain ⟨pair, hpair, rfl⟩ := List.mem_map.mp hentry
      refine ⟨pair.1, pair.2, rfl, hdest pair hpair, ?_⟩
      obtain ⟨rules, hrules⟩ := Option.ne_none_iff_exists'.mp
        (hchain fun hnil => by simp [hnil] at hpair)
      refine ⟨_, by rw [hdocker, hrules, Option.map_some], ?_⟩
      rw [List.find?_append]
      cases hfind : rules.find? fun rule => rule.port = pair.2 with
      | none =>
        rw [Option.none_or]
        exact find?_ruleFor hexts hlen _ hpair
      | some rule =>
        have hport : rule.port = pair.2 := by simpa using List.find?_some hfind
        have hto := hshadow _ hips' pair (hzip ▸ hpair) rules hrules rule hfind
        rw [Option.some_or, ← hport, ← hto]
    · rw [← hsnd] at he
      obtain ⟨pair, hpair, rfl⟩ := List.mem_map.mp he
      refine ⟨pair.1, ?_⟩
      have hget : Daemon.get ⟨h', d.containers.set k c'⟩ c'.id = some c' := by
        apply List.find?_key_of_mem (f := Container.id)
        · rw [map_id_set hk hid]
          exact reachable_ids hd
        · exact List.mem_set (List.getElem?_eq_some_iff.mp hk).1 c'
      have hlookup : c'.networkSettings.portMapping.lookup (itoa pair.1) = some (itoa pair.2) := by
        apply List.lookup_of_mem
        · rw [hmap]
          exact (PortMap.keys_enter (by simp) _).1
        · rw [henter hnodup, List.mem_reverse]
          exact List.mem_map_of_mem (f := fun pair : Int × Int => (itoa pair.1, itoa pair.2)) hpair
      rw [Daemon.cmdPort, hget]
      simp only [hlookup]

/-- A container with one port gets it reported. -/
theorem ports_reported_one :
    ∃ d, portSystem.Reachable d ∧ ∃ c h' iface, c.network = some iface ∧
      Reported ⟨h', d.containers.set 0 c⟩ c iface := by
  obtain ⟨ips, rest, cap, hb, hips, hfresh⟩ := loopback_fresh
  cases hips
  have hinit : portSystem.Reachable _ := .init hfresh
  have h₁ := hinit.run [.create (str "c") [80]] rfl
  obtain ⟨iface, hnet, hrep⟩ :=
    (@ports_reported _ h₁ 0 _ _ rfl [] _ rfl).mpr ⟨List.nodup_singleton 80, by
      rintro ip - pair - rules hrules rule hfind
      cases hrules
      cases hfind⟩
  exact ⟨_, h₁, _, _, iface, hnet, hrep⟩

/-- A container that is to publish port 80 twice takes two external ports and opens both,
    but its port map has one entry: the first of them is not reported. -/
theorem port_unreported :
    ∃ d, portSystem.Reachable d ∧ ∃ c c' h' iface, d.containers[0]? = some c ∧
      c.ports = [80, 80] ∧ c.allocateNetwork (d.host.offer []) = .ret (none, c', h') ∧
      c'.network = some iface ∧ iface.extPorts = [49153, 49154] ∧
      h'.kernel.nat.docker =
        some [⟨49153, ⟨iface.ipNet.ip, 80⟩⟩, ⟨49154, ⟨iface.ipNet.ip, 80⟩⟩] ∧
      c'.networkSettings.portMapping = [(str "80", str "49154")] ∧
      ¬ Reported ⟨h', d.containers.set 0 c'⟩ c' iface := by
  obtain ⟨ips, rest, cap, hb, hips, hfresh⟩ := loopback_fresh
  cases hips
  have hinit : portSystem.Reachable _ := .init hfresh
  have h₁ := hinit.run [.create (str "c") [80, 80]] rfl
  refine ⟨_, h₁, _, _, _, _, rfl, rfl, rfl, rfl, rfl, rfl, rfl, fun hrep => ?_⟩
  have hlen : (1 : Nat) = 2 := hrep.values.length_eq
  simp at hlen

end Ports

end Docker

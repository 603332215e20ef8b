import DockerEngine.Native.Start
import DockerEngine.Spec.Publish

/-!
# What a failed start leaves behind

A `Start` that finds no address, or one of whose ports is refused, puts back what it took.
After the network is allocated no error is undone: the address and the ports stay with the
container, and the next `Start` replaces its network by a new one.

- `start_restores`: which failed starts leave the pools and the mappings as they were
- `start_leaks`: a start whose command cannot be started
-/

namespace Docker

open Go

/-! ## A port that is refused -/

/-- When one port is refused the pools are as before, and so are the mappings and the chain. -/
theorem allocatePort_refused {iface iface' : NetworkInterface} {port : Int} {h h' : Host}
    {msg : GoString} (hret : iface.allocatePort port h = .ret (.error msg, iface', h')) :
    iface' = iface ∧ h'.freePorts.Perm h.freePorts ∧
      h'.manager.ipAllocator = h.manager.ipAllocator ∧
      (∀ e, h'.destOf e = h.destOf e) ∧ h'.kernel.nat = h.kernel.nat ∧
      h'.manager.portAllocator.ports.cap = h.manager.portAllocator.ports.cap ∧
      ((h.freePorts = [] ∧ h'.kernel.oks = h.kernel.oks) ∨
       (h.freePorts ≠ [] ∧ h'.kernel.oks = h.kernel.oks.tail ∧
        (h.kernel.oks.headD true = true → h.kernel.nat.docker = none))) := by
  obtain ⟨hempty, -, rfl, rfl⟩ | ⟨extPort, ports, hrecv, hrefused, -, rfl, rfl⟩ |
    ⟨extPort, ports, mapper, rules, -, -, -, -, hres, -⟩ := allocatePort_cases hret
  · exact ⟨rfl, .refl _, rfl, fun _ => rfl, rfl, rfl, .inl ⟨hempty, rfl⟩⟩
  · obtain ⟨hcap, hqueue⟩ := Chan.tryRecv_eq_some hrecv
    have hroom : ports.queue.length < ports.cap := by
      have hbound := h.manager.portAllocator.ports.bounded
      rw [hqueue, List.length_cons] at hbound
      omega
    obtain ⟨ports', hsend⟩ : ∃ ports', ports.trySend extPort = some ports' := by
      simp [Chan.trySend, hroom]
    obtain ⟨hcap', hqueue'⟩ := Chan.trySend_eq_some hsend
    have hfree : h.freePorts = extPort :: ports.queue := hqueue
    refine ⟨rfl, ?_, rfl, fun _ => rfl, rfl, ?_, .inr ⟨?_, rfl, hrefused⟩⟩
    · rw [hfree]
      simp only [Host.freePorts, Host.setPorts_portAllocator, PortAllocator.release, hsend, hqueue']
      exact List.perm_append_singleton _ _
    · simp only [Host.setPorts_portAllocator, PortAllocator.release, hsend, hcap', hcap]
    · rw [hfree]
      exact List.cons_ne_nil _ _
  · simp at hres

/-! ## Giving everything back -/

/-- With room in the pool, the loop of `Release` puts all ports back. -/
theorem releasePorts_returned {ports : List Int} {h h' : Host}
    (hret : NetworkInterface.releasePorts ports h = .ret h')
    (hroom : h.freePorts.length + ports.length ≤ h.manager.portAllocator.ports.cap) :
    h'.freePorts = h.freePorts ++ ports ∧ h'.manager.ipAllocator = h.manager.ipAllocator := by
  induction ports generalizing h with
  | nil =>
    cases hret
    exact ⟨(List.append_nil _).symm, rfl⟩
  | cons port ports ih =>
    obtain ⟨err, h₁, hunmap, hret⟩ := releasePorts_cons hret
    obtain ⟨hpa, hia⟩ := unmap_allocators hunmap
    rw [List.length_cons] at hroom
    have hlt : h.manager.portAllocator.ports.queue.length <
        h.manager.portAllocator.ports.cap := by
      rw [Host.freePorts] at hroom
      omega
    obtain ⟨ports', hsend⟩ :
        ∃ ports', h.manager.portAllocator.ports.trySend port = some ports' := by
      simp [Chan.trySend, hlt]
    obtain ⟨hcap, hqueue⟩ := Chan.trySend_eq_some hsend
    rw [hpa] at hret
    simp only [PortAllocator.release, hsend] at hret
    obtain ⟨hfree, hia'⟩ := ih hret (by
      simp only [Host.freePorts, Host.setPorts_portAllocator, hqueue, hcap, List.length_append,
        List.length_singleton]
      rw [Host.freePorts] at hroom
      omega)
    refine ⟨?_, hia'.trans hia⟩
    rw [hfree]
    simp only [Host.freePorts, Host.setPorts_portAllocator, hqueue, List.append_assoc,
      List.singleton_append]

/-- When no deletion is refused, ports that are mapped with their rules are unmapped. -/
theorem releasePorts_unmapped {ports : List Int} {h h' : Host} {rules : List Rule}
    (hret : NetworkInterface.releasePorts ports h = .ret h') (hnodup : ports.Nodup)
    (hoks : ∀ i < ports.length, h.kernel.oks.getD i true = true)
    (hrules : h.kernel.nat.docker = some rules)
    (hmapped : ∀ e ∈ ports, ∃ dest, h.destOf e = some dest ∧ ⟨e, dest⟩ ∈ rules) :
    ∀ e ∈ ports, h'.destOf e = none := by
  induction ports generalizing h rules with
  | nil => simp
  | cons port ports ih =>
    obtain ⟨err, h₁, hunmap, hret⟩ := releasePorts_cons hret
    rw [List.nodup_cons] at hnodup
    obtain ⟨dest, hdest, hmem⟩ := hmapped port List.mem_cons_self
    have hok : h.kernel.oks.headD true = true := by
      have hhead := hoks 0 (Nat.succ_pos _)
      cases hk : h.kernel.oks with
      | nil => rfl
      | cons b bs => simpa [hk] using hhead
    obtain ⟨mapper, hm, ⟨hnone, -⟩ | ⟨dest', hdest', hrefused, -⟩ |
      ⟨dest', rules', hdest', hrules', rfl⟩⟩ := unmap_cases hunmap
    · simp [Host.destOf, hm, hnone] at hdest
    · have hsame : dest' = dest := by simpa [Host.destOf, hm, hdest'] using hdest
      exact absurd (hsame ▸ hmem) (hrefused hok rules hrules)
    · cases hrules.symm.trans hrules'
      have hrest := releasePorts_ports hret
      intro e he
      rcases List.mem_cons.mp he with rfl | he
      -- the rest of the loop does not touch this port again
      · rw [hrest.2 e hnodup.1]
        simp [Host.destOf]
      · refine ih hret hnodup.2 (fun i hi => ?_) rfl
          (fun e' he' => ?_) e he
        · have hnext := hoks (i + 1) (Nat.succ_lt_succ hi)
          show h.kernel.oks.tail.getD i true = true
          cases hk : h.kernel.oks with
          | nil => rfl
          | cons b bs => simpa [hk] using hnext
        · obtain ⟨dest₂, hdest₂, hmem₂⟩ := hmapped e' (List.mem_cons_of_mem _ he')
          have hne : e' ≠ port := fun heq => hnodup.1 (heq ▸ he')
          refine ⟨dest₂, ?_, (List.mem_erase_of_ne ?_).mpr hmem₂⟩
          · rw [← hdest₂, ← unmap_destOf hunmap hne]
            rfl
          · exact fun heq => hne (congrArg Rule.port heq)

namespace Ports

/-! ## The first port that is refused -/

/-- The `i`-th port that is asked for gets no external port, or no rule, when the ones before
    it did. -/
def Refuses (h : Host) (i : Nat) : Prop :=
  h.freePorts.length ≤ i ∨ h.kernel.oks.getD i true = false ∨ h.kernel.nat.docker = none

/-- Of the ports of a container, the one at position `j` is the first to be refused. -/
def RefusedAt (h : Host) (ports : List Int) (j : Nat) : Prop :=
  j < ports.length ∧ Refuses h j ∧ ∀ i < j, ¬ Refuses h i

/-- If a port is refused, the commands that delete the rules of the ports before it are let
    through. They come after the command that was refused, if there was one. -/
def RollsBack (h : Host) (ports : List Int) : Prop :=
  ∀ j, RefusedAt h ports j → ∀ i < j,
    h.kernel.oks.getD ((if j < h.freePorts.length then j + 1 else j) + i) true = true

/-- One port that is opened takes the first free port and one outcome. -/
theorem refuses_succ {iface iface' : NetworkInterface} {port extPort : Int} {h h' : Host}
    (hret : iface.allocatePort port h = .ret (.ok extPort, iface', h')) (i : Nat) :
    ¬ Refuses h 0 ∧ (Refuses h' i ↔ Refuses h (i + 1)) := by
  obtain ⟨-, ⟨msg, hres⟩, -⟩ | ⟨e, q, -, -, ⟨msg, hres⟩, -⟩ |
    ⟨e, q, mapper, rules, hrecv, hok, -, hrules, -, -, rfl⟩ := allocatePort_cases hret
  · simp at hres
  · simp at hres
  · have hfree : h.freePorts = e :: q.queue := (Chan.tryRecv_eq_some hrecv).2
    have htail : h.kernel.oks.tail.getD i true = h.kernel.oks.getD (i + 1) true := by
      cases h.kernel.oks <;> rfl
    constructor
    · rintro (hlen | hfalse | hchain)
      · simp [hfree] at hlen
      · cases hk : h.kernel.oks <;> simp [hk] at hok hfalse
        rw [hok] at hfalse
        simp at hfalse
      · simp [hrules] at hchain
    · simp only [Refuses, hfree, hrules, List.length_cons, ← htail]
      simp [Host.freePorts]

/-- Ports that are all opened use up one outcome each. -/
theorem allocatePorts_accepts {ports : List Int} {iface iface' : NetworkInterface}
    {m m' : PortMap} {h h' : Host}
    (hret : Container.allocatePorts ports iface m h = .ret (none, iface', m', h')) :
    h'.kernel.oks = h.kernel.oks.drop ports.length ∧
      h'.freePorts.length + ports.length = h.freePorts.length ∧
      h'.manager.portAllocator.ports.cap = h.manager.portAllocator.ports.cap ∧
      (∀ i < ports.length, ¬ Refuses h i) ∧
      ∀ i, Refuses h' i ↔ Refuses h (i + ports.length) := by
  induction ports generalizing iface m h with
  | nil =>
    cases hret
    exact ⟨rfl, rfl, rfl, by simp, fun _ => Iff.rfl⟩
  | cons port ports ih =>
    obtain ⟨res, iface₁, h₁, halloc, hround⟩ := allocatePorts_cons hret
    obtain ⟨msg, err₂, -, hnone, -⟩ | ⟨extPort, rfl, hret⟩ := hround
    · simp at hnone
    -- the rest of the loop sees the outcomes of this one shifted by one
    obtain ⟨hoks, hlen, hcap, hnot, hiff⟩ := ih hret
    have hsucc := refuses_succ halloc
    obtain ⟨-, ⟨msg, hres⟩, -⟩ | ⟨e, q, -, -, ⟨msg, hres⟩, -⟩ |
      ⟨e, q, mapper, rules, hrecv, -, -, -, -, -, heq⟩ := allocatePort_cases halloc
    · simp at hres
    · simp at hres
    obtain ⟨hqcap, hqueue⟩ := Chan.tryRecv_eq_some hrecv
    have hfree : h.freePorts = e :: h₁.freePorts := by
      rw [heq]
      exact hqueue
    refine ⟨?_, ?_, ?_, fun i hi => ?_, fun i => ?_⟩
    · rw [hoks, heq]
      show h.kernel.oks.tail.drop ports.length = _
      rw [List.drop_tail, List.length_cons]
    · rw [hfree, List.length_cons, List.length_cons]
      omega
    · rw [hcap, heq]
      exact hqcap
    · cases i with
      | zero => exact (hsucc 0).1
      | succ i => exact fun href => hnot i (Nat.lt_of_succ_lt_succ hi) ((hsucc i).2.mpr href)
    · rw [hiff i, (hsucc _).2, List.length_cons, Nat.add_assoc]

/-- A loop that fails opened some ports, was refused the next one, and released the interface. -/
theorem allocatePorts_split {ports : List Int} {iface iface' : NetworkInterface} {m m' : PortMap}
    {h h' : Host} {msg : GoString}
    (hret : Container.allocatePorts ports iface m h = .ret (some msg, iface', m', h')) :
    ∃ opened port rest iface₁ m₁ h₁ h₂ err₂, ports = opened ++ port :: rest ∧
      Container.allocatePorts opened iface m h = .ret (none, iface₁, m₁, h₁) ∧
      iface₁.allocatePort port h₁ = .ret (.error msg, iface₁, h₂) ∧
      iface₁.release h₂ = .ret (err₂, h') := by
  induction ports generalizing iface m h with
  | nil => simp [Container.allocatePorts] at hret
  | cons port ports ih =>
    obtain ⟨res, iface₁, h₁, halloc, hround⟩ := allocatePorts_cons hret
    obtain ⟨msg', err₂, rfl, hmsg, rfl, hrel⟩ | ⟨extPort, rfl, hret⟩ := hround
    · cases hmsg
      obtain ⟨rfl, -⟩ := allocatePort_refused halloc
      exact ⟨[], port, ports, iface₁, m', h, h₁, err₂, rfl, rfl, halloc, hrel⟩
    · obtain ⟨opened, port', rest, iface₂, m₂, h₂, h₃, err₂, rfl, hopen, hrefused, hrel⟩ := ih hret
      refine ⟨port :: opened, port', rest, iface₂, m₂, h₂, h₃, err₂, rfl, ?_, hrefused, hrel⟩
      rw [Container.allocatePorts, halloc]
      exact hopen

/-! ## One failed start -/

/-- What a start that returns an error should have restored. -/
structure Restored (c c' : Container) (h h' : Host) : Prop where
  ips : h'.freeIPs.Perm h.freeIPs
  ports : h'.freePorts.Perm h.freePorts
  mapping : ∀ e, h'.destOf e = h.destOf e
  network : c'.network = c.network

/-- The start fails before it has a network: the mount, the address or a port is refused. -/
def FailsEarly (calls : StartCalls) (h : Host) (ports : List Int) : Prop :=
  calls.ensureMounted.toBool = false ∨ h.freeIPs = [] ∨ ∃ j, RefusedAt h ports j

/-- A loop whose port at position `j` is refused puts back all that it took, and if its
    deletions are let through the ports before it are not mapped any more. -/
theorem allocatePorts_failed {ports : List Int} {iface iface' : NetworkInterface} {m m' : PortMap}
    {h h' : Host} {msg : GoString}
    (hret : Container.allocatePorts ports iface m h = .ret (some msg, iface', m', h'))
    (hnodup : h.freePorts.Nodup) (hext : iface.extPorts = [])
    (hroom : h.freeIPs.length < h.manager.ipAllocator.queue.cap) :
    h'.freePorts.Perm h.freePorts ∧ h'.freeIPs = h.freeIPs ++ [iface.ipNet.ip] ∧
      ∃ j, RefusedAt h ports j ∧ (∀ e ∉ h.freePorts.take j, h'.destOf e = h.destOf e) ∧
        ((∀ i < j, h.kernel.oks.getD ((if j < h.freePorts.length then j + 1 else j) + i) true =
            true) → ∀ e ∈ h.freePorts.take j, h'.destOf e = none) := by
  obtain ⟨opened, port, rest, iface₁, m₁, h₁, h₂, err₂, rfl, hopen, hrefused, hrel⟩ :=
    allocatePorts_split hret
  obtain ⟨exts, hlen, hfree, rfl, -, hips, hdocker, hchain, hdest, hothers⟩ :=
    allocatePorts_ok hopen hnodup
  obtain ⟨hoks, hlenFree, hcap, hnot, hiff⟩ := allocatePorts_accepts hopen
  obtain ⟨-, hperm₂, hips₂, hdest₂, hnat₂, hcap₂, hwhy⟩ := allocatePort_refused hrefused
  obtain ⟨h₃, hloop, -, rfl⟩ := release_cases hrel
  simp only [hext, List.nil_append] at hloop
  have htake : h.freePorts.take opened.length = exts := by rw [hfree, ← hlen, List.take_left]
  have hexts : exts.Nodup := by
    rw [hfree] at hnodup
    exact hnodup.of_append_left
  -- the pools
  obtain ⟨hback, hips₃⟩ := releasePorts_returned hloop (by
    rw [hperm₂.length_eq, hcap₂, hcap, hlen, hlenFree]
    exact h.manager.portAllocator.ports.bounded)
  have hips' : h₃.manager.ipAllocator = h.manager.ipAllocator := by rw [hips₃, hips₂, hips]
  obtain ⟨queue, hsend⟩ : ∃ queue,
      h.manager.ipAllocator.queue.trySend iface.ipNet.ip = some queue := by
    have hlt : h.manager.ipAllocator.queue.queue.length < h.manager.ipAllocator.queue.cap := hroom
    simp [Chan.trySend, hlt]
  refine ⟨?_, ?_, opened.length, ⟨by simp, ?_, hnot⟩, fun e he => ?_, fun hroll e he => ?_⟩
  · show h₃.freePorts.Perm h.freePorts
    rw [hback, hfree]
    exact (hperm₂.append_right _).trans List.perm_append_comm
  · simp only [Host.freeIPs, Host.setIPs_ipAllocator, hips', IPAllocator.release, hsend]
    exact (Chan.trySend_eq_some hsend).2
  -- the port that was refused
  · have href : Refuses h₁ 0 := by
      obtain ⟨hempty, -⟩ | ⟨-, -, hno⟩ := hwhy
      · exact .inl (by rw [hempty]; exact le_rfl)
      · cases hk : h₁.kernel.oks.headD true with
        | true => exact .inr (.inr (hno hk))
        | false => exact .inr (.inl (by cases ho : h₁.kernel.oks <;> simp_all))
    rw [hiff 0, Nat.zero_add] at href
    exact href
  · rw [htake] at he
    show h₃.destOf e = h.destOf e
    rw [(releasePorts_ports hloop).2 e he, hdest₂ e, hothers e he]
  · rw [htake] at he
    show h₃.destOf e = none
    have hopened : opened ≠ [] := by
      rintro rfl
      rw [List.length_eq_zero_iff.mp hlen] at he
      simp at he
    obtain ⟨rules, hrules⟩ := Option.ne_none_iff_exists'.mp (hchain hopened)
    refine releasePorts_unmapped hloop hexts (fun i hi => ?_) (by
      rw [hnat₂, hdocker, hrules, Option.map_some]) (fun e he => ?_) e he
    -- the deletions come after the refused command
    · rw [hlen] at hi
      have hok := hroll i hi
      obtain ⟨hempty, hsame⟩ | ⟨hne, htail, -⟩ := hwhy
      · rw [hempty, List.length_nil, Nat.zero_add] at hlenFree
        rw [if_neg (by omega)] at hok
        rw [hsame, hoks, List.getD_eq_getElem?_getD, List.getElem?_drop]
        exact hok
      · have hpos := List.length_pos_iff.mpr hne
        rw [if_pos (by omega)] at hok
        rw [htail, hoks, List.tail_drop, List.getD_eq_getElem?_getD, List.getElem?_drop]
        exact hok
    · have hsnd : (opened.zip exts).map Prod.snd = exts := List.map_snd_zip hlen.le
      rw [← hsnd] at he
      obtain ⟨pair, hpair, rfl⟩ := List.mem_map.mp he
      refine ⟨_, (hdest₂ _).trans (hdest pair hpair), ?_⟩
      exact List.mem_append_right _ (List.mem_map_of_mem hpair)

theorem RefusedAt.unique {h : Host} {ports : List Int} {i j : Nat} (hi : RefusedAt h ports i)
    (hj : RefusedAt h ports j) : i = j := by
  rcases Nat.lt_trichotomy i j with hlt | heq | hgt
  · exact absurd hi.2.1 (hj.2.2 i hlt)
  · exact heq
  · exact absurd hj.2.1 (hi.2.2 j hgt)

/-- All ways in which `Start` returns an error. -/
theorem startErr_failed {tty openStdin : Bool} {calls : StartCalls} {c c' : Container}
    {h h' : Host} {msg : GoString}
    (hret : c.startErr tty openStdin calls h = .ret (some msg, c', h'))
    (hnodup : h.freePorts.Nodup) :
    ((calls.ensureMounted.toBool = false ∨ h.freeIPs = []) ∧ c' = c ∧ h' = h) ∨
    (c'.network = c.network ∧ h'.freeIPs.Perm h.freeIPs ∧ h'.freePorts.Perm h.freePorts ∧
      calls.ensureMounted.toBool = true ∧ h.freeIPs ≠ [] ∧
      ∃ j, RefusedAt h c.ports j ∧ (∀ e ∉ h.freePorts.take j, h'.destOf e = h.destOf e) ∧
        (RollsBack h c.ports → ∀ e ∈ h.freePorts.take j, h'.destOf e = none)) ∨
    (calls.ensureMounted.toBool = true ∧ (∀ j, ¬ RefusedAt h c.ports j) ∧
      ∃ ip, h.freeIPs = ip :: h'.freeIPs) := by
  unfold Container.startErr at hret
  cases hmount : calls.ensureMounted with
  | error err =>
    simp only [hmount, Outcome.ret.injEq, Prod.mk.injEq] at hret
    exact .inl ⟨.inl rfl, hret.2.1.symm, hret.2.2.symm⟩
  | ok _ =>
    simp only [hmount] at hret
    obtain ⟨⟨err, c₁, h₁⟩, halloc, hret⟩ := Outcome.bind_eq_ret.mp hret
    cases err with
    -- the network is refused
    | some msg' =>
      cases hret
      obtain ⟨hempty, -, rfl, rfl⟩ | ⟨ip, queue, iface, m, hrecv, hports, hend⟩ :=
        allocateNetwork_split halloc
      · exact .inl ⟨.inr hempty, rfl, rfl⟩
      · obtain ⟨-, rfl⟩ | ⟨herr, -⟩ := hend
        · obtain ⟨hcap, hqueue⟩ := Chan.tryRecv_eq_some hrecv
          have hips : h.freeIPs = ip :: queue.queue := hqueue
          have hroom : queue.queue.length < queue.cap := by
            have hbound := h.manager.ipAllocator.queue.bounded
            rw [hqueue, List.length_cons, ← hcap] at hbound
            exact hbound
          obtain ⟨hfree, hback, j, href, hothers, hnone⟩ :=
            allocatePorts_failed hports hnodup rfl hroom
          refine .inr (.inl ⟨rfl, ?_, hfree, rfl, by simp [hips], j, href, hothers,
            fun hroll => hnone (hroll j href)⟩)
          rw [hback, hips]
          exact List.perm_append_singleton _ _
        · cases herr
    -- a later call fails: the network stays
    | none =>
      obtain ⟨iface, -, hips, -⟩ := allocateNetwork_ok halloc hnodup
      have hnever : ∀ j, ¬ RefusedAt h c.ports j := by
        obtain ⟨-, ⟨msg, herr⟩, -⟩ | ⟨ip, queue, iface, m, -, hports, -⟩ :=
          allocateNetwork_split halloc
        · cases herr
        · exact fun j href => (allocatePorts_accepts hports).2.2.2.1 j href.1 href.2.1
      cases hspawn : calls.spawn tty openStdin with
      | error err =>
        simp only [hspawn] at hret
        cases hret
        exact .inr (.inr ⟨rfl, hnever, _, hips⟩)
      | ok _ =>
        simp only [hspawn] at hret
        cases hret

/-! ## All failed starts -/

/-- A start on some container fails early. -/
def FailedStart (d d' : Daemon) : Prop :=
  ∃ k c tty openStdin calls oks msg, d.containers[k]? = some c ∧
    FailsEarly calls (d.host.offer oks) c.ports ∧
    d.startErr k tty openStdin calls oks = some (some msg, d')

/-- An early failure keeps the pools. -/
theorem FailedStart.pools {d d' : Daemon} (hfail : FailedStart d d')
    (hnodup : d.host.freePorts.Nodup) :
    d'.host.freeIPs.Perm d.host.freeIPs ∧ d'.host.freePorts.Perm d.host.freePorts := by
  obtain ⟨k, c, tty, openStdin, calls, oks, msg, hk, hearly, hstart⟩ := hfail
  simp only [Daemon.startErr, hk, Option.bind_eq_bind, Option.bind_some, Option.bind_eq_some_iff,
    Outcome.toOption_eq_some, Option.some.injEq, Prod.mk.injEq] at hstart
  obtain ⟨⟨err, c', h'⟩, hret, rfl, rfl⟩ := hstart
  obtain ⟨-, -, rfl⟩ | ⟨-, hips, hports, -⟩ | ⟨hmounted, hnever, ip, hips⟩ :=
    startErr_failed hret hnodup
  · exact ⟨.refl _, .refl _⟩
  · exact ⟨hips, hports⟩
  · obtain hmount | hempty | ⟨j, href⟩ := hearly
    · simp [hmounted] at hmount
    · simp [hips] at hempty
    · exact absurd href (hnever j)

/-- Take any state the daemon has got to. A `Start` that returns an error, and whose rollback
    commands are let through, restores the pools, the mappings and the network of its container
    exactly when it fails because of the mount or the address, or because a port is refused and
    none of the external ports taken before it was still mapped. And any number of starts that
    fail for one of these reasons keeps the pools. -/
theorem start_restores {d : Daemon} (hd : portSystem.Reachable d) :
    (∀ (tty openStdin : Bool) (calls : StartCalls) (c c' : Container) (oks : List Bool)
        (msg : GoString) (h' : Host), RollsBack (d.host.offer oks) c.ports →
      c.startErr tty openStdin calls (d.host.offer oks) = .ret (some msg, c', h') →
      (Restored c c' d.host h' ↔ calls.ensureMounted.toBool = false ∨ d.host.freeIPs = [] ∨
        ∃ j, RefusedAt (d.host.offer oks) c.ports j ∧
          ∀ e ∈ d.host.freePorts.take j, d.host.destOf e = none)) ∧
    ∀ d', Relation.ReflTransGen FailedStart d d' →
      d'.host.freeIPs.Perm d.host.freeIPs ∧ d'.host.freePorts.Perm d.host.freePorts := by
  have hnodup := (reachable_apart hd).freePorts
  refine ⟨fun tty openStdin calls c c' oks msg h' hroll hret => ?_, fun d' hruns => ?_⟩
  · obtain ⟨hwhy, rfl, rfl⟩ | ⟨hnet, hips, hports, hmounted, hne, j, href, hothers, hnone⟩ |
      ⟨hmounted, hnever, ip, hips⟩ := startErr_failed hret hnodup
    · refine iff_of_true ⟨.refl _, .refl _, fun _ => rfl, rfl⟩ ?_
      exact hwhy.imp_right .inl
    -- a port is refused: the ports before it are not mapped any more
    · constructor
      · intro hres
        refine .inr (.inr ⟨j, href, fun e he => ?_⟩)
        exact (hres.mapping e).symm.trans (hnone hroll e he)
      · rintro (hmount | hempty | ⟨j', href', hclean⟩)
        · simp [hmounted] at hmount
        · exact absurd hempty hne
        · cases href.unique href'
          refine ⟨hips, hports, fun e => ?_, hnet⟩
          by_cases he : e ∈ d.host.freePorts.take j
          · exact (hnone hroll e he).trans (hclean e he).symm
          · exact hothers e he
    -- the address stays with the container
    · refine iff_of_false (fun hres => ?_) ?_
      · have hlen := hres.ips.length_eq
        rw [show d.host.freeIPs = ip :: h'.freeIPs from hips, List.length_cons] at hlen
        omega
      · rintro (hmount | hempty | ⟨j, href, -⟩)
        · simp [hmounted] at hmount
        · rw [show d.host.freeIPs = ip :: h'.freeIPs from hips] at hempty
          simp at hempty
        · exact hnever j href
  · induction hruns with
    | refl => exact ⟨.refl _, .refl _⟩
    | tail _ hfail ih =>
      obtain ⟨hips, hports⟩ := hfail.pools (ih.2.nodup_iff.mpr hnodup)
      exact ⟨hips.trans ih.1, hports.trans ih.2⟩

/-- The second command is refused, so the second port is. -/
theorem refusedAt_second {h : Host} {ports : List Int} (hports : 1 < ports.length)
    (hfree : 1 < h.freePorts.length) (hoks : h.kernel.oks = [true, false])
    (hchain : h.kernel.nat.docker ≠ none) : RefusedAt h ports 1 ∧ RollsBack h ports := by
  have href : RefusedAt h ports 1 := by
    refine ⟨hports, .inr (.inl (by simp [hoks])), fun i hi => ?_⟩
    have hi : i = 0 := by omega
    subst hi
    rintro (hlen | hfalse | hnone)
    · omega
    · simp [hoks] at hfalse
    · exact hchain hnone
  refine ⟨href, fun j hj i hi => ?_⟩
  cases hj.unique href
  have hi : i = 0 := by omega
  simp [hi, hfree, hoks]

/-- The second of two ports is refused: the start fails and puts the first one back, too, and
    so would any number of such starts. -/
theorem start_restores_refused :
    ∃ d c c' h' msg, portSystem.Reachable d ∧ c.ports = [80, 443] ∧
      c.startErr false false .succeed (d.host.offer [true, false]) = .ret (some msg, c', h') ∧
      Restored c c' d.host h' ∧ ∀ d', Relation.ReflTransGen FailedStart d d' →
        d'.host.freeIPs.Perm d.host.freeIPs := by
  obtain ⟨ips, rest, cap, hb, hips, hfresh⟩ := loopback_fresh
  cases hips
  have hinit : portSystem.Reachable _ := .init hfresh
  have hd := hinit.run [.create (str "c") [80, 443]] rfl
  obtain ⟨hone, hmany⟩ := start_restores hd
  have hfree : 1 < (49153 :: 49154 :: rest).length := by simp
  refine ⟨_, createContainer (str "c") [80, 443], _, _, _, hd, rfl, rfl,
    (hone false false .succeed _ _ [true, false] _ _ ?_ rfl).mpr
      (.inr (.inr ⟨1, ?_, fun e _ => rfl⟩)), fun d' hruns => (hmany d' hruns).1⟩
  · refine (refusedAt_second (by decide) ?_ rfl (Option.some_ne_none [])).2
    exact hfree
  · refine (refusedAt_second (by decide) ?_ rfl (Option.some_ne_none [])).1
    exact hfree

/-- The command of a container cannot be started: an address has gone from the pool and is
    not given back, and neither is the port, which stays mapped. -/
theorem start_leaks :
    ∃ d c c' h', portSystem.Reachable d ∧ c.ports = [80] ∧
      c.startErr false false { StartCalls.succeed with cmdStart := .error (str "exec") }
        (d.host.offer []) = .ret (some (str "exec"), c', h') ∧
      d.host.freeIPs.length = h'.freeIPs.length + 1 ∧ h'.destOf 49153 = some ⟨⟨127, 0, 0, 2⟩, 80⟩ ∧
      ¬ Restored c c' d.host h' := by
  obtain ⟨ips, rest, cap, hb, hips, hfresh⟩ := loopback_fresh
  cases hips
  have hinit : portSystem.Reachable _ := .init hfresh
  have hd := hinit.run [.create (str "c") [80]] rfl
  refine ⟨_, createContainer (str "c") [80], _, _, hd, rfl, rfl, rfl, rfl, fun hres => ?_⟩
  have hnet := hres.network
  simp [createContainer] at hnet

end Ports

end Docker

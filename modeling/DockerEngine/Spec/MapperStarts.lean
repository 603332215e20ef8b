import DockerEngine.Native.MapperStarts
import DockerEngine.Spec.NetworkOps

/-!
# At most one jump to the DOCKER chain

`cleanup` ignores the errors of its commands and `setup` stops at the first one, so a start
can leave the nat table half way. What holds in every such state is that the jump is there
at most once and never without the chain (`Guarded`): the jump keeps the chain from being
deleted, and `setup` appends a jump only to a chain that it has just made.

- `one_jump`: the table over all starts, and what a start that succeeds leaves
-/

namespace Docker

open Go

/-- The jump is there at most once, and not without the chain. -/
structure NatTable.Guarded (t : NatTable) : Prop where
  once : t.jumps ≤ 1
  chain : t.docker = none → t.jumps = 0

namespace NatTable.Guarded

variable {t t' : NatTable}

/-- The only command that can add a second jump is the one that appends a jump. -/
theorem exec (h : t.Guarded) {cmd : Command} (hcmd : cmd = .appendJump → t.jumps = 0)
    (hexec : cmd.exec t = some t') : t'.Guarded := by
  obtain ⟨honce, hchain⟩ := h
  cases cmd with
  | deleteJump =>
    simp only [Command.exec] at hexec
    split at hexec
    · simp at hexec
    · cases hexec
      refine ⟨?_, fun hnone => ?_⟩
      · show t.jumps - 1 ≤ 1
        omega
      · show t.jumps - 1 = 0
        rw [hchain hnone]
  | flushChain =>
    obtain ⟨rules, -, rfl⟩ := Option.map_eq_some_iff.mp hexec
    exact ⟨honce, fun hnone => by simp at hnone⟩
  | deleteChain =>
    simp only [Command.exec] at hexec
    split at hexec
    -- a chain that is jumped to is not deleted
    · next hfree =>
      cases hexec
      exact ⟨honce, fun _ => hfree.2⟩
    · simp at hexec
  | newChain =>
    simp only [Command.exec] at hexec
    split at hexec
    · simp at hexec
    · cases hexec
      exact ⟨honce, fun hnone => by simp at hnone⟩
  | appendJump =>
    have hzero := hcmd rfl
    simp only [Command.exec] at hexec
    split at hexec
    · next hsome =>
      cases hexec
      refine ⟨?_, fun hnone => ?_⟩
      · show t.jumps + 1 ≤ 1
        omega
      · rw [show t.docker = none from hnone] at hsome
        simp at hsome
    · simp at hexec
  | appendRule rule =>
    obtain ⟨rules, -, rfl⟩ := Option.map_eq_some_iff.mp hexec
    exact ⟨honce, fun hnone => by simp at hnone⟩
  | deleteRule rule =>
    simp only [Command.exec] at hexec
    split at hexec
    · split at hexec
      · cases hexec
        exact ⟨honce, fun hnone => by simp at hnone⟩
      · simp at hexec
    · simp at hexec

/-- A command that is refused changes nothing. -/
theorem iptables {k : Kernel} (h : k.nat.Guarded) {cmd : Command}
    (hcmd : cmd = .appendJump → k.nat.jumps = 0) : (iptables cmd k).2.nat.Guarded := by
  obtain ⟨err, -, hip⟩ | ⟨nat, -, hexec, hip⟩ := iptables_cases cmd k
  · rw [hip]
    exact h
  · rw [hip]
    exact h.exec hcmd hexec

theorem cleanup {k : Kernel} (h : k.nat.Guarded) : (PortMapper.cleanup k).2.nat.Guarded :=
  ((h.iptables (by simp)).iptables (by simp)).iptables (by simp)

/-- `setup` makes the chain first. When that succeeds there was no chain, hence no jump. -/
theorem setup {k : Kernel} (h : k.nat.Guarded) :
    (PortMapper.setup k).2.nat.Guarded ∧
      ((PortMapper.setup k).1 = none → (PortMapper.setup k).2.nat = ⟨1, some []⟩) := by
  unfold PortMapper.setup
  obtain ⟨err, -, hnew⟩ | ⟨nat, -, hexec, hnew⟩ := iptables_cases .newChain k
  · simp only [hnew]
    exact ⟨h, fun hnone => by simp at hnone⟩
  · have hnat : nat = ⟨0, some []⟩ := by
      simp only [Command.exec] at hexec
      split at hexec
      · simp at hexec
      · next hnone =>
        cases hexec
        rw [h.chain (by simpa using hnone)]
    subst hnat
    simp only [hnew]
    obtain ⟨err, -, hjump⟩ | ⟨nat', -, hexec', hjump⟩ :=
      iptables_cases .appendJump ⟨⟨0, some []⟩, k.oks.tail⟩
    · simp only [hjump]
      exact ⟨⟨Nat.zero_le _, fun _ => rfl⟩, fun hnone => by simp at hnone⟩
    · simp only [hjump]
      cases hexec'
      exact ⟨⟨Nat.le_refl _, fun hnone => by simp at hnone⟩, fun _ => rfl⟩

/-- A start leaves the table in order; when it succeeds, with one jump to an empty chain. -/
theorem newPortMapper {k : Kernel} (h : k.nat.Guarded) :
    (newPortMapper k).2.nat.Guarded ∧
      ∀ mapper, (newPortMapper k).1 = .ok mapper →
        (newPortMapper k).2.nat = ⟨1, some []⟩ ∧ ∀ port, mapper.mapping port = none := by
  obtain ⟨hguard, hok⟩ := h.cleanup.setup
  simp only [Docker.newPortMapper]
  rcases hsetup : PortMapper.setup (PortMapper.cleanup k).2 with ⟨_ | err, k'⟩
  · rw [hsetup] at hguard hok
    refine ⟨hguard, fun mapper hmapper => ⟨hok rfl, fun port => ?_⟩⟩
    cases hmapper
    rfl
  · rw [hsetup] at hguard
    exact ⟨hguard, fun mapper hmapper => by simp at hmapper⟩

end NatTable.Guarded

/-- Mapping, unmapping and starting again keep the table in order. -/
theorem Host.mapperStep_guarded {h h' : Host} {op : MapperOp} (hg : h.kernel.nat.Guarded)
    (hstep : h.mapperStep op = some h') : h'.kernel.nat.Guarded := by
  cases op with
  | start oks =>
    cases hstep
    exact (NatTable.Guarded.newPortMapper (k := ⟨h.kernel.nat, oks⟩) hg).1
  | map port dest oks =>
    -- with a mapper or without, the table is what iptables made of it
    have hiptables : (iptables (.appendRule ⟨port, dest⟩) (h.offer oks).kernel).2.nat.Guarded :=
      NatTable.Guarded.iptables (k := (h.offer oks).kernel) hg (by simp)
    simp only [mapperStep] at hstep
    split at hstep
    · next err h₁ hmap =>
      cases hstep
      unfold PortMapper.map at hmap
      split at hmap
      · next hip =>
        cases hmap
        rw [hip] at hiptables
        exact hiptables
      · next hip =>
        split at hmap
        · simp at hmap
        · cases hmap
          rw [hip] at hiptables
          exact hiptables
    · cases hstep
      exact hiptables
    · cases hstep
      exact hiptables
  | unmap port oks =>
    simp only [mapperStep] at hstep
    split at hstep
    · next err h₁ hunmap =>
      cases hstep
      obtain ⟨mapper, -, ⟨-, rfl⟩ | ⟨dest, -, -, rfl⟩ | ⟨dest, rules, -, -, rfl⟩⟩ :=
        unmap_cases hunmap
      · exact hg
      · exact hg
      · exact ⟨hg.once, fun hnone => by simp at hnone⟩
    · cases hstep
      exact hg
    · cases hstep
      exact hg

/-- Over any number of starts, with any iptables commands failing: PREROUTING has at most one
    jump to DOCKER, and a start that succeeds leaves exactly one, to an empty chain, and a
    mapper without mappings. -/
theorem one_jump {h : Host} (hreach : mapperSystem.Reachable h) :
    h.kernel.nat.jumps ≤ 1 ∧
      ∀ oks mapper k, newPortMapper ⟨h.kernel.nat, oks⟩ = (.ok mapper, k) →
        k.nat.jumps = 1 ∧ k.nat.docker = some [] ∧ ∀ port, mapper.mapping port = none := by
  have hg : h.kernel.nat.Guarded := by
    refine hreach.invariant (fun h₀ hinit => ?_)
      fun _ _ _ hg _ hstep => Host.mapperStep_guarded hg hstep
    rw [hinit.1]
    exact ⟨Nat.zero_le _, fun _ => rfl⟩
  refine ⟨hg.once, fun oks mapper k hnew => ?_⟩
  have hstart := (NatTable.Guarded.newPortMapper (k := ⟨h.kernel.nat, oks⟩) hg).2 mapper
  rw [hnew] at hstart
  obtain ⟨hnat, hempty⟩ := hstart rfl
  exact ⟨by rw [hnat], by rw [hnat], hempty⟩

/-- A machine on which no daemon has been started yet. -/
def unstartedHost : Host :=
  ⟨⟨⟨⟨127, 0, 0, 1⟩, ⟨255, 255, 255, 248⟩⟩,
      ⟨⟨⟨127, 0, 0, 1⟩, ⟨255, 255, 255, 248⟩⟩, Chan.make 0, 0⟩,
    ⟨Chan.make 0, 0⟩, none⟩, ⟨⟨0, none⟩, []⟩⟩

/-- The first daemon maps a port, the start of the second fails since the jump cannot be
    deleted, and the third one starts. -/
theorem one_jump_thirdStart :
    ∃ h mapper k, mapperSystem.Reachable h ∧ h.kernel.nat.jumps = 1 ∧
      newPortMapper ⟨h.kernel.nat, []⟩ = (.ok mapper, k) ∧ k.nat.jumps = 1 := by
  have hinit : mapperSystem.Reachable unstartedHost := .init ⟨rfl, rfl⟩
  have hreach := hinit.run
    [.start [], .map 49153 ⟨⟨127, 0, 0, 2⟩, 80⟩ [], .start [false]] rfl
  exact ⟨_, _, _, hreach, rfl, rfl, ((one_jump hreach).2 [] _ _ rfl).1⟩

end Docker

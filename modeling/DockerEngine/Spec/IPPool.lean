import DockerEngine.Spec.Populate
import DockerEngine.ForStd.BitVec
import Mathlib.Data.List.Pairwise

/-!
# The IP pool of a network

Read as an unsigned number, the first address of a network is the address of the bridge
with its host bits cleared, and the last one comes `2 ^ k - 1` later, when the mask leaves
`k` host bits. `populate` makes room for `2 ^ k - 3` addresses and offers the `2 ^ k - 2`
between the first and the last one, so all depends on whether the address of the bridge,
which is skipped, is one of them.

- `newIPAllocator_full`: a bridge strictly between the first and the last address
- `newIPAllocator_returns`: all contiguous masks and all addresses
-/

namespace Docker

/-! ## Addresses as unsigned numbers -/

/-- The unsigned number that an address stands for. -/
def IP.num (ip : IP) : Nat := (ipToInt ip).toNat

theorem IP.num_lt (ip : IP) : ip.num < 2 ^ 32 := (ipToInt ip).isLt

theorem intToIp_ipToInt (ip : IP) : intToIp (ipToInt ip) = ip := by
  have h1 := ip.b1.toNat_lt
  have h2 := ip.b2.toNat_lt
  have h3 := ip.b3.toNat_lt
  obtain ⟨b0, b1, b2, b3⟩ := ip
  simp only [intToIp, ipToInt_toNat, IP.mk.injEq, ← UInt8.toNat_inj, UInt8.toNat_ofNat']
  have h0 := b0.toNat_lt
  simp only at h1 h2 h3
  omega

theorem IP.num_injective : Function.Injective IP.num := fun _ _ h =>
  Function.LeftInverse.injective intToIp_ipToInt (BitVec.eq_of_toNat_eq h)

/-- Four bytes, the first one on top. -/
def bytes (b0 b1 b2 b3 : BitVec 8) : BitVec (8 + 8 + 8 + 8) := b0 ++ b1 ++ b2 ++ b3

section

variable (a0 a1 a2 a3 b0 b1 b2 b3 : BitVec 8)

theorem bytes_and : bytes a0 a1 a2 a3 &&& bytes b0 b1 b2 b3 =
    bytes (a0 &&& b0) (a1 &&& b1) (a2 &&& b2) (a3 &&& b3) := by
  simp only [bytes, BitVec.and_append]

theorem bytes_or : bytes a0 a1 a2 a3 ||| bytes b0 b1 b2 b3 =
    bytes (a0 ||| b0) (a1 ||| b1) (a2 ||| b2) (a3 ||| b3) := by
  simp only [bytes, BitVec.or_append]

theorem bytes_not : ~~~bytes a0 a1 a2 a3 = bytes (~~~a0) (~~~a1) (~~~a2) (~~~a3) := by
  simp only [bytes, BitVec.not_append]

end

theorem ipToInt_eq_bytes (ip : IP) :
    ipToInt ip = bytes ip.b0.toBitVec ip.b1.toBitVec ip.b2.toBitVec ip.b3.toBitVec := by
  have h1 := ip.b1.toNat_lt
  have h2 := ip.b2.toNat_lt
  have h3 := ip.b3.toNat_lt
  apply BitVec.eq_of_toNat_eq
  simp only [ipToInt_toNat, bytes, BitVec.toNat_append, UInt8.toNat_toBitVec]
  rw [← Nat.shiftLeft_add_eq_or_of_lt h1, ← Nat.shiftLeft_add_eq_or_of_lt h2,
    ← Nat.shiftLeft_add_eq_or_of_lt h3]
  simp only [Nat.shiftLeft_eq]
  omega

/-! ## First address, last address and size -/

theorem networkRange_first (network : IPNet) :
    ipToInt (networkRange network).1 = ipToInt network.ip &&& ipToInt network.mask := by
  simp only [ipToInt_eq_bytes]
  exact (bytes_and ..).symm

theorem networkRange_last (network : IPNet) :
    ipToInt (networkRange network).2 = ipToInt network.ip ||| ~~~ipToInt network.mask := by
  simp only [ipToInt_eq_bytes]
  exact (bytes_or ..).symm.trans (by rw [bytes_not]; rfl)

theorem networkSize_eq (mask : IPMask) : networkSize mask = ~~~ipToInt mask + 1 := by
  rw [networkSize, ipToInt_eq_bytes mask, ipToInt_eq_bytes]
  exact congrArg (· + 1) (bytes_not ..).symm

section

variable {network : IPNet} {ones : Nat} (hmask : network.mask = cidrMask ones)

include hmask

theorem last_num :
    (networkRange network).2.num = (networkRange network).1.num + (2 ^ (32 - ones) - 1) := by
  have hnot := BitVec.not_shiftLeft_toNat (Nat.sub_le 32 ones)
  rw [IP.num, networkRange_last, BitVec.or_not_toNat, ← networkRange_first, hmask, cidrMask,
    ipToInt_intToIp, hnot]
  rfl

theorem first_add_le : (networkRange network).1.num + 2 ^ (32 - ones) ≤ 2 ^ 32 := by
  have hlast := (networkRange network).2.num_lt
  rw [last_num hmask] at hlast
  omega

theorem networkSize_cidr : networkSize network.mask = BitVec.ofNat 32 (2 ^ (32 - ones)) := by
  have hnot := BitVec.not_shiftLeft_toNat (Nat.sub_le 32 ones)
  have hpos := Nat.two_pow_pos (32 - ones)
  apply BitVec.eq_of_toNat_eq
  rw [networkSize_eq, hmask, cidrMask, ipToInt_intToIp, BitVec.toNat_add, hnot,
    BitVec.toNat_ofNat]
  show (2 ^ (32 - ones) - 1 + 1) % 2 ^ 32 = 2 ^ (32 - ones) % 2 ^ 32
  rw [Nat.sub_add_cancel hpos]

end

/-- Up to the size `2 ^ 31`, which is negative as an `int32`, the differences are right. -/
theorem size_sub_toInt {size c : Nat} (hc : 0 < c) (hle : c ≤ size) (hsize : size ≤ 2 ^ 31) :
    (BitVec.ofNat 32 size - BitVec.ofNat 32 c).toInt = size - c := by
  have hnat : (BitVec.ofNat 32 size - BitVec.ofNat 32 c).toNat = size - c := by
    rw [BitVec.toNat_sub, BitVec.toNat_ofNat, BitVec.toNat_ofNat]
    omega
  rw [BitVec.toInt_eq_toNat_of_lt (by omega), hnat]
  omega

/-! ## What is offered to the pool -/

theorem addressAt_num {network : IPNet} {i : Nat} (hi : (networkRange network).1.num + i < 2 ^ 32) :
    (addressAt network i).num = (networkRange network).1.num + i := by
  rw [IP.num] at hi
  rw [IP.num, addressAt, ipToInt_intToIp, BitVec.toNat_add, BitVec.toNat_ofNat, IP.num]
  omega

/-- The addresses in the rounds of the loop. -/
def visited (network : IPNet) (size : Nat) : List IP :=
  (List.range' 1 (size - 2)).map (addressAt network)

section

variable {network : IPNet} {ones : Nat} (hmask : network.mask = cidrMask ones)

include hmask

/-- The loop visits the addresses between the first and the last one. -/
theorem mem_visited {ip : IP} : ip ∈ visited network (2 ^ (32 - ones)) ↔
    (networkRange network).1.num < ip.num ∧ ip.num < (networkRange network).2.num := by
  have hle := first_add_le hmask
  rw [last_num hmask, visited, List.mem_map]
  constructor
  · rintro ⟨i, hi, rfl⟩
    rw [List.mem_range'_1] at hi
    rw [addressAt_num (by omega)]
    omega
  · rintro ⟨hfirst, hlast⟩
    refine ⟨ip.num - (networkRange network).1.num, ?_, ?_⟩
    · rw [List.mem_range'_1]
      omega
    · apply IP.num_injective
      rw [addressAt_num (by omega)]
      omega

/-- They come in increasing order. -/
theorem visited_increasing :
    (visited network (2 ^ (32 - ones))).Pairwise fun ip ip' => ip.num < ip'.num := by
  have hle := first_add_le hmask
  rw [visited, List.pairwise_map]
  refine List.Pairwise.imp_of_mem (fun {i j} hi hj hij => ?_) List.pairwise_lt_range'
  rw [List.mem_range'_1] at hi hj
  rw [addressAt_num (by omega), addressAt_num (by omega)]
  omega

theorem visited_nodup : (visited network (2 ^ (32 - ones))).Nodup :=
  (visited_increasing hmask).imp fun hlt heq => absurd (congrArg IP.num heq) (Nat.ne_of_lt hlt)

end

/-! ## Filling the pool -/

/-- The loop never changes the capacity. -/
theorem populateLoop_cap {network : IPNet} {firstIP : IP} {n : Nat} {i : BitVec 32}
    {queue queue' : Chan IP}
    (hret : IPAllocator.populateLoop network firstIP n i queue = .ret queue') :
    queue'.cap = queue.cap := by
  induction n generalizing i queue with
  | zero =>
    cases hret
    rfl
  | succ n ih =>
    simp only [IPAllocator.populateLoop] at hret
    split at hret
    · exact ih hret
    · obtain ⟨q, hsend, hret⟩ := Outcome.bind_eq_ret.mp hret
      exact (ih hret).trans (Chan.send_eq_ret hsend).1

/-- As long as there is room for all addresses but the bridge's, no send blocks. -/
theorem populateLoop_returns {network : IPNet} {n i : Nat} {queue : Chan IP}
    (hroom : queue.queue.length +
      (((List.range' i n).map (addressAt network)).filter (· ≠ network.ip)).length ≤ queue.cap) :
    ∃ queue', IPAllocator.populateLoop network (networkRange network).1 n (BitVec.ofNat 32 i) queue
      = .ret queue' := by
  induction n generalizing i queue with
  | zero => exact ⟨queue, rfl⟩
  | succ n ih =>
    have hnext : BitVec.ofNat 32 i + 1 = BitVec.ofNat 32 (i + 1) := (BitVec.ofNat_add i 1).symm
    simp only [List.range'_succ, List.map_cons] at hroom
    simp only [IPAllocator.populateLoop, hnext]
    split
    · next heq =>
      rw [List.filter_cons_of_neg (by simp [addressAt, heq])] at hroom
      exact ih hroom
    · next hne =>
      rw [List.filter_cons_of_pos (by simp [addressAt, hne]), List.length_cons] at hroom
      cases hsend : queue.trySend (addressAt network i) with
      -- a full channel contradicts the room that is left
      | none =>
        have hfull := Chan.trySend_eq_none.mp hsend
        omega
      | some queue₁ =>
        obtain ⟨hcap, hqueue⟩ := Chan.trySend_eq_some hsend
        have hroom₁ : queue₁.queue.length +
            (((List.range' (i + 1) n).map (addressAt network)).filter (· ≠ network.ip)).length ≤
              queue₁.cap := by
          rw [hcap, hqueue, List.length_append, List.length_singleton]
          omega
        obtain ⟨queue', hloop⟩ := ih hroom₁
        refine ⟨queue', ?_⟩
        rw [Chan.send, show queue.trySend (intToIp (ipToInt (networkRange network).1 +
          BitVec.ofNat 32 i)) = some queue₁ from hsend]
        exact hloop

/-! ## Whole networks -/

section

variable {network : IPNet} {ones : Nat} (hmask : network.mask = cidrMask ones)

include hmask

/-- With two to thirty-one host bits there is a channel to fill. -/
theorem populate_eq (hlow : 1 ≤ ones) (hhigh : ones ≤ 30) :
    IPAllocator.populate network =
      IPAllocator.populateLoop network (networkRange network).1 (2 ^ (32 - ones) - 2) 1
        (Chan.make (2 ^ (32 - ones) - 3)) := by
  have hmin : 2 ^ 2 ≤ 2 ^ (32 - ones) := Nat.pow_le_pow_right (by decide) (by omega)
  have hmax : 2 ^ (32 - ones) ≤ 2 ^ 31 := Nat.pow_le_pow_right (by decide) (by omega)
  have hcap : (networkSize network.mask - 3).toInt = ((2 ^ (32 - ones) : Nat) : Int) - 3 := by
    rw [networkSize_cidr hmask]
    exact size_sub_toInt (c := 3) (by decide) (by omega) hmax
  have hbound : (networkSize network.mask - 1).toInt = ((2 ^ (32 - ones) : Nat) : Int) - 1 := by
    rw [networkSize_cidr hmask]
    exact size_sub_toInt (c := 1) (by decide) (by omega) hmax
  simp only [IPAllocator.populate, hcap, hbound]
  generalize 2 ^ (32 - ones) = size at *
  rw [if_neg (by omega)]
  congr 2 <;> omega

/-- With no or one host bit, or with nothing but host bits, the capacity is negative. -/
theorem populate_panics (hle : ones ≤ 32) (hones : ones = 0 ∨ 31 ≤ ones) :
    IPAllocator.populate network = .panic := by
  have hneg : (networkSize network.mask - 3).toInt < 0 := by
    rw [networkSize_cidr hmask]
    obtain rfl | rfl | rfl : ones = 0 ∨ ones = 31 ∨ ones = 32 := by omega
    · decide
    · decide
    · decide
  simp only [IPAllocator.populate]
  rw [if_pos hneg]

/-- Of the visited addresses all are offered but the bridge's, if it is one of them. -/
theorem offered_length : ((visited network (2 ^ (32 - ones))).filter (· ≠ network.ip)).length =
    if network.ip ∈ visited network (2 ^ (32 - ones)) then 2 ^ (32 - ones) - 2 - 1
    else 2 ^ (32 - ones) - 2 := by
  have hlength : (visited network (2 ^ (32 - ones))).length = 2 ^ (32 - ones) - 2 := by
    simp [visited]
  rw [← hlength, ← List.length_erase, (visited_nodup hmask).erase_eq_filter]
  congr 2
  funext ip
  by_cases h : ip = network.ip <;> simp [h]

/-- A bridge between the first and the last address leaves just enough room. -/
theorem newIPAllocator_between (hlow : 1 ≤ ones) (hhigh : ones ≤ 30)
    (hmem : network.ip ∈ visited network (2 ^ (32 - ones))) :
    ∃ queue, newIPAllocator network = .ret ⟨network, queue, 0⟩ ∧
      queue.cap = 2 ^ (32 - ones) - 3 ∧
      queue.queue = (visited network (2 ^ (32 - ones))).filter (· ≠ network.ip) := by
  have hlength := offered_length hmask
  rw [if_pos hmem] at hlength
  obtain ⟨queue, hloop⟩ := @populateLoop_returns network (2 ^ (32 - ones) - 2) 1
    (Chan.make (2 ^ (32 - ones) - 3)) (by
      rw [Chan.make, List.length_nil, Nat.zero_add]
      exact le_of_eq hlength)
  refine ⟨queue, ?_, populateLoop_cap hloop, populateLoop_queue hloop⟩
  rw [newIPAllocator, populate_eq hmask hlow hhigh]
  show (IPAllocator.populateLoop network _ _ (BitVec.ofNat 32 1) _ >>= _) = _
  rw [hloop]
  rfl

end

/-- For a mask that leaves two to thirty host bits, and a bridge strictly between the first and
    the last address of its network, the pool is filled without a send that blocks: it
    holds, in increasing order, all addresses between the two but the bridge's own, and these
    are as many as there is room for. -/
theorem newIPAllocator_full {network : IPNet} {ones : Nat} (hmask : network.mask = cidrMask ones)
    (hlow : 2 ≤ ones) (hhigh : ones ≤ 30)
    (hfirst : (networkRange network).1.num < network.ip.num)
    (hlast : network.ip.num < (networkRange network).2.num) :
    ∃ ips, newIPAllocator network = .ret ips ∧ ips.network = network ∧
      ips.queue.cap = (networkSize network.mask).toInt - 3 ∧
      ips.queue.queue.length = ips.queue.cap ∧
      ips.queue.queue.Pairwise (fun ip ip' => ip.num < ip'.num) ∧
      ∀ ip, ip ∈ ips.queue.queue ↔ (networkRange network).1.num < ip.num ∧
        ip.num < (networkRange network).2.num ∧ ip ≠ network.ip := by
  have hmem : network.ip ∈ visited network (2 ^ (32 - ones)) :=
    (mem_visited hmask).mpr ⟨hfirst, hlast⟩
  have hlength := offered_length hmask
  rw [if_pos hmem] at hlength
  obtain ⟨queue, hret, hcap, hqueue⟩ := newIPAllocator_between hmask (by omega) hhigh hmem
  have hmin : 2 ^ 2 ≤ 2 ^ (32 - ones) := Nat.pow_le_pow_right (by decide) (by omega)
  have hmax : 2 ^ (32 - ones) ≤ 2 ^ 30 := Nat.pow_le_pow_right (by decide) (by omega)
  refine ⟨⟨network, queue, 0⟩, hret, rfl, ?_, ?_, ?_, fun ip => ?_⟩
  · show (queue.cap : Int) = _
    rw [hcap, networkSize_cidr hmask, BitVec.toInt_eq_toNat_of_lt] <;>
      rw [BitVec.toNat_ofNat, Nat.mod_eq_of_lt (by omega)] <;> omega
  · show queue.queue.length = queue.cap
    rw [hqueue, hcap, hlength]
    omega
  · show queue.queue.Pairwise _
    rw [hqueue]
    exact (visited_increasing hmask).filter _
  · show ip ∈ queue.queue ↔ _
    rw [hqueue, List.mem_filter, mem_visited hmask, and_assoc]
    simp

/-- A network above 128.0.0.0, whose addresses are negative as `int32`. -/
theorem newIPAllocator_full_negative :
    ∃ ips, newIPAllocator ⟨⟨192, 168, 7, 9⟩, cidrMask 29⟩ = .ret ips ∧
      (ipToInt ⟨192, 168, 7, 9⟩).toInt < 0 ∧ ips.queue.queue.length = 5 ∧
      ∀ ip ∈ ips.queue.queue, (IP.mk 192 168 7 8).num < ip.num ∧ ip ≠ ⟨192, 168, 7, 9⟩ := by
  obtain ⟨ips, hret, -, hcap, hlength, -, hmem⟩ :=
    @newIPAllocator_full ⟨⟨192, 168, 7, 9⟩, cidrMask 29⟩ 29 rfl (by decide) (by decide) (by decide)
      (by decide)
  have hsize : (networkSize (cidrMask 29)).toInt = 8 := by decide
  simp only [hsize] at hcap
  refine ⟨ips, hret, by decide, by omega, fun ip hip => ?_⟩
  obtain ⟨hfirst, -, hne⟩ := (hmem ip).mp hip
  exact ⟨hfirst, hne⟩

/-- For every address and every contiguous mask: the allocator is made, without a channel of
    negative capacity and without a send that blocks for ever, exactly when the mask leaves
    two to thirty-one host bits and the address lies strictly between the first and the last
    address of its network. -/
theorem newIPAllocator_returns {network : IPNet} {ones : Nat} (hmask : network.mask = cidrMask ones)
    (hle : ones ≤ 32) : (∃ ips, newIPAllocator network = .ret ips) ↔
      1 ≤ ones ∧ ones ≤ 30 ∧ (networkRange network).1.num < network.ip.num ∧
        network.ip.num < (networkRange network).2.num := by
  constructor
  · rintro ⟨ips, hret⟩
    obtain ⟨queue, hpop, -⟩ := Outcome.bind_eq_ret.mp hret
    have hones : 1 ≤ ones ∧ ones ≤ 30 := by
      by_contra hno
      rw [populate_panics hmask hle (by omega)] at hpop
      simp at hpop
    refine ⟨hones.1, hones.2, (mem_visited hmask).mp ?_⟩
    rw [populate_eq hmask hones.1 hones.2] at hpop
    have hcap : queue.cap = 2 ^ (32 - ones) - 3 := populateLoop_cap hpop
    have hqueue : queue.queue = (visited network (2 ^ (32 - ones))).filter (· ≠ network.ip) :=
      populateLoop_queue (i := 1) hpop
    have hlength := offered_length hmask
    have hbounded := queue.bounded
    have hmin : 2 ^ 2 ≤ 2 ^ (32 - ones) := Nat.pow_le_pow_right (by decide) (by omega)
    -- a bridge that is not visited leaves one address too many
    by_contra hout
    rw [if_neg hout] at hlength
    rw [hcap, hqueue, hlength] at hbounded
    omega
  · rintro ⟨hlow, hhigh, hbetween⟩
    obtain ⟨queue, hret, -⟩ :=
      newIPAllocator_between hmask hlow hhigh ((mem_visited hmask).mpr hbetween)
    exact ⟨_, hret⟩

theorem newIPAllocator_returns_documentation :
    ∃ ips, newIPAllocator ⟨⟨192, 0, 2, 1⟩, cidrMask 24⟩ = .ret ips :=
  (@newIPAllocator_returns _ 24 rfl (by decide)).mpr
    ⟨by decide, by decide, by decide, by decide⟩

/-- A point-to-point network asks for a channel of capacity -1, and a bridge at the first
    address of its network leaves more addresses than there is room for. -/
theorem newIPAllocator_stuck :
    newIPAllocator ⟨⟨10, 0, 0, 1⟩, cidrMask 31⟩ = .panic ∧
      newIPAllocator ⟨⟨10, 0, 0, 0⟩, cidrMask 30⟩ = .block :=
  ⟨rfl, rfl⟩

end Docker

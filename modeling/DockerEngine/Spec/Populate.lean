import DockerEngine.Native.Network
import Mathlib.Data.List.Nodup
import Mathlib.Data.List.Range

/-!
# Freshly populated pools

`populate` puts the addresses between the first and the last one into the IP pool and
the ports of the range into the port pool, in increasing order. No value goes in twice.

- `ipToInt_intToIp`: the two conversions are inverse
- `newIPAllocator_queue`, `newPortAllocator_queue`: the contents of a fresh pool
-/

namespace Docker

/-! ## Addresses as integers -/

theorem ipToInt_toNat (ip : IP) :
    (ipToInt ip).toNat =
      ip.b0.toNat * 2 ^ 24 + ip.b1.toNat * 2 ^ 16 + ip.b2.toNat * 2 ^ 8 + ip.b3.toNat := by
  have h0 := ip.b0.toNat_lt
  have h1 := ip.b1.toNat_lt
  have h2 := ip.b2.toNat_lt
  have h3 := ip.b3.toNat_lt
  rw [ipToInt, BitVec.toNat_ofNat]
  omega

theorem ipToInt_intToIp (n : BitVec 32) : ipToInt (intToIp n) = n := by
  apply BitVec.eq_of_toNat_eq
  -- the four bytes are the digits of `n` to the base 256
  have hn := n.isLt
  rw [ipToInt_toNat]
  simp only [intToIp, UInt8.toNat_ofNat']
  omega

theorem intToIp_injective : Function.Injective intToIp :=
  Function.LeftInverse.injective ipToInt_intToIp

/-! ## The IP pool -/

/-- The address `i` steps after the first one. -/
def addressAt (network : IPNet) (i : Nat) : IP :=
  intToIp (ipToInt (networkRange network).1 + BitVec.ofNat 32 i)

/-- The loop appends the addresses of its rounds, without the host's own. -/
theorem populateLoop_queue {network : IPNet} {n i : Nat} {queue queue' : Chan IP}
    (hret : IPAllocator.populateLoop network (networkRange network).1 n (BitVec.ofNat 32 i) queue
      = .ret queue') :
    queue'.queue = queue.queue ++
      ((List.range' i n).map (addressAt network)).filter (· ≠ network.ip) := by
  induction n generalizing i queue with
  | zero => cases hret; simp
  | succ n ih =>
    have hnext : BitVec.ofNat 32 i + 1 = BitVec.ofNat 32 (i + 1) := (BitVec.ofNat_add i 1).symm
    simp only [IPAllocator.populateLoop, hnext] at hret
    simp only [List.range'_succ, List.map_cons]
    split at hret
    -- the host's own address is skipped
    · next heq =>
      rw [ih hret, List.filter_cons_of_neg (by simp [addressAt, heq])]
    · next hne =>
      obtain ⟨q, hsend, hret⟩ := Outcome.bind_eq_ret.mp hret
      rw [ih hret, (Chan.send_eq_ret hsend).2, List.append_assoc,
        List.filter_cons_of_pos (by simp [addressAt, hne])]
      rfl

/-- A fresh IP pool: the addresses after the first, in order, without the host's own. -/
theorem newIPAllocator_queue {network : IPNet} {ips : IPAllocator}
    (hret : newIPAllocator network = .ret ips) :
    ips.rejected = 0 ∧
    ips.queue.queue =
      ((List.range' 1 ((networkSize network.mask - 1).toInt - 1).toNat).map
        (addressAt network)).filter (· ≠ network.ip) := by
  obtain ⟨queue, hpop, hret⟩ := Outcome.bind_eq_ret.mp hret
  cases hret
  simp only [IPAllocator.populate] at hpop
  split at hpop
  · simp at hpop
  · have hqueue := populateLoop_queue (i := 1) hpop
    rw [Chan.make, List.nil_append] at hqueue
    exact ⟨rfl, hqueue⟩

/-- Within `2^32` steps of the first address no address comes twice. -/
theorem addressAt_inj {network : IPNet} {i j : Nat} (hi : i < 2 ^ 32) (hj : j < 2 ^ 32)
    (h : addressAt network i = addressAt network j) : i = j := by
  have hsum := congrArg BitVec.toNat (intToIp_injective h)
  rw [BitVec.toNat_add, BitVec.toNat_add, BitVec.toNat_ofNat, BitVec.toNat_ofNat] at hsum
  omega

theorem newIPAllocator_nodup {network : IPNet} {ips : IPAllocator}
    (hret : newIPAllocator network = .ret ips) : ips.queue.queue.Nodup := by
  rw [(newIPAllocator_queue hret).2]
  have hlt := (networkSize network.mask - 1).toInt_lt
  generalize (networkSize network.mask - 1).toInt = size at hlt
  refine List.Nodup.filter _ (List.Nodup.map_on (fun i hi j hj heq => ?_) List.nodup_range')
  rw [List.mem_range'_1] at hi hj
  exact addressAt_inj (by omega) (by omega) heq

/-! ## The port pool -/

theorem fill_queue {l : List Int} {ports ports' : Chan Int}
    (hret : PortAllocator.fill ports l = .ret ports') : ports'.queue = ports.queue ++ l := by
  induction l generalizing ports with
  | nil => cases hret; simp
  | cons port l ih =>
    obtain ⟨q, hsend, hret⟩ := Outcome.bind_eq_ret.mp hret
    rw [ih hret, (Chan.send_eq_ret hsend).2, List.append_assoc]
    rfl

/-- As long as there is room, no send blocks. -/
theorem fill_returns {l : List Int} {ports : Chan Int}
    (hroom : ports.queue.length + l.length ≤ ports.cap) :
    ∃ ports', PortAllocator.fill ports l = .ret ports' := by
  induction l generalizing ports with
  | nil => exact ⟨ports, rfl⟩
  | cons port l ih =>
    rw [List.length_cons] at hroom
    cases hs : ports.trySend port with
    -- a full channel contradicts the room that is left
    | none =>
      have hfull := Chan.trySend_eq_none.mp hs
      omega
    | some ports₁ =>
      obtain ⟨hcap, hqueue⟩ := Chan.trySend_eq_some hs
      have hroom₁ : ports₁.queue.length + l.length ≤ ports₁.cap := by
        rw [hcap, hqueue, List.length_append, List.length_singleton]
        omega
      obtain ⟨ports', hfill⟩ := ih hroom₁
      refine ⟨ports', ?_⟩
      rw [PortAllocator.fill, Chan.send, hs]
      exact hfill

/-- The capacity of the pool is the size of its range, so it can be populated. -/
theorem newPortAllocator_returns {start finish : Int} (hle : start ≤ finish) :
    ∃ ports, newPortAllocator start finish = .ret ports := by
  have hroom : (Chan.make (α := Int) (finish - start).toNat).queue.length +
      ((List.range (finish - start).toNat).map fun i : Nat => start + (i : Int)).length
        ≤ (Chan.make (α := Int) (finish - start).toNat).cap := by
    simp [Chan.make]
  obtain ⟨ports, hfill⟩ := fill_returns hroom
  refine ⟨⟨ports, 0⟩, ?_⟩
  rw [newPortAllocator, PortAllocator.populate, if_neg (by omega), hfill]
  rfl

/-- A fresh port pool: the ports of the range, in order. -/
theorem newPortAllocator_queue {start finish : Int} {ports : PortAllocator}
    (hret : newPortAllocator start finish = .ret ports) :
    ports.rejected = 0 ∧
    ports.ports.queue =
      (List.range (finish - start).toNat).map fun i : Nat => start + (i : Int) := by
  obtain ⟨queue, hpop, hret⟩ := Outcome.bind_eq_ret.mp hret
  cases hret
  simp only [PortAllocator.populate] at hpop
  split at hpop
  · simp at hpop
  · exact ⟨rfl, fill_queue hpop⟩

theorem newPortAllocator_nodup {start finish : Int} {ports : PortAllocator}
    (hret : newPortAllocator start finish = .ret ports) : ports.ports.queue.Nodup := by
  rw [(newPortAllocator_queue hret).2]
  exact List.Nodup.map (fun i j h => by simpa using h) List.nodup_range

end Docker

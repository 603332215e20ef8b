import DockerEngine.Spec.IPPool
import Mathlib.Logic.Function.Basic

/-!
# The arithmetic of addresses and masks

The conversions between addresses and `int32` lose nothing, so sums and differences of
addresses may be taken as `int32`: what comes out is right modulo `2 ^ 32`, on either side of
128.0.0.0, where the sign changes. The first and the last address bound the network as unsigned
numbers, provided that the mask is contiguous.

- `networkRange_arithmetic`: all addresses and all masks
- `contiguous_iff_range`: a network is an interval only under a contiguous mask
-/

namespace Docker

/-- `net.IP.Mask`. -/
def IP.and (ip : IP) (mask : IPMask) : IP :=
  ⟨ip.b0 &&& mask.b0, ip.b1 &&& mask.b1, ip.b2 &&& mask.b2, ip.b3 &&& mask.b3⟩

/-- All ones of the mask come before its zeros. -/
def IPMask.Contiguous (mask : IPMask) : Prop := (ipToInt mask).Contiguous

theorem ipToInt_and (ip : IP) (mask : IPMask) :
    ipToInt (ip.and mask) = ipToInt ip &&& ipToInt mask :=
  networkRange_first ⟨ip, mask⟩

/-- The contiguous masks are those of `net.CIDRMask`. -/
theorem contiguous_iff_cidrMask {mask : IPMask} :
    mask.Contiguous ↔ ∃ ones ≤ 32, mask = cidrMask ones := by
  constructor
  · intro h
    obtain ⟨k, hk, hmask⟩ := h.eq_shiftLeft
    refine ⟨32 - k, Nat.sub_le 32 k, ?_⟩
    rw [cidrMask, Nat.sub_sub_self hk, ← hmask, intToIp_ipToInt]
  · rintro ⟨ones, -, rfl⟩
    rw [IPMask.Contiguous, cidrMask, ipToInt_intToIp]
    exact BitVec.contiguous_shiftLeft _

/-- An `int32` and its unsigned reading agree modulo `2 ^ 32`. -/
theorem toInt_emod (x : BitVec 32) : x.toInt % 2 ^ 32 = x.toNat := by
  have hlt := x.isLt
  rw [BitVec.toInt_eq_toNat_cond]
  split <;> omega

/-- The words that agree under the mask, as addresses. -/
theorem and_eq_and_iff (ip x : IP) (mask : IPMask) :
    (x.and mask = ip.and mask ↔ (networkRange ⟨ip, mask⟩).1.num ≤ x.num ∧
      x.num ≤ (networkRange ⟨ip, mask⟩).2.num) ↔
    (ipToInt x &&& ipToInt mask = ipToInt ip &&& ipToInt mask ↔
      (ipToInt ip &&& ipToInt mask).toNat ≤ (ipToInt x).toNat ∧
        (ipToInt x).toNat ≤ (ipToInt ip ||| ~~~ipToInt mask).toNat) := by
  have hinj : ipToInt (x.and mask) = ipToInt (ip.and mask) ↔ x.and mask = ip.and mask :=
    (Function.LeftInverse.injective intToIp_ipToInt).eq_iff
  rw [IP.num, IP.num, IP.num, networkRange_first, networkRange_last, ← hinj, ipToInt_and,
    ipToInt_and]

/-- A network is the interval between its first and its last address, for every address in it,
    exactly under a contiguous mask. -/
theorem contiguous_iff_range {mask : IPMask} :
    mask.Contiguous ↔ ∀ ip x : IP, x.and mask = ip.and mask ↔
      (networkRange ⟨ip, mask⟩).1.num ≤ x.num ∧ x.num ≤ (networkRange ⟨ip, mask⟩).2.num := by
  rw [IPMask.Contiguous, BitVec.contiguous_iff_interval]
  constructor
  · intro h ip x
    exact (and_eq_and_iff ip x mask).mpr (h _ _)
  · intro h x ip
    have hiff := (and_eq_and_iff (intToIp ip) (intToIp x) mask).mp (h _ _)
    rwa [ipToInt_intToIp, ipToInt_intToIp] at hiff

/-- The bits that the mask clears are what is added to the first address. -/
theorem last_sub_first (network : IPNet) :
    ((ipToInt (networkRange network).2).toInt - (ipToInt (networkRange network).1).toInt + 1)
      % 2 ^ 32 = (networkSize network.mask).toInt % 2 ^ 32 := by
  have hlast := toInt_emod (ipToInt (networkRange network).2)
  have hfirst := toInt_emod (ipToInt (networkRange network).1)
  have hsum : (ipToInt (networkRange network).2).toNat =
      (ipToInt (networkRange network).1).toNat + (~~~ipToInt network.mask).toNat := by
    rw [networkRange_first, networkRange_last]
    exact BitVec.or_not_toNat _ _
  have hone : (1 : BitVec 32).toNat = 1 := rfl
  rw [networkSize_eq, toInt_emod, BitVec.toNat_add, hone]
  omega

/-- The sum of an address and an `int32`, written as an address. -/
theorem intToIp_add_num (ip : IP) (i : BitVec 32) :
    ((intToIp (ipToInt ip + i)).num : Int) = (ip.num + i.toInt) % 2 ^ 32 := by
  have hi := toInt_emod i
  rw [IP.num, ipToInt_intToIp, BitVec.toNat_add, IP.num]
  omega

/-- For all addresses and all masks: the two conversions are inverse to each other; the distance
    of the last address from the first is one less than the size, and an `int32` added to the
    first address moves it by as much, both modulo `2 ^ 32`; and under a contiguous mask the
    addresses of the network are those from the first to the last one, as unsigned numbers. -/
theorem networkRange_arithmetic (ip : IP) (mask : IPMask) :
    (Function.LeftInverse intToIp ipToInt ∧ Function.RightInverse intToIp ipToInt ∧
      Function.Bijective ipToInt ∧ Function.Bijective intToIp) ∧
    ((ipToInt (networkRange ⟨ip, mask⟩).2).toInt - (ipToInt (networkRange ⟨ip, mask⟩).1).toInt
      + 1) % 2 ^ 32 = (networkSize mask).toInt % 2 ^ 32 ∧
    (∀ i : BitVec 32, ((intToIp (ipToInt (networkRange ⟨ip, mask⟩).1 + i)).num : Int) =
      ((networkRange ⟨ip, mask⟩).1.num + i.toInt) % 2 ^ 32) ∧
    (mask.Contiguous → ∀ x : IP, x.and mask = ip.and mask ↔
      (networkRange ⟨ip, mask⟩).1.num ≤ x.num ∧ x.num ≤ (networkRange ⟨ip, mask⟩).2.num) := by
  have hleft : Function.LeftInverse intToIp ipToInt := intToIp_ipToInt
  have hright : Function.RightInverse intToIp ipToInt := ipToInt_intToIp
  refine ⟨⟨hleft, hright, ?_, ?_⟩, last_sub_first ⟨ip, mask⟩, fun i => intToIp_add_num _ i, ?_⟩
  · exact ⟨hleft.injective, hright.surjective⟩
  · exact ⟨hright.injective, hleft.surjective⟩
  · intro h x
    exact contiguous_iff_range.mp h ip x

/-- An address of 192.168.0.1/24, whose addresses are negative as `int32`. -/
theorem networkRange_arithmetic_negative :
    (ipToInt ⟨192, 168, 0, 1⟩).toInt < 0 ∧
      (IP.mk 192 168 0 77).and (cidrMask 24) = (IP.mk 192 168 0 1).and (cidrMask 24) := by
  refine ⟨by decide, ?_⟩
  have hcontiguous := contiguous_iff_cidrMask.mpr ⟨24, by decide, rfl⟩
  have hrange := (networkRange_arithmetic ⟨192, 168, 0, 1⟩ (cidrMask 24)).2.2.2 hcontiguous
  exact (hrange ⟨192, 168, 0, 77⟩).mpr ⟨by decide, by decide⟩

end Docker

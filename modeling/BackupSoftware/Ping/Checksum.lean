import Mathlib.Algebra.Group.Action.Defs
import Mathlib.Algebra.Order.BigOperators.Group.List
import Mathlib.Algebra.Order.Group.Nat
import BackupSoftware.Library.OnesComplement

/-!
# The checksum of an echo request

`calcIcmpChkSum` adds the words of a packet in an `unsigned short`, so the carries that it
folds in afterwards are already lost. The last byte of a packet of odd length is read as a
`char`, which is signed on some of the targets. Words are in the order of the machine, the
low byte first.
-/

namespace BackupSoftware.Ping

def icmpEcho : UInt8 := 8

/-- `aucSendBuf`. -/
def sendBufSize : Nat := 1024 * 1024

/-- `*pusOffset`. -/
def word (b0 b1 : UInt8) : UInt16 := b0.toUInt16 + b1.toUInt16 * 256

/-- A `char` converted to `unsigned short`. -/
def charWord (signed : Bool) (b : UInt8) : UInt16 :=
  if signed && decide (128 ≤ b) then 0xFF00 + b.toUInt16 else b.toUInt16

/-- The loop over the words and the odd byte behind them. -/
def addWords (signed : Bool) : List UInt8 → UInt16 → UInt16
  | b0 :: b1 :: rest, usChkSum => addWords signed rest (usChkSum + word b0 b1)
  | [b], usChkSum => usChkSum + charWord signed b
  | [], usChkSum => usChkSum

def calcIcmpChkSum (signed : Bool) (packet : List UInt8) : UInt16 :=
  let usChkSum := addWords signed packet 0
  let usChkSum := UInt16.ofNat ((usChkSum.toNat >>> 16) + (usChkSum.toNat &&& 0xffff))
  let usChkSum := UInt16.ofNat (usChkSum.toNat + (usChkSum.toNat >>> 16))
  ~~~ usChkSum

/-- `htons((unsigned short)x)` as it lies in memory. -/
def htons (x : Int) : List UInt8 :=
  [UInt8.ofNat ((x % 65536).toNat / 256), UInt8.ofNat ((x % 65536).toNat % 256)]

/-- The cleared buffer with the header of an echo request written to it. -/
def icmpHeader (pid iPacketNum : Int) (cksum : UInt16) : List UInt8 :=
  [icmpEcho, 0, UInt8.ofNat (cksum.toNat % 256), UInt8.ofNat (cksum.toNat / 256)] ++
    htons pid ++ htons iPacketNum ++ List.replicate (sendBufSize - 8) 0

/-- The packet that is sent, from a process with the identifier `pid`. -/
def newIcmpEcho (signed : Bool) (pid iPacketNum : Int) (iDataLen : Nat) : List UInt8 :=
  let pstIcmp := icmpHeader pid iPacketNum 0
  let cksum := calcIcmpChkSum signed (pstIcmp.take (iDataLen + 8))
  (icmpHeader pid iPacketNum cksum).take (iDataLen + 8)

/-- The words of a packet, an odd last byte padded with zero. -/
def packetWords : List UInt8 → List Nat
  | b0 :: b1 :: rest => (b0.toNat + 256 * b1.toNat) :: packetWords rest
  | [b] => [b.toNat]
  | [] => []

def internetChecksum (packet : List UInt8) : Nat :=
  65535 - OnesComplement.sum 65535 (packetWords packet)

/-- The last byte of a packet of odd length is a negative `char`. -/
def lastNegative (signed : Bool) : List UInt8 → Bool
  | _ :: _ :: rest => lastNegative signed rest
  | [b] => signed && decide (128 ≤ b)
  | [] => false

/-- The sum of the words, the odd byte taken as the `char` that the code reads. -/
def charSum (signed : Bool) (packet : List UInt8) : Int :=
  (packetWords packet).sum - bif lastNegative signed packet then 256 else 0

/-- The lost carries are none modulo `0xFFFF`, and the sum is not a zero that stands for it. -/
def CarriesVanish (signed : Bool) (packet : List UInt8) : Prop :=
  (charSum signed packet / 65536 + bif lastNegative signed packet then 256 else 0) % 65535 = 0 ∧
    (charSum signed packet % 65536 = 0 → (packetWords packet).sum = 0)

theorem word_toNat (b0 b1 : UInt8) : (word b0 b1).toNat = b0.toNat + 256 * b1.toNat := by
  have h0 := b0.toNat_lt
  have h1 := b1.toNat_lt
  simp only [word, UInt16.toNat_add, UInt8.toNat_toUInt16, UInt16.toNat_mul, UInt16.reduceToNat,
    Nat.reducePow, Nat.add_mod_mod]
  omega

theorem charWord_toNat (signed : Bool) (b : UInt8) :
    ((charWord signed b).toNat : Int) =
      (b.toNat - bif signed && decide (128 ≤ b) then 256 else 0 : Int) % 65536 := by
  have hb := b.toNat_lt
  unfold charWord
  split
  · rename_i h
    have hle : 128 ≤ b.toNat := by
      have := (Bool.and_eq_true_iff.mp h).2
      simpa [UInt8.le_iff_toNat_le] using this
    rw [h, UInt16.toNat_add]
    simp only [UInt16.reduceToNat, UInt8.toNat_toUInt16, Nat.reducePow, Int.natCast_emod,
      Int.natCast_add, Nat.cast_ofNat, cond_true]
    omega
  · rename_i h
    rw [Bool.not_eq_true] at h
    rw [h]
    simp only [UInt8.toNat_toUInt16, cond_false, sub_zero]
    omega

theorem packetWords_le (packet : List UInt8) : ∀ w ∈ packetWords packet, w ≤ 65535 := by
  fun_induction packetWords packet with
  | case1 b0 b1 rest ih =>
    intro w hw
    have h0 := b0.toNat_lt
    have h1 := b1.toNat_lt
    rcases List.mem_cons.mp hw with rfl | hw
    · omega
    · exact ih w hw
  | case2 b =>
    intro w hw
    have hb := b.toNat_lt
    rw [List.mem_singleton] at hw
    omega
  | case3 => simp

/-- What the loop has added up, modulo the width of its accumulator. -/
theorem addWords_toNat (signed : Bool) (packet : List UInt8) (s : UInt16) :
    ((addWords signed packet s).toNat : Int) = (s.toNat + charSum signed packet) % 65536 := by
  fun_induction addWords signed packet s with
  | case1 b0 b1 rest s ih =>
    rw [ih, UInt16.toNat_add, word_toNat]
    simp only [charSum, packetWords, lastNegative, List.sum_cons]
    push_cast
    generalize (bif lastNegative signed rest then 256 else 0 : Int) = neg
    omega
  | case2 b s =>
    have hc := charWord_toNat signed b
    rw [UInt16.toNat_add]
    simp only [charSum, packetWords, lastNegative, List.sum_cons, List.sum_nil]
    push_cast
    generalize (bif signed && decide (128 ≤ b) then 256 else 0 : Int) = neg at hc ⊢
    omega
  | case3 s =>
    have hs := s.toNat_lt
    simp only [charSum, packetWords, List.sum_nil, Int.cast_ofNat_Int, lastNegative, cond_false,
      sub_self, add_zero]
    omega

theorem calcIcmpChkSum_toNat (signed : Bool) (packet : List UInt8) :
    ((calcIcmpChkSum signed packet).toNat : Int) = 65535 - charSum signed packet % 65536 := by
  have hsum := addWords_toNat signed packet 0
  have hlt := (addWords signed packet 0).toNat_lt
  have hfold : (addWords signed packet 0).toNat >>> 16 = 0 := by
    rw [Nat.shiftRight_eq_div_pow]
    omega
  have hmask : (addWords signed packet 0).toNat &&& 0xffff = (addWords signed packet 0).toNat := by
    rw [show 0xffff = 2 ^ 16 - 1 from rfl, Nat.and_two_pow_sub_one_eq_mod]
    omega
  unfold calcIcmpChkSum
  simp only [hfold, hmask, Nat.zero_add, UInt16.ofNat_toNat, Nat.add_zero, UInt16.toNat_not]
  simp only [UInt16.toNat_zero, Int.natCast_zero, Int.zero_add] at hsum
  have hsize : UInt16.size = 65536 := rfl
  omega

theorem sum_of_lastNegative (signed : Bool) (packet : List UInt8)
    (h : lastNegative signed packet = true) : 128 ≤ (packetWords packet).sum := by
  fun_induction packetWords packet with
  | case1 b0 b1 rest ih =>
    have := ih h
    rw [List.sum_cons]
    omega
  | case2 b =>
    have hb := (Bool.and_eq_true_iff.mp h).2
    simpa [UInt8.le_iff_toNat_le] using hb
  | case3 => cases h

theorem calcIcmpChkSum_eq_iff (signed : Bool) (packet : List UInt8) :
    (calcIcmpChkSum signed packet).toNat = internetChecksum packet ↔
      CarriesVanish signed packet := by
  have hcalc := calcIcmpChkSum_toNat signed packet
  have hle := OnesComplement.sum_le (packetWords_le packet)
  have hsum := OnesComplement.eq_sum_iff (packetWords_le packet)
    (x := (charSum signed packet % 65536).toNat) (by omega)
  have hneg := sum_of_lastNegative signed packet
  have hstart : (calcIcmpChkSum signed packet).toNat = internetChecksum packet ↔
      (charSum signed packet % 65536).toNat =
        OnesComplement.sum 65535 (packetWords packet) := by
    unfold internetChecksum
    omega
  rw [hstart, hsum]
  unfold CarriesVanish Nat.ModEq charSum
  generalize (packetWords packet).sum = total at hneg
  cases hl : lastNegative signed packet with
  | true =>
    have := hneg hl
    simp only [cond_true]
    omega
  | false =>
    simp only [cond_false]
    omega

theorem length_packetWords (packet : List UInt8) :
    (packetWords packet).length = (packet.length + 1) / 2 := by
  fun_induction packetWords packet with
  | case1 b0 b1 rest ih =>
    simp only [List.length_cons, ih]
    omega
  | case2 b => simp
  | case3 => rfl

/-- In a packet that the Internet protocol can carry, no carry may occur at all. -/
theorem carriesVanish_iff_of_length_le {packet : List UInt8} (h : packet.length ≤ 65535)
    (signed : Bool) :
    CarriesVanish signed packet ↔
      (packetWords packet).sum ≤ 0xFFFF ∧ lastNegative signed packet = false := by
  have hsum := List.sum_le_card_nsmul _ _ (packetWords_le packet)
  have hneg := sum_of_lastNegative signed packet
  rw [length_packetWords, smul_eq_mul] at hsum
  unfold CarriesVanish charSum
  generalize (packetWords packet).sum = total at hneg hsum
  cases hl : lastNegative signed packet with
  | true =>
    have := hneg hl
    simp only [cond_true, Bool.true_eq_false, and_false, iff_false]
    omega
  | false =>
    simp only [cond_false, and_true]
    omega

theorem packetWords_zeros (k : Nat) : (packetWords (List.replicate k 0)).sum = 0 := by
  induction k using Nat.twoStepInduction with
  | zero => rfl
  | one => rfl
  | more k ih _ => simpa [List.replicate_succ, packetWords] using ih

theorem lastNegative_zeros (signed : Bool) (k : Nat) :
    lastNegative signed (List.replicate k 0) = false := by
  induction k using Nat.twoStepInduction with
  | zero => rfl
  | one => simp [lastNegative]
  | more k ih _ => simpa [List.replicate_succ, lastNegative] using ih

/-- The word in which a number lies as `htons` writes it. -/
def swapped (x : Int) : Nat := (x % 65536).toNat / 256 + 256 * ((x % 65536).toNat % 256)

theorem take_icmpHeader (pid iPacketNum : Int) (cksum : UInt16) (iDataLen : Nat) :
    ∃ k, (icmpHeader pid iPacketNum cksum).take (iDataLen + 8) =
      [icmpEcho, 0, UInt8.ofNat (cksum.toNat % 256), UInt8.ofNat (cksum.toNat / 256)] ++
        htons pid ++ htons iPacketNum ++ List.replicate k 0 := by
  refine ⟨min iDataLen (sendBufSize - 8), ?_⟩
  simp [icmpHeader, htons, List.take_replicate]

theorem sum_icmpHeader (pid iPacketNum : Int) (cksum : UInt16) (iDataLen : Nat) :
    (packetWords ((icmpHeader pid iPacketNum cksum).take (iDataLen + 8))).sum =
      8 + cksum.toNat + swapped pid + swapped iPacketNum := by
  obtain ⟨k, hk⟩ := take_icmpHeader pid iPacketNum cksum iDataLen
  have hc := cksum.toNat_lt
  rw [hk]
  simp only [icmpEcho, htons, List.cons_append, List.nil_append, packetWords, UInt8.reduceToNat,
    UInt8.toNat_zero, mul_zero, add_zero, UInt8.toNat_ofNat', Nat.reducePow, dvd_refl,
    Nat.mod_mod_of_dvd, List.sum_cons, packetWords_zeros, swapped]
  omega

theorem lastNegative_icmpHeader (signed : Bool) (pid iPacketNum : Int) (cksum : UInt16)
    (iDataLen : Nat) :
    lastNegative signed ((icmpHeader pid iPacketNum cksum).take (iDataLen + 8)) = false := by
  obtain ⟨k, hk⟩ := take_icmpHeader pid iPacketNum cksum iDataLen
  rw [hk]
  simp [htons, lastNegative, lastNegative_zeros]

theorem swapped_le (x : Int) : swapped x ≤ 65535 := by
  unfold swapped
  omega

theorem newIcmpEcho_sum_iff (signed : Bool) (pid iPacketNum : Int) (iDataLen : Nat) :
    OnesComplement.sum 65535 (packetWords (newIcmpEcho signed pid iPacketNum iDataLen)) = 0xFFFF ↔
      8 + swapped pid + swapped iPacketNum ≤ 0xFFFF := by
  have hcalc := calcIcmpChkSum_toNat signed ((icmpHeader pid iPacketNum 0).take (iDataLen + 8))
  have htotal := sum_icmpHeader pid iPacketNum 0 iDataLen
  have hsum := OnesComplement.eq_sum_iff
    (packetWords_le (newIcmpEcho signed pid iPacketNum iDataLen)) (x := 65535) (by omega)
  have hpid := swapped_le pid
  have hnum := swapped_le iPacketNum
  rw [charSum, lastNegative_icmpHeader, htotal] at hcalc
  rw [eq_comm, hsum]
  simp only [newIcmpEcho, sum_icmpHeader, Nat.ModEq]
  simp only [UInt16.toNat_zero, cond_false] at hcalc
  push_cast at hcalc
  omega

/-- When the checksum is the one of the packet, and when a request carries a right one. -/
theorem internet_checksum_iff_carries_vanish (signed : Bool) :
    (∀ packet, (calcIcmpChkSum signed packet).toNat = internetChecksum packet ↔
      CarriesVanish signed packet) ∧
    (∀ pid iPacketNum iDataLen,
      OnesComplement.sum 65535 (packetWords (newIcmpEcho signed pid iPacketNum iDataLen)) = 0xFFFF ↔
        8 + swapped pid + swapped iPacketNum ≤ 0xFFFF) :=
  ⟨calcIcmpChkSum_eq_iff signed, newIcmpEcho_sum_iff signed⟩

/-- Two words whose sum carries, and the first request of the process `0xFFFF`. -/
theorem checksum_loses_carry :
    (calcIcmpChkSum true [0xFF, 0xFF, 0x01, 0x00]).toNat ≠
        internetChecksum [0xFF, 0xFF, 0x01, 0x00] ∧
      OnesComplement.sum 65535 (packetWords (newIcmpEcho true 0xFFFF 0 16)) ≠ 0xFFFF := by
  refine ⟨by decide, ?_⟩
  rw [Ne, newIcmpEcho_sum_iff]
  decide

end BackupSoftware.Ping

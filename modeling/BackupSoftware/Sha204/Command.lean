import Mathlib.Data.Nat.Bitwise
import Mathlib.Tactic.IntervalCases
import BackupSoftware.Library.Crc

/-!
# The checksum of a command

`sha204_calculate_crc` of `sha204_test/sha204_command.c`: a register of 16 bits and the
polynomial 0x8005, whose constant term makes every burst of at most 16 bits visible.
-/

namespace BackupSoftware.Sha204

open BackupSoftware.Library

def polynom : UInt16 := 0x8005

/-- The values of `shift_register`, which is 0 after a further shift. -/
def shiftRegisters : List UInt8 := [0x01, 0x02, 0x04, 0x08, 0x10, 0x20, 0x40, 0x80]

/-- The body of the inner loop. -/
def crcStep (data : UInt8) (crcRegister : UInt16) (shiftRegister : UInt8) : UInt16 :=
  let dataBit : UInt8 := if data &&& shiftRegister ≠ 0 then 1 else 0
  let crcBit : UInt8 := (crcRegister >>> 15).toUInt8
  let crcRegister := crcRegister <<< 1
  if dataBit ^^^ crcBit ≠ 0 then crcRegister ^^^ polynom else crcRegister

def crcLoop (data : Nat → UInt8) (length : Nat) : UInt16 :=
  (List.range length).foldl (fun r counter => shiftRegisters.foldl (crcStep (data counter)) r) 0

/-- The two bytes that are written to `crc`. -/
def sha204CalculateCrc (length : UInt8) (data : Nat → UInt8) : UInt8 × UInt8 :=
  let crcRegister := crcLoop data length.toNat
  ((crcRegister &&& 0x00FF).toUInt8, (crcRegister >>> 8).toUInt8)

/-- Bit `i` of the stream, the least significant bit of each byte first. -/
def bit (m : List UInt8) (i : Nat) : Bool := (m.getD (i / 8) 0).toNat.testBit (i % 8)

def byteBits (d : UInt8) : List Bool := shiftRegisters.map fun s => decide (d &&& s ≠ 0)

def bits (m : List UInt8) : List Bool := m.flatMap byteBits

theorem bits_cons (d : UInt8) (m : List UInt8) : bits (d :: m) = byteBits d ++ bits m := rfl

theorem crcBit_eq (r : UInt16) : (r >>> 15).toUInt8 = if r.toBitVec.msb then 1 else 0 := by
  have hlt := r.toNat_lt
  have hmsb : r.toBitVec.msb = decide (2 ^ 15 ≤ r.toNat) := BitVec.msb_eq_decide r.toBitVec
  apply UInt8.toNat_inj.mp
  rw [UInt16.toNat_toUInt8, UInt16.toNat_shiftRight, show (15 : UInt16).toNat % 16 = 15 from rfl,
    Nat.shiftRight_eq_div_pow, hmsb]
  by_cases hr : 2 ^ 15 ≤ r.toNat
  · rw [decide_eq_true hr, if_pos rfl, UInt8.toNat_one]
    omega
  · rw [decide_eq_false hr, if_neg Bool.false_ne_true, UInt8.toNat_zero]
    omega

/-- The body of the loop is one step of the check. -/
theorem crcStep_toBitVec (data : UInt8) (r : UInt16) (s : UInt8) :
    (crcStep data r s).toBitVec =
      Crc.step polynom.toBitVec r.toBitVec (decide (data &&& s ≠ 0)) := by
  simp only [crcStep, Crc.step, crcBit_eq]
  by_cases hdata : data &&& s ≠ 0
  · rw [decide_eq_true hdata, if_pos hdata]
    cases r.toBitVec.msb <;> rfl
  · rw [decide_eq_false hdata, if_neg hdata]
    cases r.toBitVec.msb <;> rfl

theorem crcByte_toBitVec (data : UInt8) (r : UInt16) :
    (shiftRegisters.foldl (crcStep data) r).toBitVec =
      Crc.run polynom.toBitVec r.toBitVec (byteBits data) := by
  unfold byteBits
  induction shiftRegisters generalizing r with
  | nil => rfl
  | cons s shifts ih =>
    rw [List.foldl_cons, ih, crcStep_toBitVec]
    rfl

theorem range_map_getD (m : List UInt8) : (List.range m.length).map (m.getD · 0) = m := by
  apply List.ext_getElem (by simp)
  intro i hi hi'
  rw [List.getElem_map, List.getElem_range, List.getD_eq_getElem _ _ hi']

/-- The register after a message is that of its stream of bits. -/
theorem crcLoop_toBitVec (m : List UInt8) :
    (crcLoop (m.getD · 0) m.length).toBitVec = Crc.run polynom.toBitVec 0 (bits m) := by
  have hfold : crcLoop (m.getD · 0) m.length =
      m.foldl (fun r d => shiftRegisters.foldl (crcStep d) r) 0 := by
    conv_rhs => rw [← range_map_getD m, List.foldl_map]
    rfl
  have hbytes (r : UInt16) : (m.foldl (fun r d => shiftRegisters.foldl (crcStep d) r) r).toBitVec =
      Crc.run polynom.toBitVec r.toBitVec (bits m) := by
    clear hfold
    induction m generalizing r with
    | nil => rfl
    | cons d m ih =>
      rw [List.foldl_cons, ih, crcByte_toBitVec, bits_cons, Crc.run_append]
  rw [hfold, hbytes]
  rfl

theorem and_ne_zero_iff {d s : UInt8} {k : Nat} (hs : s.toNat = 2 ^ k) :
    decide (d &&& s ≠ 0) = d.toNat.testBit k := by
  have hand : (d &&& s).toNat = (d.toNat.testBit k).toNat * 2 ^ k := by
    rw [UInt8.toNat_and, hs, Nat.and_two_pow]
  have hpos : 0 < 2 ^ k := Nat.two_pow_pos k
  rw [Bool.eq_iff_iff, decide_eq_true_iff, ne_eq, ← UInt8.toNat_inj, hand, UInt8.toNat_zero]
  cases d.toNat.testBit k with
  | false => simp
  | true => simp

theorem length_byteBits (d : UInt8) : (byteBits d).length = 8 := rfl

theorem getD_byteBits (d : UInt8) {i : Nat} (hi : i < 8) :
    (byteBits d).getD i false = d.toNat.testBit i := by
  interval_cases i <;> exact and_ne_zero_iff rfl

theorem getD_bits (m : List UInt8) (i : Nat) : (bits m).getD i false = bit m i := by
  induction m generalizing i with
  | nil => simp [bits, bit]
  | cons d m ih =>
    rw [bits_cons]
    by_cases hi : i < 8
    · rw [List.getD_append _ _ _ _ hi, getD_byteBits d hi, bit, Nat.div_eq_of_lt hi,
        Nat.mod_eq_of_lt hi]
      rfl
    · rw [List.getD_append_right _ _ _ _ (Nat.not_lt.mp hi), length_byteBits]
      obtain ⟨j, rfl⟩ : ∃ j, i = j + 8 := ⟨i - 8, by omega⟩
      rw [Nat.add_sub_cancel, ih, bit, bit, Nat.add_mod_right,
        Nat.add_div_right _ (by decide)]
      rfl

theorem length_bits (m : List UInt8) : (bits m).length = 8 * m.length := by
  induction m with
  | nil => rfl
  | cons d m ih =>
    rw [bits_cons, List.length_append, ih, length_byteBits, List.length_cons]
    omega

/-- The stream determines the bytes. -/
theorem eq_of_bits {m m' : List UInt8} (hlen : m.length = m'.length) (h : bits m = bits m') :
    m = m' := by
  apply List.ext_getElem hlen
  intro j hj hj'
  apply UInt8.toNat_inj.mp
  apply Nat.eq_of_testBit_eq
  intro k
  by_cases hk : k < 8
  · have hbit : bit m (8 * j + k) = bit m' (8 * j + k) := by
      rw [← getD_bits, ← getD_bits, h]
    rw [bit, bit, show (8 * j + k) / 8 = j by omega, show (8 * j + k) % 8 = k by omega,
      List.getD_eq_getElem _ _ hj, List.getD_eq_getElem _ _ hj'] at hbit
    exact hbit
  · have hpow : 2 ^ 8 ≤ 2 ^ k := Nat.pow_le_pow_right (by decide) (Nat.not_lt.mp hk)
    rw [Nat.testBit_lt_two_pow (Nat.lt_of_lt_of_le (UInt8.toNat_lt _) hpow),
      Nat.testBit_lt_two_pow (Nat.lt_of_lt_of_le (UInt8.toNat_lt _) hpow)]

/-- The two bytes determine the register. -/
theorem register_eq_of_bytes {r r' : UInt16} (hlow : (r &&& 0x00FF).toUInt8 = (r' &&& 0x00FF).toUInt8)
    (hhigh : (r >>> 8).toUInt8 = (r' >>> 8).toUInt8) : r = r' := by
  have hmod (r : UInt16) : (r &&& 0x00FF).toUInt8.toNat = r.toNat % 256 := by
    rw [UInt16.toNat_toUInt8, UInt16.toNat_and,
      show r.toNat &&& (0x00FF : UInt16).toNat = r.toNat % 2 ^ 8 from Nat.and_two_pow_sub_one_eq_mod _ 8]
    omega
  have hdiv (r : UInt16) : (r >>> 8).toUInt8.toNat = r.toNat / 256 := by
    have hlt := r.toNat_lt
    rw [UInt16.toNat_toUInt8, UInt16.toNat_shiftRight, show (8 : UInt16).toNat % 16 = 8 from rfl,
      Nat.shiftRight_eq_div_pow]
    omega
  have hlow' := congrArg UInt8.toNat hlow
  have hhigh' := congrArg UInt8.toNat hhigh
  rw [hmod, hmod] at hlow'
  rw [hdiv, hdiv] at hhigh'
  apply UInt16.toNat_inj.mp
  omega

/-- The checksum of a string of at most 255 bytes. -/
def checksum (m : List UInt8) : UInt8 × UInt8 :=
  sha204CalculateCrc (UInt8.ofNat m.length) (m.getD · 0)

/-- Two strings of one length that differ, but only within 16 consecutive bits, have different
checksums. -/
theorem crc_detects_bursts (m m' : List UInt8) (hlen : m.length = m'.length)
    (hle : m.length ≤ 255) (hne : m ≠ m') (k : Nat)
    (hburst : ∀ i, bit m i ≠ bit m' i → k ≤ i ∧ i < k + 16) : checksum m ≠ checksum m' := by
  intro h
  have hlength : (UInt8.ofNat m.length).toNat = m.length :=
    UInt8.toNat_ofNat_of_lt' (Nat.lt_succ_of_le hle)
  have hlength' : (UInt8.ofNat m'.length).toNat = m'.length := by
    rw [← hlen, hlength]
  simp only [checksum, sha204CalculateCrc, hlength, hlength', Prod.mk.injEq] at h
  have hregister := congrArg UInt16.toBitVec (register_eq_of_bytes h.1 h.2)
  rw [crcLoop_toBitVec, crcLoop_toBitVec] at hregister
  refine Crc.run_ne_of_burst (k := k) (by decide) 0 ?_ (fun hbits => hne (eq_of_bits hlen hbits)) ?_
    hregister
  · rw [length_bits, length_bits, hlen]
  · intro i hi
    rw [getD_bits, getD_bits] at hi
    exact hburst i hi

/-- The two bytes 11 22 and 12 23 differ in the bits 0, 1 and 8. -/
theorem crc_detects_bursts_two_bytes : checksum [0x11, 0x22] ≠ checksum [0x12, 0x23] := by
  refine crc_detects_bursts [0x11, 0x22] [0x12, 0x23] rfl (by decide) (by decide) 0 ?_
  intro i hi
  refine ⟨Nat.zero_le i, ?_⟩
  by_contra hge
  refine hi ?_
  rw [bit, bit, List.getD_eq_default _ _ (by simp; omega), List.getD_eq_default _ _ (by simp; omega)]

end BackupSoftware.Sha204

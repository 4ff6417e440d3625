import Mathlib.Data.List.GetD
import Mathlib.Data.List.Iterate
import Mathlib.Tactic.Common

/-!
# The field of 256 elements

Bytes as polynomials over the field of two elements, modulo x^8 + x^4 + x^3 + x + 1: bit
`i` is the coefficient of x^i, addition is xor, and a product is made of
multiplications by x. Every element but zero is a power of x + 1, and the laws of
multiplication are those of adding the exponents.
-/

namespace BackupSoftware.Library.ByteField

/-- Multiplication by x, on the number of a byte. -/
def timesX (n : Nat) : Nat := if n < 128 then 2 * n else (2 * n) ^^^ 0x11B

/-- The sum of the multiples of `x` by the powers of x that the lowest bits of `c` name. -/
def mulNat : Nat → Nat → Nat → Nat
  | 0, _, _ => 0
  | bits + 1, c, x => (if c % 2 = 1 then x else 0) ^^^ mulNat bits (c / 2) (timesX x)

def xtime (x : UInt8) : UInt8 := UInt8.ofNat (timesX x.toNat)

def mul (c x : UInt8) : UInt8 := UInt8.ofNat (mulNat 8 c.toNat x.toNat)

/-- The power of 254: the multiplicative inverse of `x`, and zero if `x` is zero. -/
def inv (x : UInt8) : UInt8 :=
  let x2 := mul x x
  let x3 := mul x2 x
  let x12 := mul (mul x3 x3) (mul x3 x3)
  let x15 := mul x12 x3
  let x14 := mul x12 x2
  let x30 := mul x15 x15
  let x60 := mul x30 x30
  let x120 := mul x60 x60
  mul (mul x120 x120) x14

theorem toNat_xtime (x : UInt8) : (xtime x).toNat = timesX x.toNat := by
  have h : ∀ b : BitVec 8, (xtime ⟨b⟩).toNat = timesX b.toNat := by decide
  exact h x.toBitVec

theorem xtime_eq (x : UInt8) : xtime x = (x <<< 1) ^^^ (if x &&& 0x80 ≠ 0 then 0x1B else 0) := by
  have h : ∀ b : BitVec 8, xtime ⟨b⟩ =
      ((⟨b⟩ : UInt8) <<< 1) ^^^ (if (⟨b⟩ : UInt8) &&& 0x80 ≠ 0 then 0x1B else 0) := by
    decide
  exact h x.toBitVec

theorem and_top (x : UInt8) : x &&& 0x80 = 0 ∨ x &&& 0x80 = 0x80 := by
  have h : ∀ b : BitVec 8, (⟨b⟩ : UInt8) &&& 0x80 = 0 ∨ (⟨b⟩ : UInt8) &&& 0x80 = 0x80 := by
    decide
  exact h x.toBitVec

theorem xor_and (x y m : UInt8) : (x ^^^ y) &&& m = (x &&& m) ^^^ (y &&& m) := by
  rw [← UInt8.toBitVec_inj]
  ext i hi
  simp [Bool.and_xor_distrib_right]

/-- What is reduced at the top adds up as well. -/
theorem xtime_xor (x y : UInt8) : xtime (x ^^^ y) = xtime x ^^^ xtime y := by
  rw [xtime_eq, xtime_eq, xtime_eq, xor_and, UInt8.shiftLeft_xor]
  rcases and_top x with hx | hx <;> rcases and_top y with hy | hy <;> rw [hx, hy]
  · simp
  · simp [UInt8.xor_assoc]
  · simp only [UInt8.xor_zero]
    rw [if_pos (by decide), if_neg (by decide), UInt8.xor_zero]
    ac_rfl
  · rw [UInt8.xor_self, if_neg (by decide), if_pos (by decide), UInt8.xor_zero]
    rw [UInt8.xor_assoc, UInt8.xor_comm 0x1B, UInt8.xor_assoc, UInt8.xor_self, UInt8.xor_zero]

theorem mulNat_xor (bits c : Nat) (x y : UInt8) : mulNat bits c (x ^^^ y).toNat =
    mulNat bits c x.toNat ^^^ mulNat bits c y.toNat := by
  induction bits generalizing c x y with
  | zero => exact (Nat.xor_self 0).symm
  | succ bits ih =>
    rw [mulNat, mulNat, mulNat, ← toNat_xtime, ← toNat_xtime, ← toNat_xtime, xtime_xor, ih,
      UInt8.toNat_xor]
    split
    · ac_rfl
    · simp only [Nat.zero_xor]

theorem mul_xor (c x y : UInt8) : mul c (x ^^^ y) = mul c x ^^^ mul c y := by
  rw [mul, mulNat_xor, UInt8.ofNat_xor]
  rfl

theorem mul_zero (c : UInt8) : mul c 0 = 0 := by
  have h := mul_xor c 0 0
  rwa [UInt8.xor_self, UInt8.xor_self] at h

theorem mul_one_right (c : UInt8) : mul c 1 = c := by
  have h : ∀ b : BitVec 8, mul ⟨b⟩ 1 = ⟨b⟩ := by decide
  exact h c.toBitVec

theorem mulNat_xtime (bits c : Nat) (x : UInt8) :
    UInt8.ofNat (mulNat bits c (xtime x).toNat) = xtime (UInt8.ofNat (mulNat bits c x.toNat)) := by
  induction bits generalizing c x with
  | zero => rfl
  | succ bits ih =>
    rw [mulNat, mulNat, ← toNat_xtime, ← toNat_xtime, UInt8.ofNat_xor, UInt8.ofNat_xor, ih,
      xtime_xor]
    split
    · rw [UInt8.ofNat_toNat, UInt8.ofNat_toNat]
    · rfl

theorem mul_xtime (c x : UInt8) : mul c (xtime x) = xtime (mul c x) := by
  rw [mul, mulNat_xtime, mul]

/-- Multiplication by x + 1. -/
def triple (x : UInt8) : UInt8 := x ^^^ xtime x

def power (i : Nat) : UInt8 := triple^[i] 1

theorem mul_triple (c x : UInt8) : mul c (triple x) = triple (mul c x) := by
  rw [triple, mul_xor, mul_xtime, triple]

theorem mul_power (c : UInt8) (i : Nat) : mul c (power i) = triple^[i] c := by
  have h : Function.Semiconj (mul c) triple triple := mul_triple c
  rw [power, (h.iterate_right i).eq, mul_one_right]

theorem power_mul_power (i j : Nat) : mul (power i) (power j) = power (j + i) := by
  rw [mul_power, power, power, Function.iterate_add_apply]

set_option maxRecDepth 2000 in
theorem power_255 : power 255 = 1 := by decide

theorem power_add_mul (i k : Nat) : power (i + 255 * k) = power i := by
  have hfixed : triple^[255] 1 = 1 := power_255
  rw [power, Function.iterate_add_apply, Function.iterate_mul, Function.iterate_fixed hfixed, power]

theorem power_mod (i : Nat) : power (i % 255) = power i := by
  rw [← power_add_mul (i % 255) (i / 255), Nat.mod_add_div]

/-- The set of the numbers of some bytes, as a number with these bits. -/
def bitSet (xs : List UInt8) : Nat := xs.foldr (fun x n => n ||| 1 <<< x.toNat) 0

theorem mem_of_testBit_bitSet {xs : List UInt8} {x : UInt8} (h : (bitSet xs).testBit x.toNat) :
    x ∈ xs := by
  induction xs with
  | nil => simp [bitSet] at h
  | cons y ys ih =>
    have hor : (bitSet ys).testBit x.toNat ∨ (1 <<< y.toNat).testBit x.toNat := by
      simpa only [bitSet, List.foldr_cons, Nat.testBit_or, Bool.or_eq_true] using h
    rcases hor with h | h
    · exact List.mem_cons_of_mem y (ih h)
    · rw [Nat.one_shiftLeft, Nat.testBit_two_pow, decide_eq_true_iff] at h
      exact List.mem_cons.mpr (Or.inl (UInt8.toNat_inj.mp h.symm))

set_option maxRecDepth 8000 in
/-- Every element but zero is a power of the generator. -/
theorem exists_power {x : UInt8} (hx : x ≠ 0) : ∃ i < 255, power i = x := by
  have hbits : bitSet (List.iterate triple 1 255) = 2 ^ 256 - (1 + 1) := by decide
  have hbit : (2 ^ 256 - (1 + 1)).testBit x.toNat := by
    have hzero : x.toNat ≠ 0 := fun h => hx (UInt8.toNat_inj.mp h)
    rw [Nat.testBit_two_pow_sub_succ (by decide), decide_eq_true x.toNat_lt,
      Bool.eq_false_iff.mpr fun h => hzero (Nat.testBit_one_eq_true_iff_self_eq_zero.mp h)]
    rfl
  rw [← hbits] at hbit
  obtain ⟨i, hi, rfl⟩ := List.mem_iterate.mp (mem_of_testBit_bitSet hbit)
  exact ⟨i, hi, rfl⟩

theorem zero_mul (x : UInt8) : mul 0 x = 0 := by
  by_cases hx : x = 0
  · rw [hx, mul_zero]
  · obtain ⟨i, -, rfl⟩ := exists_power hx
    rw [mul_power, Function.iterate_fixed (by decide)]

theorem mul_comm (x y : UInt8) : mul x y = mul y x := by
  by_cases hx : x = 0
  · rw [hx, mul_zero, zero_mul]
  by_cases hy : y = 0
  · rw [hy, mul_zero, zero_mul]
  obtain ⟨i, -, rfl⟩ := exists_power hx
  obtain ⟨j, -, rfl⟩ := exists_power hy
  rw [power_mul_power, power_mul_power, Nat.add_comm]

theorem mul_one_left (x : UInt8) : mul 1 x = x := by
  rw [mul_comm, mul_one_right]

theorem xtime_mul (x y : UInt8) : mul (xtime x) y = xtime (mul x y) := by
  rw [mul_comm, mul_xtime, mul_comm]

theorem xor_mul (x y z : UInt8) : mul (x ^^^ y) z = mul x z ^^^ mul y z := by
  rw [mul_comm, mul_xor, mul_comm z, mul_comm z]

theorem mul_assoc (x y z : UInt8) : mul (mul x y) z = mul x (mul y z) := by
  by_cases hx : x = 0
  · rw [hx, zero_mul, zero_mul, zero_mul]
  by_cases hy : y = 0
  · rw [hy, mul_zero, zero_mul, mul_zero]
  by_cases hz : z = 0
  · rw [hz, mul_zero, mul_zero, mul_zero]
  obtain ⟨i, -, rfl⟩ := exists_power hx
  obtain ⟨j, -, rfl⟩ := exists_power hy
  obtain ⟨k, -, rfl⟩ := exists_power hz
  simp only [power_mul_power, Nat.add_assoc]

theorem inv_zero : inv 0 = 0 := by
  simp only [inv, mul_zero]

theorem inv_power (i : Nat) : inv (power i) = power (254 * i) := by
  simp only [inv, power_mul_power]
  congr 1
  omega

/-- Every element but zero has an inverse. -/
theorem mul_inv {x : UInt8} (hx : x ≠ 0) : mul x (inv x) = 1 := by
  obtain ⟨i, -, rfl⟩ := exists_power hx
  rw [inv_power, power_mul_power, ← Nat.succ_mul, ← Nat.zero_add (_ * i), power_add_mul]
  rfl

theorem eq_inv_of_mul_eq_one {x y : UInt8} (h : mul x y = 1) : y = inv x := by
  have hx : x ≠ 0 := by
    rintro rfl
    rw [zero_mul] at h
    exact absurd h (by decide)
  have hy : y ≠ 0 := by
    rintro rfl
    rw [mul_zero] at h
    exact absurd h (by decide)
  obtain ⟨i, -, rfl⟩ := exists_power hx
  obtain ⟨j, -, rfl⟩ := exists_power hy
  rw [power_mul_power] at h
  calc power j = power (j + i + 254 * i) := by
        rw [← power_add_mul j i]
        congr 1
        omega
    _ = mul (power (254 * i)) (power (j + i)) := (power_mul_power _ _).symm
    _ = inv (power i) := by rw [h, mul_one_right, inv_power]

theorem inv_inv (x : UInt8) : inv (inv x) = x := by
  by_cases hx : x = 0
  · rw [hx, inv_zero, inv_zero]
  · have hmul : mul (inv x) x = 1 := by rw [mul_comm, mul_inv hx]
    exact (eq_inv_of_mul_eq_one hmul).symm

/-- The inverses of all elements. -/
def inverses : List UInt8 :=
  [0x00, 0x01, 0x8D, 0xF6, 0xCB, 0x52, 0x7B, 0xD1, 0xE8, 0x4F, 0x29, 0xC0, 0xB0, 0xE1, 0xE5, 0xC7,
    0x74, 0xB4, 0xAA, 0x4B, 0x99, 0x2B, 0x60, 0x5F, 0x58, 0x3F, 0xFD, 0xCC, 0xFF, 0x40, 0xEE, 0xB2,
    0x3A, 0x6E, 0x5A, 0xF1, 0x55, 0x4D, 0xA8, 0xC9, 0xC1, 0x0A, 0x98, 0x15, 0x30, 0x44, 0xA2, 0xC2,
    0x2C, 0x45, 0x92, 0x6C, 0xF3, 0x39, 0x66, 0x42, 0xF2, 0x35, 0x20, 0x6F, 0x77, 0xBB, 0x59, 0x19,
    0x1D, 0xFE, 0x37, 0x67, 0x2D, 0x31, 0xF5, 0x69, 0xA7, 0x64, 0xAB, 0x13, 0x54, 0x25, 0xE9, 0x09,
    0xED, 0x5C, 0x05, 0xCA, 0x4C, 0x24, 0x87, 0xBF, 0x18, 0x3E, 0x22, 0xF0, 0x51, 0xEC, 0x61, 0x17,
    0x16, 0x5E, 0xAF, 0xD3, 0x49, 0xA6, 0x36, 0x43, 0xF4, 0x47, 0x91, 0xDF, 0x33, 0x93, 0x21, 0x3B,
    0x79, 0xB7, 0x97, 0x85, 0x10, 0xB5, 0xBA, 0x3C, 0xB6, 0x70, 0xD0, 0x06, 0xA1, 0xFA, 0x81, 0x82,
    0x83, 0x7E, 0x7F, 0x80, 0x96, 0x73, 0xBE, 0x56, 0x9B, 0x9E, 0x95, 0xD9, 0xF7, 0x02, 0xB9, 0xA4,
    0xDE, 0x6A, 0x32, 0x6D, 0xD8, 0x8A, 0x84, 0x72, 0x2A, 0x14, 0x9F, 0x88, 0xF9, 0xDC, 0x89, 0x9A,
    0xFB, 0x7C, 0x2E, 0xC3, 0x8F, 0xB8, 0x65, 0x48, 0x26, 0xC8, 0x12, 0x4A, 0xCE, 0xE7, 0xD2, 0x62,
    0x0C, 0xE0, 0x1F, 0xEF, 0x11, 0x75, 0x78, 0x71, 0xA5, 0x8E, 0x76, 0x3D, 0xBD, 0xBC, 0x86, 0x57,
    0x0B, 0x28, 0x2F, 0xA3, 0xDA, 0xD4, 0xE4, 0x0F, 0xA9, 0x27, 0x53, 0x04, 0x1B, 0xFC, 0xAC, 0xE6,
    0x7A, 0x07, 0xAE, 0x63, 0xC5, 0xDB, 0xE2, 0xEA, 0x94, 0x8B, 0xC4, 0xD5, 0x9D, 0xF8, 0x90, 0x6B,
    0xB1, 0x0D, 0xD6, 0xEB, 0xC6, 0x0E, 0xCF, 0xAD, 0x08, 0x4E, 0xD7, 0xE3, 0x5D, 0x50, 0x1E, 0xB3,
    0x5B, 0x23, 0x38, 0x34, 0x68, 0x46, 0x03, 0x8C, 0xDD, 0x9C, 0x7D, 0xA0, 0xCD, 0x1A, 0x41, 0x1C]

set_option maxRecDepth 2000 in
theorem length_inverses : inverses.length = 256 := rfl

set_option maxRecDepth 8000 in
theorem inv_eq (x : UInt8) : inv x = inverses.getD x.toNat 0 := by
  have htable : ∀ p ∈ inverses.zipIdx, p.2 ≠ 0 → mul (UInt8.ofNat p.2) p.1 = 1 := by
    decide
  by_cases hx : x = 0
  · rw [hx, inv_zero]
    rfl
  · have hlen : x.toNat < inverses.length := length_inverses ▸ x.toNat_lt
    have hmem : (inverses[x.toNat], x.toNat) ∈ inverses.zipIdx :=
      List.mk_mem_zipIdx_iff_getElem?.mpr (List.getElem?_eq_getElem hlen)
    have hmul := htable _ hmem fun h => hx (UInt8.toNat_inj.mp h)
    rw [UInt8.ofNat_toNat] at hmul
    rw [List.getD_eq_getElem _ _ hlen]
    exact (eq_inv_of_mul_eq_one hmul).symm

end BackupSoftware.Library.ByteField

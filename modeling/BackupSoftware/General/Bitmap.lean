import Mathlib.Logic.Function.Basic
import Mathlib.Tactic.Common

/-!
# The bitmap macros

`lib_set_bit_*`, `lib_clr_bit_*` and `lib_chk_bit_*` of `lib_general.h` split the index of
a bit into an element of the array and a place in it. Arithmetic on an element is done in
the type that it is promoted to, and the result is cut back when it is stored.
-/

namespace BackupSoftware.General

/-- The four types of elements. -/
inductive ElemType where
  | unsignedChar
  | unsignedShort
  | unsignedInt
  | unsignedLongLong
  deriving DecidableEq, Repr

def ElemType.bit : ElemType → Nat
  | .unsignedChar => 8
  | .unsignedShort => 16
  | .unsignedInt => 32
  | .unsignedLongLong => 64

/-- The bits of the type after integer promotion: `int` for the two short ones. -/
def ElemType.promoted : ElemType → Nat
  | .unsignedChar => 32
  | .unsignedShort => 32
  | .unsignedInt => 32
  | .unsignedLongLong => 64

/-- An array of `n` elements. -/
abbrev Elems (type : ElemType) (n : Nat) := Vector (BitVec type.bit) n

/-- The index of a bit of such an array. -/
abbrev BitIndex (type : ElemType) (n : Nat) := Fin (type.bit * n)

section Macros

variable (type : ElemType) {n : Nat}

def arrayIdx (idx : BitIndex type n) : Fin n := ⟨idx / type.bit, Nat.div_lt_of_lt_mul idx.isLt⟩

def bitIdx (idx : BitIndex type n) : Nat := idx % type.bit

/-- `((type)0x01) << bit_idx(idx, bit)`. -/
def bitMask (idx : BitIndex type n) : BitVec type.promoted :=
  BitVec.ofNat type.promoted 1 <<< bitIdx type idx

def libClrBitNum (addr : Elems type n) (idx : BitIndex type n) : Elems type n :=
  addr.set (arrayIdx type idx)
    ((addr[arrayIdx type idx].setWidth type.promoted &&& ~~~ bitMask type idx).setWidth type.bit)

def libSetBitNum (addr : Elems type n) (idx : BitIndex type n) : Elems type n :=
  addr.set (arrayIdx type idx)
    ((addr[arrayIdx type idx].setWidth type.promoted ||| bitMask type idx).setWidth type.bit)

def libChkBitNum (addr : Elems type n) (idx : BitIndex type n) : BitVec type.promoted :=
  (addr[arrayIdx type idx].setWidth type.promoted >>> bitIdx type idx) &&&
    BitVec.ofNat type.promoted 1

end Macros

section Members

variable {n : Nat}

def libClrBitByte := libClrBitNum .unsignedChar (n := n)
def libSetBitBype := libSetBitNum .unsignedChar (n := n)
def libChkBitBype := libChkBitNum .unsignedChar (n := n)

def libClrBitShort := libClrBitNum .unsignedShort (n := n)
def libSetBitShort := libSetBitNum .unsignedShort (n := n)
def libChkBitShort := libChkBitNum .unsignedShort (n := n)

def libClrBitInt := libClrBitNum .unsignedInt (n := n)
def libSetBitInt := libSetBitNum .unsignedInt (n := n)
def libChkBitInt := libChkBitNum .unsignedInt (n := n)

def libClrBitLl := libClrBitNum .unsignedLongLong (n := n)
def libSetBitLl := libSetBitNum .unsignedLongLong (n := n)
def libChkBitLl := libChkBitNum .unsignedLongLong (n := n)

end Members

section Bits

variable {type : ElemType} {n : Nat}

def bits (addr : Elems type n) (j : BitIndex type n) : Bool :=
  addr[arrayIdx type j].getLsbD (bitIdx type j)

theorem bitIdx_lt (j : BitIndex type n) : bitIdx type j < type.bit := by
  unfold bitIdx
  cases type <;> exact Nat.mod_lt _ (by decide)

theorem bit_le_promoted (type : ElemType) : type.bit ≤ type.promoted := by
  cases type <;> decide

/-- An index is its element and its place in it. -/
theorem idx_ext {i j : BitIndex type n} (ha : arrayIdx type i = arrayIdx type j)
    (hb : bitIdx type i = bitIdx type j) : i = j := by
  have hdiv : (i : Nat) / type.bit = j / type.bit := congrArg Fin.val ha
  have hmod : (i : Nat) % type.bit = j % type.bit := hb
  apply Fin.ext
  calc (i : Nat) = type.bit * (i / type.bit) + i % type.bit := (Nat.div_add_mod _ _).symm
    _ = type.bit * (j / type.bit) + j % type.bit := by rw [hdiv, hmod]
    _ = j := Nat.div_add_mod _ _

theorem exists_idx (a : Fin n) {m : Nat} (hm : m < type.bit) :
    ∃ j : BitIndex type n, arrayIdx type j = a ∧ bitIdx type j = m := by
  have hlt : type.bit * a + m < type.bit * n := by
    calc type.bit * a + m < type.bit * a + type.bit := by omega
      _ = type.bit * (a + 1) := by rw [Nat.mul_succ]
      _ ≤ type.bit * n := Nat.mul_le_mul_left _ a.isLt
  refine ⟨⟨type.bit * a + m, hlt⟩, Fin.ext ?_, ?_⟩
  · change (type.bit * a + m) / type.bit = a
    rw [Nat.mul_add_div (by omega), Nat.div_eq_of_lt hm, Nat.add_zero]
  · change (type.bit * a + m) % type.bit = m
    rw [Nat.mul_add_mod, Nat.mod_eq_of_lt hm]

theorem bits_injective : Function.Injective (bits : Elems type n → BitIndex type n → Bool) := by
  intro x y h
  apply Vector.ext
  intro a ha
  apply BitVec.eq_of_getLsbD_eq
  intro m hm
  obtain ⟨j, hj, rfl⟩ := exists_idx ⟨a, ha⟩ hm
  have := congrFun h j
  simpa [bits, hj] using this

theorem bitMask_getLsbD (i : BitIndex type n) {m : Nat} (hm : m < type.promoted) :
    (bitMask type i).getLsbD m = decide (m = bitIdx type i) := by
  unfold bitMask
  rw [BitVec.getLsbD_shiftLeft, BitVec.getLsbD_one]
  by_cases hlt : m < bitIdx type i
  · simp [hlt, Nat.ne_of_lt hlt]
  · have hpos : 0 < type.promoted := Nat.zero_lt_of_lt hm
    simp only [hm, hlt, hpos, decide_true, decide_false, Bool.not_false, Bool.true_and,
      decide_eq_decide]
    omega

/-- What a change of one element does to the bits. -/
theorem bits_set (addr : Elems type n) (i : BitIndex type n) {x : BitVec type.bit} {b : Bool}
    (hx : ∀ m < type.bit, x.getLsbD m =
      if m = bitIdx type i then b else addr[arrayIdx type i].getLsbD m) :
    bits (addr.set (arrayIdx type i) x) = Function.update (bits addr) i b := by
  funext j
  unfold bits
  by_cases hij : j = i
  · subst hij
    simp [hx _ (bitIdx_lt j)]
  · rw [Function.update_of_ne hij]
    by_cases ha : arrayIdx type i = arrayIdx type j
    · have hb : bitIdx type j ≠ bitIdx type i := fun hb => hij (idx_ext ha.symm hb)
      simp [ha, hx _ (bitIdx_lt j), hb]
    · have hne : (arrayIdx type i : Nat) ≠ arrayIdx type j := fun h => ha (Fin.ext h)
      simp [Vector.getElem_set_ne, hne]

theorem bits_libSetBitNum (addr : Elems type n) (i : BitIndex type n) :
    bits (libSetBitNum type addr i) = Function.update (bits addr) i true := by
  apply bits_set
  intro m hm
  have hp : m < type.promoted := Nat.lt_of_lt_of_le hm (bit_le_promoted type)
  simp only [BitVec.getLsbD_setWidth, BitVec.getLsbD_or, bitMask_getLsbD i hp, hm, hp,
    decide_true, Bool.true_and]
  by_cases h : m = bitIdx type i <;> simp [h]

theorem bits_libClrBitNum (addr : Elems type n) (i : BitIndex type n) :
    bits (libClrBitNum type addr i) = Function.update (bits addr) i false := by
  apply bits_set
  intro m hm
  have hp : m < type.promoted := Nat.lt_of_lt_of_le hm (bit_le_promoted type)
  simp only [BitVec.getLsbD_setWidth, BitVec.getLsbD_and, BitVec.getLsbD_not,
    bitMask_getLsbD i hp, hm, hp, decide_true, Bool.true_and]
  by_cases h : m = bitIdx type i <;> simp [h]

theorem libChkBitNum_eq (addr : Elems type n) (j : BitIndex type n) :
    libChkBitNum type addr j = if bits addr j then 1 else 0 := by
  have hlt : bitIdx type j < type.promoted :=
    Nat.lt_of_lt_of_le (bitIdx_lt j) (bit_le_promoted type)
  apply BitVec.eq_of_getLsbD_eq
  intro m hm
  have hpos : 0 < type.promoted := Nat.zero_lt_of_lt hm
  unfold libChkBitNum bits
  rw [BitVec.getLsbD_and, BitVec.getLsbD_ushiftRight, BitVec.getLsbD_setWidth,
    BitVec.getLsbD_one]
  by_cases h0 : m = 0
  · subst h0
    cases addr[arrayIdx type j].getLsbD (bitIdx type j) <;> simp [hlt, hpos]
  · cases addr[arrayIdx type j].getLsbD (bitIdx type j) <;> simp [h0]

end Bits

section Laws

variable {type : ElemType} {n : Nat}

/-- The macros that match a type of elements. -/
def clrBit : (type : ElemType) → Elems type n → BitIndex type n → Elems type n
  | .unsignedChar => libClrBitByte
  | .unsignedShort => libClrBitShort
  | .unsignedInt => libClrBitInt
  | .unsignedLongLong => libClrBitLl

def setBit : (type : ElemType) → Elems type n → BitIndex type n → Elems type n
  | .unsignedChar => libSetBitBype
  | .unsignedShort => libSetBitShort
  | .unsignedInt => libSetBitInt
  | .unsignedLongLong => libSetBitLl

def chkBit : (type : ElemType) → Elems type n → BitIndex type n → BitVec type.promoted
  | .unsignedChar => libChkBitBype
  | .unsignedShort => libChkBitShort
  | .unsignedInt => libChkBitInt
  | .unsignedLongLong => libChkBitLl

theorem bits_setBit (addr : Elems type n) (i : BitIndex type n) :
    bits (setBit type addr i) = Function.update (bits addr) i true := by
  cases type <;> exact bits_libSetBitNum addr i

theorem bits_clrBit (addr : Elems type n) (i : BitIndex type n) :
    bits (clrBit type addr i) = Function.update (bits addr) i false := by
  cases type <;> exact bits_libClrBitNum addr i

theorem chkBit_eq (addr : Elems type n) (j : BitIndex type n) :
    chkBit type addr j = if bits addr j then 1 else 0 := by
  cases type <;> exact libChkBitNum_eq addr j

/-- Setting and clearing act on the one bit, so at different bits the order does not matter. -/
theorem bit_macros_update_one_bit (type : ElemType) {n : Nat} (addr : Elems type n)
    (i : BitIndex type n) :
    (chkBit type (setBit type addr i) i = 1 ∧
      ∀ j ≠ i, chkBit type (setBit type addr i) j = chkBit type addr j) ∧
    (chkBit type (clrBit type addr i) i = 0 ∧
      ∀ j ≠ i, chkBit type (clrBit type addr i) j = chkBit type addr j) ∧
    (∀ j ≠ i,
      setBit type (setBit type addr i) j = setBit type (setBit type addr j) i ∧
      clrBit type (clrBit type addr i) j = clrBit type (clrBit type addr j) i ∧
      setBit type (clrBit type addr i) j = clrBit type (setBit type addr j) i) ∧
    setBit type (setBit type addr i) i = setBit type addr i ∧
    clrBit type (clrBit type addr i) i = clrBit type addr i := by
  refine ⟨⟨?_, ?_⟩, ⟨?_, ?_⟩, ?_, ?_, ?_⟩
  · simp [chkBit_eq, bits_setBit]
  · intro j hj
    simp [chkBit_eq, bits_setBit, hj]
  · simp [chkBit_eq, bits_clrBit]
  · intro j hj
    simp [chkBit_eq, bits_clrBit, hj]
  · intro j hj
    refine ⟨bits_injective ?_, bits_injective ?_, bits_injective ?_⟩
    · rw [bits_setBit, bits_setBit, bits_setBit, bits_setBit, Function.update_comm hj.symm]
    · rw [bits_clrBit, bits_clrBit, bits_clrBit, bits_clrBit, Function.update_comm hj.symm]
    · rw [bits_setBit, bits_clrBit, bits_clrBit, bits_setBit, Function.update_comm hj.symm]
  · apply bits_injective
    rw [bits_setBit, bits_setBit, Function.update_idem]
  · apply bits_injective
    rw [bits_clrBit, bits_clrBit, Function.update_idem]

/-- The top bit of the second of two bytes and the bit beside it. -/
theorem bit_macros_update_top_bit :
    chkBit .unsignedChar (setBit .unsignedChar #v[0x00, 0x40] (15 : Fin 16)) (14 : Fin 16) =
      chkBit .unsignedChar #v[0x00, 0x40] (14 : Fin 16) :=
  (bit_macros_update_one_bit .unsignedChar (n := 2) #v[0x00, 0x40] (15 : Fin 16)).1.2 (14 : Fin 16)
    (Fin.ne_of_val_ne (by decide))

end Laws

end BackupSoftware.General

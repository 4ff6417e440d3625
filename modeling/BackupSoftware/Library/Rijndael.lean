import BackupSoftware.Library.ByteField
import BackupSoftware.Library.Quad
import BackupSoftware.Library.SubstitutionNetwork

/-!
# The cipher Rijndael on bytes

The cipher as it is specified, for blocks of four words: the state is four columns of
four bytes, the round functions act on its bytes, and the key is expanded word by word.
Nothing here is looked up in a table.
-/

namespace BackupSoftware.Library

namespace Rijndael

open ByteField

/-- A word: a column of the state, or four bytes of the expanded key. -/
abbrev Word := Quad UInt8

abbrev State := Quad Word

def addWord : Word → Word → Word := Quad.zip (· ^^^ ·)

def addRoundKey : State → State → State := Quad.zip addWord

def rotl (n : UInt8) (x : UInt8) : UInt8 := (x <<< n) ||| (x >>> (8 - n))

def affine (b : UInt8) : UInt8 :=
  b ^^^ rotl 1 b ^^^ rotl 2 b ^^^ rotl 3 b ^^^ rotl 4 b ^^^ 0x63

def invAffine (b : UInt8) : UInt8 := rotl 1 b ^^^ rotl 3 b ^^^ rotl 6 b ^^^ 0x05

def sbox (x : UInt8) : UInt8 := affine (inv x)

def invSbox (x : UInt8) : UInt8 := inv (invAffine x)

def subBytes (s : State) : State := s.map (·.map sbox)

def invSubBytes (s : State) : State := s.map (·.map invSbox)

/-- Row `r` is rotated by `r` columns to the left. -/
def shiftRows (s : State) : State :=
  ⟨⟨s.a.a, s.b.b, s.c.c, s.d.d⟩, ⟨s.b.a, s.c.b, s.d.c, s.a.d⟩,
    ⟨s.c.a, s.d.b, s.a.c, s.b.d⟩, ⟨s.d.a, s.a.b, s.b.c, s.c.d⟩⟩

def invShiftRows (s : State) : State :=
  ⟨⟨s.a.a, s.d.b, s.c.c, s.b.d⟩, ⟨s.b.a, s.a.b, s.d.c, s.c.d⟩,
    ⟨s.c.a, s.b.b, s.a.c, s.d.d⟩, ⟨s.d.a, s.c.b, s.b.c, s.a.d⟩⟩

/-- What a round does to the state before the columns are mixed. -/
def substitution (s : State) : State := shiftRows (subBytes s)

def invSubstitution (s : State) : State := invShiftRows (invSubBytes s)

/-- The product of a column with the circulant matrix whose first row is given. -/
def circulant (p q r s : UInt8) (w : Word) : Word :=
  ⟨mul p w.a ^^^ mul q w.b ^^^ mul r w.c ^^^ mul s w.d,
    mul s w.a ^^^ mul p w.b ^^^ mul q w.c ^^^ mul r w.d,
    mul r w.a ^^^ mul s w.b ^^^ mul p w.c ^^^ mul q w.d,
    mul q w.a ^^^ mul r w.b ^^^ mul s w.c ^^^ mul p w.d⟩

def mixColumn : Word → Word := circulant 2 3 1 1

def invMixColumn : Word → Word := circulant 14 11 13 9

def mixColumns : State → State := Quad.map mixColumn

def invMixColumns : State → State := Quad.map invMixColumn

def rotWord (w : Word) : Word := ⟨w.b, w.c, w.d, w.a⟩

def subWord : Word → Word := Quad.map sbox

def rcon (j : Nat) : Word := ⟨xtime^[j - 1] 1, 0, 0, 0⟩

/-- Word `i` of the expansion of a key of `nk` words. -/
def expandedWord (nk : Nat) (key : Nat → Word) (i : Nat) : Word :=
  if i < nk ∨ nk = 0 then key i
  else
    let temp := expandedWord nk key (i - 1)
    let temp :=
      if i % nk = 0 then addWord (subWord (rotWord temp)) (rcon (i / nk))
      else if nk > 6 ∧ i % nk = 4 then subWord temp
      else temp
    addWord (expandedWord nk key (i - nk)) temp
termination_by i
decreasing_by all_goals omega

def roundKey (w : Nat → Word) (r : Nat) : State :=
  ⟨w (4 * r), w (4 * r + 1), w (4 * r + 2), w (4 * r + 3)⟩

/-- The keys of the inner rounds. -/
def innerKeys (w : Nat → Word) (nr : Nat) : List State :=
  (List.range' 1 (nr - 1)).map (roundKey w)

def cipher (nr : Nat) (w : Nat → Word) : State → State :=
  SubstitutionNetwork.crypt addRoundKey substitution mixColumns
    (roundKey w 0) (innerKeys w nr) (roundKey w nr)

/-- The equivalent inverse cipher. -/
def eqInvCipher (nr : Nat) (w : Nat → Word) : State → State :=
  SubstitutionNetwork.crypt addRoundKey invSubstitution invMixColumns
    (roundKey w nr) ((innerKeys w nr).reverse.map invMixColumns) (roundKey w 0)

theorem addWord_cancel (v w : Word) : addWord (addWord v w) w = v :=
  Quad.zip_cancel (fun x y => by rw [UInt8.xor_assoc, UInt8.xor_self, UInt8.xor_zero]) v w

theorem addRoundKey_cancel (s k : State) : addRoundKey (addRoundKey s k) k = s :=
  Quad.zip_cancel addWord_cancel s k

theorem circulant_add (p q r s : UInt8) (v w : Word) :
    circulant p q r s (addWord v w) = addWord (circulant p q r s v) (circulant p q r s w) := by
  simp only [circulant, addWord, Quad.zip, mul_xor, Quad.mk.injEq]
  refine ⟨?_, ?_, ?_, ?_⟩ <;> ac_rfl

theorem invMixColumns_add (s k : State) :
    invMixColumns (addRoundKey s k) = addRoundKey (invMixColumns s) (invMixColumns k) :=
  Quad.map_zip (circulant_add 14 11 13 9) s k

/-- The column rotated down by one row. -/
def rotDown (w : Word) : Word := ⟨w.d, w.a, w.b, w.c⟩

theorem circulant_rotDown (p q r s : UInt8) (w : Word) :
    circulant p q r s (rotDown w) = rotDown (circulant p q r s w) := by
  simp only [circulant, rotDown, Quad.mk.injEq]
  refine ⟨?_, ?_, ?_, ?_⟩ <;> ac_rfl

/-- A column is the sum of four with one byte each. -/
theorem word_eq_add (w : Word) : w = addWord (addWord (addWord ⟨w.a, 0, 0, 0⟩ ⟨0, w.b, 0, 0⟩)
    ⟨0, 0, w.c, 0⟩) ⟨0, 0, 0, w.d⟩ := by
  simp [addWord, Quad.zip]

/-- A linear map that commutes with rotations is the identity if it leaves columns alone
that have their only byte at the top. -/
theorem eq_self_of_single {f : Word → Word} (hadd : ∀ v w, f (addWord v w) = addWord (f v) (f w))
    (hrot : ∀ w, f (rotDown w) = rotDown (f w)) (hsingle : ∀ x, f ⟨x, 0, 0, 0⟩ = ⟨x, 0, 0, 0⟩)
    (w : Word) : f w = w := by
  have hb (x : UInt8) : f ⟨0, x, 0, 0⟩ = ⟨0, x, 0, 0⟩ :=
    (hrot ⟨x, 0, 0, 0⟩).trans (congrArg rotDown (hsingle x))
  have hc (x : UInt8) : f ⟨0, 0, x, 0⟩ = ⟨0, 0, x, 0⟩ :=
    (hrot ⟨0, x, 0, 0⟩).trans (congrArg rotDown (hb x))
  have hd (x : UInt8) : f ⟨0, 0, 0, x⟩ = ⟨0, 0, 0, x⟩ :=
    (hrot ⟨0, 0, x, 0⟩).trans (congrArg rotDown (hc x))
  have hsum := congrArg f (word_eq_add w)
  rw [hadd, hadd, hadd, hsingle, hb, hc, hd] at hsum
  exact hsum.trans (word_eq_add w).symm

/-- The four sums that the product of the two matrices comes to, on one byte. -/
theorem mul_sums (x : UInt8) :
    mul 14 (mul 2 x) ^^^ mul 11 x ^^^ mul 13 x ^^^ mul 9 (mul 3 x) = x ∧
      mul 9 (mul 2 x) ^^^ mul 14 x ^^^ mul 11 x ^^^ mul 13 (mul 3 x) = 0 ∧
      mul 13 (mul 2 x) ^^^ mul 9 x ^^^ mul 14 x ^^^ mul 11 (mul 3 x) = 0 ∧
      mul 11 (mul 2 x) ^^^ mul 13 x ^^^ mul 9 x ^^^ mul 14 (mul 3 x) = 0 := by
  have h1 : mul 14 2 ^^^ 11 ^^^ 13 ^^^ mul 9 3 = 1 := by decide
  have h2 : mul 9 2 ^^^ 14 ^^^ 11 ^^^ mul 13 3 = 0 := by decide
  have h3 : mul 13 2 ^^^ 9 ^^^ 14 ^^^ mul 11 3 = 0 := by decide
  have h4 : mul 11 2 ^^^ 13 ^^^ 9 ^^^ mul 14 3 = 0 := by decide
  simp only [← mul_assoc, ← xor_mul]
  rw [h1, h2, h3, h4, mul_one_left, zero_mul]
  exact ⟨rfl, rfl, rfl, rfl⟩

theorem invMixColumn_mixColumn (w : Word) : invMixColumn (mixColumn w) = w := by
  have hadd (v w : Word) : invMixColumn (mixColumn (addWord v w)) =
      addWord (invMixColumn (mixColumn v)) (invMixColumn (mixColumn w)) :=
    (congrArg invMixColumn (circulant_add 2 3 1 1 v w)).trans (circulant_add 14 11 13 9 _ _)
  have hrot (w : Word) : invMixColumn (mixColumn (rotDown w)) =
      rotDown (invMixColumn (mixColumn w)) :=
    (congrArg invMixColumn (circulant_rotDown 2 3 1 1 w)).trans (circulant_rotDown 14 11 13 9 _)
  refine eq_self_of_single (f := fun w => invMixColumn (mixColumn w)) hadd hrot (fun x => ?_) w
  obtain ⟨h0, h1, h2, h3⟩ := mul_sums x
  simp only [invMixColumn, mixColumn, circulant, mul_zero, mul_one_left, UInt8.xor_zero]
  rw [h0, h1, h2, h3]

theorem invMixColumns_mixColumns (s : State) : invMixColumns (mixColumns s) = s :=
  Quad.map_eq_self invMixColumn_mixColumn s

theorem invAffine_affine (b : UInt8) : invAffine (affine b) = b := by
  have h : ∀ b : BitVec 8, invAffine (affine ⟨b⟩) = ⟨b⟩ := by decide
  exact h b.toBitVec

theorem invSbox_sbox (x : UInt8) : invSbox (sbox x) = x := by
  rw [invSbox, sbox, invAffine_affine, inv_inv]

theorem affine_invAffine (b : UInt8) : affine (invAffine b) = b := by
  have h : ∀ b : BitVec 8, affine (invAffine ⟨b⟩) = ⟨b⟩ := by decide
  exact h b.toBitVec

theorem sbox_invSbox (y : UInt8) : sbox (invSbox y) = y := by
  rw [sbox, invSbox, inv_inv, affine_invAffine]

theorem invSubstitution_substitution (s : State) : invSubstitution (substitution s) = s := by
  simp only [invSubstitution, substitution, invShiftRows, invSubBytes, shiftRows, subBytes,
    Quad.map, invSbox_sbox]

/-- The equivalent inverse cipher undoes the cipher, whatever the round keys are. -/
theorem eqInvCipher_cipher (nr : Nat) (w : Nat → Word) (s : State) :
    eqInvCipher nr w (cipher nr w s) = s :=
  SubstitutionNetwork.crypt_crypt addRoundKey_cancel invSubstitution_substitution
    invMixColumns_mixColumns invMixColumns_add _ _ _ _

variable {nr : Nat} {w w' : Nat → Word} (h : ∀ j, j < 4 * (nr + 1) → w j = w' j)

include h

theorem roundKey_congr {r : Nat} (hr : r ≤ nr) : roundKey w r = roundKey w' r := by
  simp only [roundKey, h (4 * r) (by omega), h (4 * r + 1) (by omega), h (4 * r + 2) (by omega),
    h (4 * r + 3) (by omega)]

theorem innerKeys_congr : innerKeys w nr = innerKeys w' nr := by
  apply List.map_congr_left
  intro r hr
  have := List.mem_range'_1.mp hr
  exact roundKey_congr h (by omega)

/-- The cipher and its inverse read the words of `nr + 1` round keys. -/
theorem cipher_congr : cipher nr w = cipher nr w' := by
  rw [cipher, cipher, roundKey_congr h (Nat.zero_le nr), roundKey_congr h (Nat.le_refl nr),
    innerKeys_congr h]

theorem eqInvCipher_congr : eqInvCipher nr w = eqInvCipher nr w' := by
  rw [eqInvCipher, eqInvCipher, roundKey_congr h (Nat.zero_le nr),
    roundKey_congr h (Nat.le_refl nr), innerKeys_congr h]

end Rijndael

end BackupSoftware.Library

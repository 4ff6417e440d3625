import Mathlib.Data.List.GetD
import BackupSoftware.Encryption.Des
import BackupSoftware.Library.BlockHash
import BackupSoftware.Library.Des

/-!
# DES as specified

The words of `encryption/des.c` are those of the specification rotated by one bit, so that
the six bits that go into a substitution box lie next to each other, and each table holds
the outputs of its box after the permutation of the round. A block under a key becomes
what the specification of DES says, and one under two keys what it says of Triple-DES.
-/

namespace BackupSoftware.Encryption

open Library

theorem rotl1_xor (x y : ULong) : rotl1 (x ^^^ y) = rotl1 x ^^^ rotl1 y := by
  unfold rotl1
  ext i hi
  interval_cases i <;> simp

theorem xor_and (a b m : ULong) : (a ^^^ b) &&& m = (a &&& m) ^^^ (b &&& m) := by
  ext i hi
  simp only [BitVec.getElem_and, BitVec.getElem_xor]
  cases a[i] <;> cases b[i] <;> cases m[i] <;> rfl

theorem xor_xor_comm (a b c d : ULong) : (a ^^^ b) ^^^ (c ^^^ d) = (a ^^^ c) ^^^ (b ^^^ d) := by
  ac_rfl

def xorWords (b b' : ULong × ULong) : ULong × ULong := (b.1 ^^^ b'.1, b.2 ^^^ b'.2)

theorem exchange_xorWords (s : Nat) (mask : ULong) (b b' : ULong × ULong) :
    exchange s mask (xorWords b b') = xorWords (exchange s mask b) (exchange s mask b') := by
  simp only [exchange, xorWords, BitVec.ushiftRight_xor_distrib,
    xor_xor_comm (b.1 >>> s) (b'.1 >>> s), xor_and, BitVec.shiftLeft_xor_distrib,
    xor_xor_comm b.1, xor_xor_comm b.2]

/-- The exchange with the words in the other order. -/
theorem exchange_swap_xorWords (s : Nat) (mask : ULong) (b b' : ULong × ULong) :
    (exchange s mask (xorWords b b').swap).swap =
      xorWords (exchange s mask b.swap).swap (exchange s mask b'.swap).swap := by
  rw [show (xorWords b b').swap = xorWords b.swap b'.swap from rfl, exchange_xorWords]
  rfl

theorem rotl1_xorWords (b b' : ULong × ULong) :
    ((xorWords b b').1, rotl1 (xorWords b b').2) =
      xorWords (b.1, rotl1 b.2) (b'.1, rotl1 b'.2) := by
  simp only [xorWords, rotl1_xor]

theorem desIp_xorWords (b b' : ULong × ULong) :
    desIp (xorWords b b') = xorWords (desIp b) (desIp b') := by
  simp only [desIp, exchange_xorWords, exchange_swap_xorWords, rotl1_xorWords]
  simp only [xorWords, rotl1_xor]

set_option maxRecDepth 8000 in
/-- The words of a block after the initial permutation of the specification, rotated. -/
theorem desIp_eq (b : BitVec 64) : desIp (Des.left b, Des.right b) =
    (rotl1 (Des.left (Des.permute 64 Des.ip b)), rotl1 (Des.right (Des.permute 64 Des.ip b))) := by
  have hcode : ∀ a c : BitVec 64, desIp (Des.left (a ^^^ c), Des.right (a ^^^ c)) =
      xorWords (desIp (Des.left a, Des.right a)) (desIp (Des.left c, Des.right c)) := fun a c => by
    rw [Des.left_xor, Des.right_xor]
    exact desIp_xorWords (Des.left a, Des.right a) (Des.left c, Des.right c)
  have hunits : ∀ i < 64, desIp (Des.left (BitVec.twoPow 64 i), Des.right (BitVec.twoPow 64 i)) =
      (rotl1 (Des.left (Des.permute 64 Des.ip (BitVec.twoPow 64 i))),
        rotl1 (Des.right (Des.permute 64 Des.ip (BitVec.twoPow 64 i)))) := by
    decide
  apply Prod.ext
  · refine Des.eq_of_units (fun b => (desIp (Des.left b, Des.right b)).1)
      (fun b => rotl1 (Des.left (Des.permute 64 Des.ip b))) (fun a c => ?_) (fun a c => ?_)
      (fun i hi => congrArg Prod.fst (hunits i hi)) b
    · rw [hcode, xorWords]
    · rw [Des.permute_xor, Des.left_xor, rotl1_xor]
  · refine Des.eq_of_units (fun b => (desIp (Des.left b, Des.right b)).2)
      (fun b => rotl1 (Des.right (Des.permute 64 Des.ip b))) (fun a c => ?_) (fun a c => ?_)
      (fun i hi => congrArg Prod.snd (hunits i hi)) b
    · rw [hcode, xorWords]
    · rw [Des.permute_xor, Des.right_xor, rotl1_xor]

/-- The subkey of a round as the code keeps it: the bits for the boxes 2, 4, 6 and 8 in one
word, those for 1, 3, 5 and 7 in the other. -/
def packKey (k : BitVec 48) : ULong × ULong :=
  (0#2 ++ Des.group 1 k ++ 0#2 ++ Des.group 3 k ++ 0#2 ++ Des.group 5 k ++ 0#2 ++ Des.group 7 k,
    0#2 ++ Des.group 0 k ++ 0#2 ++ Des.group 2 k ++ 0#2 ++ Des.group 4 k ++ 0#2 ++ Des.group 6 k)

/-- `(X << 28) | (X >> 4)`. -/
def rotr4 (x : ULong) : ULong := (x <<< 28) ||| (x >>> 4)

theorem rotr4_xor (x y : ULong) : rotr4 (x ^^^ y) = rotr4 x ^^^ rotr4 y := by
  unfold rotr4
  ext i hi
  interval_cases i <;> simp

theorem sbox_eq (sb : List ULong) (t : ULong) (s : Nat) :
    sbox sb t s = sb.getD (t.extractLsb' s 6).toNat 0 := by
  have hbits : ((t >>> s) &&& 0x3F).toNat = (t.extractLsb' s 6).toNat := by
    rw [BitVec.toNat_and, BitVec.toNat_ushiftRight, BitVec.extractLsb'_toNat]
    exact Nat.and_two_pow_sub_one_eq_mod _ 6
  rw [sbox, hbits]

set_option maxRecDepth 8000 in
/-- The six bits at a box of what a word and a subkey give, for the boxes of one word. -/
theorem windows (r : BitVec 32) {j : Nat} (hj : j < 4) :
    (rotl1 r).extractLsb' (24 - 8 * j) 6 =
        Des.group (2 * j + 1) (Des.permute 48 Des.expansion r) ∧
      (rotr4 (rotl1 r)).extractLsb' (24 - 8 * j) 6 =
        Des.group (2 * j) (Des.permute 48 Des.expansion r) := by
  have hgroup : ∀ k a c, Des.group k (Des.permute 48 Des.expansion (a ^^^ c : BitVec 32)) =
      Des.group k (Des.permute 48 Des.expansion a) ^^^
        Des.group k (Des.permute 48 Des.expansion c) := fun k a c => by
    rw [Des.permute_xor]
    exact BitVec.extractLsb'_xor
  have hunits : ∀ j < 4, ∀ i < 32,
      (rotl1 (BitVec.twoPow 32 i)).extractLsb' (24 - 8 * j) 6 =
          Des.group (2 * j + 1) (Des.permute 48 Des.expansion (BitVec.twoPow 32 i)) ∧
        (rotr4 (rotl1 (BitVec.twoPow 32 i))).extractLsb' (24 - 8 * j) 6 =
          Des.group (2 * j) (Des.permute 48 Des.expansion (BitVec.twoPow 32 i)) := by
    decide
  constructor
  · refine Des.eq_of_units (fun r => (rotl1 r).extractLsb' (24 - 8 * j) 6)
      (fun r => Des.group (2 * j + 1) (Des.permute 48 Des.expansion r)) (fun a c => ?_)
      (hgroup _) (fun i hi => (hunits j hj i hi).1) r
    rw [rotl1_xor]
    exact BitVec.extractLsb'_xor
  · refine Des.eq_of_units (fun r => (rotr4 (rotl1 r)).extractLsb' (24 - 8 * j) 6)
      (fun r => Des.group (2 * j) (Des.permute 48 Des.expansion r)) (fun a c => ?_)
      (hgroup _) (fun i hi => (hunits j hj i hi).2) r
    rw [rotl1_xor, rotr4_xor]
    exact BitVec.extractLsb'_xor

theorem packKey_windows (k : BitVec 48) {j : Nat} (hj : j < 4) :
    (packKey k).1.extractLsb' (24 - 8 * j) 6 = Des.group (2 * j + 1) k ∧
      (packKey k).2.extractLsb' (24 - 8 * j) 6 = Des.group (2 * j) k := by
  unfold packKey
  constructor <;>
  · apply BitVec.eq_of_getLsbD_eq
    intro i hi
    simp only [BitVec.getLsbD_extractLsb', BitVec.getLsbD_append]
    interval_cases j <;> interval_cases i <;> simp

/-- The output of box `j` after the permutation of the round, as the code keeps it. -/
def boxOutput (j : Nat) (b : BitVec 6) : ULong :=
  rotl1 (Des.permute 32 Des.permutation ((Des.box j b).setWidth 32 <<< (28 - 4 * j)))

/-- Where the bits of the output of each box go, the lowest bit first. -/
def boxLines : List (List Nat) :=
  [[2, 10, 16, 24], [15, 31, 5, 20], [27, 3, 17, 9], [0, 23, 13, 7],
    [30, 8, 19, 25], [14, 22, 4, 29], [26, 11, 21, 1], [12, 18, 6, 28]]

def line (i : Nat) (c : Bool) : ULong := if c then BitVec.twoPow 32 i else 0

/-- The output `v` of box `j` with its bits in their places. -/
def placed (j : Nat) (v : BitVec 4) : ULong :=
  let l := boxLines.getD j []
  line (l.getD 0 0) (v.getLsbD 0) ^^^ line (l.getD 1 0) (v.getLsbD 1)
    ^^^ line (l.getD 2 0) (v.getLsbD 2) ^^^ line (l.getD 3 0) (v.getLsbD 3)

theorem line_xor (i : Nat) (c d : Bool) : line i (c ^^ d) = line i c ^^^ line i d := by
  cases c <;> cases d <;> simp [line]

theorem placed_xor (j : Nat) (v v' : BitVec 4) :
    placed j (v ^^^ v') = placed j v ^^^ placed j v' := by
  simp only [placed, BitVec.getLsbD_xor, line_xor]
  ac_rfl

theorem boxTables : [sb1, sb2, sb3, sb4, sb5, sb6, sb7, sb8] =
    (List.range 8).map fun j => (List.range 64).map fun b => boxOutput j (BitVec.ofNat 6 b) := by
  have hunits : ∀ j < 8, ∀ i < 4, rotl1 (Des.permute 32 Des.permutation
      ((BitVec.twoPow 4 i).setWidth 32 <<< (28 - 4 * j))) = placed j (BitVec.twoPow 4 i) := by
    decide
  have houtput : ∀ j < 8, ∀ b, boxOutput j b = placed j (Des.box j b) := by
    intro j hj b
    refine Des.eq_of_units
      (fun v => rotl1 (Des.permute 32 Des.permutation (v.setWidth 32 <<< (28 - 4 * j)))) (placed j)
      (fun a c => ?_) (placed_xor j) (hunits j hj) (Des.box j b)
    rw [BitVec.setWidth_xor, BitVec.shiftLeft_xor_distrib, Des.permute_xor, rotl1_xor]
  have hplaced : [sb1, sb2, sb3, sb4, sb5, sb6, sb7, sb8] = (List.range 8).map fun j =>
      (List.range 64).map fun b => placed j (Des.box j (BitVec.ofNat 6 b)) := by
    decide
  rw [hplaced]
  refine List.map_congr_left fun j hj => List.map_congr_left fun b _ => ?_
  rw [houtput j (List.mem_range.mp hj)]

theorem getD_boxTable {sb : List ULong} {j : Nat}
    (h : [sb1, sb2, sb3, sb4, sb5, sb6, sb7, sb8][j]? = some sb) (b : BitVec 6) :
    sb.getD b.toNat 0 = boxOutput j b := by
  have hj : j < 8 := (List.getElem?_eq_some_iff.mp h).1
  rw [boxTables, List.getElem?_map, List.getElem?_range hj] at h
  have hb := b.isLt
  obtain rfl : (List.range 64).map (fun b => boxOutput j (BitVec.ofNat 6 b)) = sb :=
    Option.some.inj h
  rw [List.getD_eq_getElem _ _ (by simpa using hb), List.getElem_map, List.getElem_range,
    BitVec.ofNat_toNat, BitVec.setWidth_eq]

theorem append_nibbles (a b c d e f g h : BitVec 4) : a ++ b ++ c ++ d ++ e ++ f ++ g ++ h =
    (a.setWidth 32 <<< 28) ^^^ (b.setWidth 32 <<< 24) ^^^ (c.setWidth 32 <<< 20)
      ^^^ (d.setWidth 32 <<< 16) ^^^ (e.setWidth 32 <<< 12) ^^^ (f.setWidth 32 <<< 8)
      ^^^ (g.setWidth 32 <<< 4) ^^^ (h.setWidth 32 <<< 0) := by
  apply BitVec.eq_of_getLsbD_eq
  intro i hi
  simp only [BitVec.getLsbD_append, BitVec.getLsbD_xor, BitVec.getLsbD_shiftLeft,
    BitVec.getLsbD_setWidth]
  interval_cases i <;> simp

/-- The outputs of the boxes make the function of the round. -/
theorem boxOutput_xor (e : BitVec 48) :
    boxOutput 7 (Des.group 7 e) ^^^ boxOutput 5 (Des.group 5 e) ^^^ boxOutput 3 (Des.group 3 e)
        ^^^ boxOutput 1 (Des.group 1 e)
        ^^^ (boxOutput 6 (Des.group 6 e) ^^^ boxOutput 4 (Des.group 4 e)
          ^^^ boxOutput 2 (Des.group 2 e) ^^^ boxOutput 0 (Des.group 0 e)) =
      rotl1 (Des.permute 32 Des.permutation (Des.substitute e)) := by
  have hreorder : ∀ a b c d e f g h : ULong, h ^^^ f ^^^ d ^^^ b ^^^ (g ^^^ e ^^^ c ^^^ a) =
      a ^^^ b ^^^ c ^^^ d ^^^ e ^^^ f ^^^ g ^^^ h := by
    intros
    ac_rfl
  rw [Des.substitute, append_nibbles, hreorder]
  simp only [boxOutput, Des.permute_xor, rotl1_xor]

theorem desRound_eq (k : BitVec 48) (r : BitVec 32) :
    desRound (packKey k) (rotl1 r) = rotl1 (Des.f k r) := by
  have hgroup : ∀ j, Des.group j k ^^^ Des.group j (Des.permute 48 Des.expansion r) =
      Des.group j (Des.permute 48 Des.expansion r ^^^ k) := fun j => by
    rw [BitVec.xor_comm]
    exact BitVec.extractLsb'_xor.symm
  have hfirst : ∀ j < 4, ∀ sb, [sb1, sb2, sb3, sb4, sb5, sb6, sb7, sb8][2 * j + 1]? = some sb →
      sbox sb ((packKey k).1 ^^^ rotl1 r) (24 - 8 * j) =
        boxOutput (2 * j + 1) (Des.group (2 * j + 1) (Des.permute 48 Des.expansion r ^^^ k)) := by
    intro j hj sb hsb
    rw [sbox_eq, BitVec.extractLsb'_xor, (packKey_windows k hj).1, (windows r hj).1, hgroup,
      getD_boxTable hsb]
  have hsecond : ∀ j < 4, ∀ sb, [sb1, sb2, sb3, sb4, sb5, sb6, sb7, sb8][2 * j]? = some sb →
      sbox sb ((packKey k).2 ^^^ rotr4 (rotl1 r)) (24 - 8 * j) =
        boxOutput (2 * j) (Des.group (2 * j) (Des.permute 48 Des.expansion r ^^^ k)) := by
    intro j hj sb hsb
    rw [sbox_eq, BitVec.extractLsb'_xor, (packKey_windows k hj).2, (windows r hj).2, hgroup,
      getD_boxTable hsb]
  rw [Des.f, ← boxOutput_xor, ← hfirst 3 (by decide) sb8 rfl, ← hfirst 2 (by decide) sb6 rfl,
    ← hfirst 1 (by decide) sb4 rfl, ← hfirst 0 (by decide) sb2 rfl,
    ← hsecond 3 (by decide) sb7 rfl, ← hsecond 2 (by decide) sb5 rfl,
    ← hsecond 1 (by decide) sb3 rfl, ← hsecond 0 (by decide) sb1 rfl]
  rfl

theorem getMsbD_halves (c d : BitVec 28) {j : Nat} (hj : j < 56) :
    (c ++ d).getMsbD j = if j < 28 then c.getLsbD (27 - j) else d.getLsbD (55 - j) := by
  rw [BitVec.getMsbD_append]
  split
  · rw [if_neg (by omega), BitVec.getMsbD, decide_eq_true (by omega), Bool.true_and]
    congr 1
    omega
  · rw [if_pos (by omega), BitVec.getMsbD, decide_eq_true (by omega), Bool.true_and]

theorem subkeys_fst (c d : BitVec 28) : (subkeys (c.setWidth 32) (d.setWidth 32)).1 =
    (packKey (Des.permute 48 Des.pc2 (c ++ d))).1 := by
  apply BitVec.eq_of_getLsbD_eq
  intro i hi
  simp only [subkeys, packKey, Des.group, BitVec.getLsbD_or, BitVec.getLsbD_and,
    BitVec.getLsbD_shiftLeft, BitVec.getLsbD_ushiftRight, BitVec.getLsbD_append,
    BitVec.getLsbD_extractLsb']
  interval_cases i <;> simp [Des.pc2, Des.getElem_permute, getMsbD_halves]

theorem subkeys_snd (c d : BitVec 28) : (subkeys (c.setWidth 32) (d.setWidth 32)).2 =
    (packKey (Des.permute 48 Des.pc2 (c ++ d))).2 := by
  apply BitVec.eq_of_getLsbD_eq
  intro i hi
  simp only [subkeys, packKey, Des.group, BitVec.getLsbD_or, BitVec.getLsbD_and,
    BitVec.getLsbD_shiftLeft, BitVec.getLsbD_ushiftRight, BitVec.getLsbD_append,
    BitVec.getLsbD_extractLsb']
  interval_cases i <;> simp [Des.pc2, Des.getElem_permute, getMsbD_halves]

theorem subkeys_eq (c d : BitVec 28) : subkeys (c.setWidth 32) (d.setWidth 32) =
    packKey (Des.permute 48 Des.pc2 (c ++ d)) :=
  Prod.ext (subkeys_fst c d) (subkeys_snd c d)

theorem rotateHalf_eq {i : Nat} (hi : i < 16) (c : BitVec 28) :
    rotateHalf i (c.setWidth 32) = (c.rotateLeft (Des.rotations.getD i 0)).setWidth 32 := by
  have hone : (((c.setWidth 32 : ULong) <<< 1) ||| (c.setWidth 32 >>> 27)) &&& 0x0FFFFFFF =
      (c.rotateLeft 1).setWidth 32 := by
    apply BitVec.eq_of_getLsbD_eq
    intro j hj
    simp only [BitVec.getLsbD_or, BitVec.getLsbD_and, BitVec.getLsbD_shiftLeft,
      BitVec.getLsbD_ushiftRight, BitVec.getLsbD_setWidth, BitVec.getLsbD_rotateLeft]
    interval_cases j <;> simp
  have htwo : (((c.setWidth 32 : ULong) <<< 2) ||| (c.setWidth 32 >>> 26)) &&& 0x0FFFFFFF =
      (c.rotateLeft 2).setWidth 32 := by
    apply BitVec.eq_of_getLsbD_eq
    intro j hj
    simp only [BitVec.getLsbD_or, BitVec.getLsbD_and, BitVec.getLsbD_shiftLeft,
      BitVec.getLsbD_ushiftRight, BitVec.getLsbD_setWidth, BitVec.getLsbD_rotateLeft]
    interval_cases j <;> simp
  have htable : ∀ i < 16, Des.rotations.getD i 0 = if i < 2 ∨ i = 8 ∨ i = 15 then 1 else 2 := by
    decide
  rw [rotateHalf, htable i hi]
  split
  · exact hone
  · exact htwo

/-- The exchanges at the start of permuted choice 1. -/
def firstChoice : List Nat :=
  [1, 2, 3, 8, 33, 34, 35, 36, 9, 10, 11, 16, 41, 42, 43, 44,
    17, 18, 19, 24, 49, 50, 51, 52, 25, 26, 27, 32, 57, 58, 59, 60,
    5, 6, 7, 4, 37, 38, 39, 40, 13, 14, 15, 12, 45, 46, 47, 48,
    21, 22, 23, 20, 53, 54, 55, 56, 29, 30, 31, 28, 61, 62, 63, 64]

set_option maxRecDepth 8000 in
theorem firstChoice_eq (v : BitVec 64) :
    (exchange 0 0x10101010 (exchange 4 0x0F0F0F0F (Des.right v, Des.left v))).swap =
      (Des.left (Des.permute 64 firstChoice v), Des.right (Des.permute 64 firstChoice v)) := by
  have hcode : ∀ a c : BitVec 64,
      exchange 0 0x10101010 (exchange 4 0x0F0F0F0F (Des.right (a ^^^ c), Des.left (a ^^^ c))) =
        xorWords (exchange 0 0x10101010 (exchange 4 0x0F0F0F0F (Des.right a, Des.left a)))
          (exchange 0 0x10101010 (exchange 4 0x0F0F0F0F (Des.right c, Des.left c))) := fun a c => by
    rw [Des.left_xor, Des.right_xor, ← exchange_xorWords, ← exchange_xorWords]
    rfl
  have hunits : ∀ i < 64,
      (exchange 0 0x10101010 (exchange 4 0x0F0F0F0F
        (Des.right (BitVec.twoPow 64 i), Des.left (BitVec.twoPow 64 i)))).swap =
      (Des.left (Des.permute 64 firstChoice (BitVec.twoPow 64 i)),
        Des.right (Des.permute 64 firstChoice (BitVec.twoPow 64 i))) := by
    decide
  apply Prod.ext
  · refine Des.eq_of_units
      (fun v => (exchange 0 0x10101010 (exchange 4 0x0F0F0F0F (Des.right v, Des.left v))).2)
      (fun v => Des.left (Des.permute 64 firstChoice v)) (fun a c => ?_) (fun a c => ?_)
      (fun i hi => congrArg Prod.fst (hunits i hi)) v
    · rw [hcode, xorWords]
    · rw [Des.permute_xor, Des.left_xor]
  · refine Des.eq_of_units
      (fun v => (exchange 0 0x10101010 (exchange 4 0x0F0F0F0F (Des.right v, Des.left v))).1)
      (fun v => Des.right (Des.permute 64 firstChoice v)) (fun a c => ?_) (fun a c => ?_)
      (fun i hi => congrArg Prod.snd (hunits i hi)) v
    · rw [hcode, xorWords]
    · rw [Des.permute_xor, Des.right_xor]

theorem index_eq (x : ULong) (s : Nat) :
    ((x >>> s) &&& 0xF).toNat = (x.extractLsb' s 4).toNat := by
  rw [BitVec.toNat_and, BitVec.toNat_ushiftRight, BitVec.extractLsb'_toNat]
  exact Nat.and_two_pow_sub_one_eq_mod _ 4

/-- The tables spread four bits over the four bytes of a word. -/
theorem getLsbD_hs : ∀ n : BitVec 4, ∀ i < 32,
    (lHs.getD n.toNat 0).getLsbD i = (decide (i % 8 = 0) && n.getLsbD (i / 8)) ∧
      (rHs.getD n.toNat 0).getLsbD i = (decide (i % 8 = 0) && n.getLsbD (3 - i / 8)) := by
  decide

theorem getLsbD_lHs (x : ULong) (s : Nat) {i : Nat} (hi : i < 32) :
    (lHs.getD ((x >>> s) &&& 0xF).toNat 0).getLsbD i =
      (decide (i % 8 = 0) && x.getLsbD (s + i / 8)) := by
  rw [index_eq, (getLsbD_hs _ i hi).1, BitVec.getLsbD_extractLsb',
    decide_eq_true (show i / 8 < 4 by omega), Bool.true_and]

theorem getLsbD_rHs (x : ULong) (s : Nat) {i : Nat} (hi : i < 32) :
    (rHs.getD ((x >>> s) &&& 0xF).toNat 0).getLsbD i =
      (decide (i % 8 = 0) && x.getLsbD (s + (3 - i / 8))) := by
  rw [index_eq, (getLsbD_hs _ i hi).2, BitVec.getLsbD_extractLsb',
    decide_eq_true (show 3 - i / 8 < 4 by omega), Bool.true_and]

/-- A block of eight bytes. -/
def blockOf (b : Nat → UInt8) : BitVec 64 := getUint32 b 0 ++ getUint32 b 4

/-- From which bit of the word the bits of a residue modulo 8 come, in permuted choice 1. -/
def leftShifts : List Nat := [24, 16, 8, 0, 29, 21, 13, 5]

def rightShifts : List Nat := [25, 17, 9, 1, 28, 20, 12, 4]

/-- What the code reads from its tables for the left half of the key. -/
def leftLookups (x : ULong) : ULong :=
  let lh (s : Nat) : ULong := lHs.getD ((x >>> s) &&& 0xF).toNat 0
  (lh 0 <<< 3) ||| (lh 8 <<< 2) ||| (lh 16 <<< 1) ||| lh 24
    ||| (lh 5 <<< 7) ||| (lh 13 <<< 6) ||| (lh 21 <<< 5) ||| (lh 29 <<< 4)

def rightLookups (y : ULong) : ULong :=
  let rh (s : Nat) : ULong := rHs.getD ((y >>> s) &&& 0xF).toNat 0
  (rh 1 <<< 3) ||| (rh 9 <<< 2) ||| (rh 17 <<< 1) ||| rh 25
    ||| (rh 4 <<< 7) ||| (rh 12 <<< 6) ||| (rh 20 <<< 5) ||| (rh 28 <<< 4)

theorem getLsbD_leftLookups (x : ULong) {i : Nat} (hi : i < 28) :
    (leftLookups x).getLsbD i = x.getLsbD (leftShifts.getD (i % 8) 0 + i / 8) := by
  have hlookup : ∀ s k, (lHs.getD ((x >>> s) &&& 0xF).toNat 0).getLsbD (i - k) =
      (decide ((i - k) % 8 = 0) && x.getLsbD (s + (i - k) / 8)) := fun s k =>
    getLsbD_lHs x s (by omega)
  have hplain : ∀ s, (lHs.getD ((x >>> s) &&& 0xF).toNat 0).getLsbD i =
      (decide (i % 8 = 0) && x.getLsbD (s + i / 8)) := fun s => getLsbD_lHs x s (by omega)
  simp only [leftLookups, BitVec.getLsbD_or, BitVec.getLsbD_shiftLeft, hlookup, hplain]
  interval_cases i <;> simp [leftShifts]

theorem getLsbD_rightLookups (y : ULong) {i : Nat} (hi : i < 28) :
    (rightLookups y).getLsbD i = y.getLsbD (rightShifts.getD (i % 8) 0 + (3 - i / 8)) := by
  have hlookup : ∀ s k, (rHs.getD ((y >>> s) &&& 0xF).toNat 0).getLsbD (i - k) =
      (decide ((i - k) % 8 = 0) && y.getLsbD (s + (3 - (i - k) / 8))) := fun s k =>
    getLsbD_rHs y s (by omega)
  have hplain : ∀ s, (rHs.getD ((y >>> s) &&& 0xF).toNat 0).getLsbD i =
      (decide (i % 8 = 0) && y.getLsbD (s + (3 - i / 8))) := fun s => getLsbD_rHs y s (by omega)
  simp only [rightLookups, BitVec.getLsbD_or, BitVec.getLsbD_shiftLeft, hlookup, hplain]
  interval_cases i <;> simp [rightShifts]

/-- Permuted choice 1: the exchanges and the tables together choose the bits of the
specification. -/
theorem permutedChoice1_eq (key : Nat → UInt8) : permutedChoice1 key =
    (((Des.permute 56 Des.pc1 (blockOf key)).extractLsb' 28 28).setWidth 32,
      ((Des.permute 56 Des.pc1 (blockOf key)).extractLsb' 0 28).setWidth 32) := by
  have hfirst := firstChoice_eq (blockOf key)
  have hkey : Des.left (blockOf key) = getUint32 key 0 ∧
      Des.right (blockOf key) = getUint32 key 4 :=
    ⟨Des.left_append _ _, Des.right_append _ _⟩
  rw [hkey.1, hkey.2] at hfirst
  have hcode : permutedChoice1 key =
      (leftLookups (Des.left (Des.permute 64 firstChoice (blockOf key))) &&& 0x0FFFFFFF,
        rightLookups (Des.right (Des.permute 64 firstChoice (blockOf key))) &&& 0x0FFFFFFF) := by
    have hleft : _ = Des.left _ := congrArg Prod.fst hfirst
    have hright : _ = Des.right _ := congrArg Prod.snd hfirst
    rw [← hleft, ← hright]
    rfl
  have hmask : ∀ x : ULong, ∀ c : BitVec 28, (∀ i < 28, x.getLsbD i = c.getLsbD i) →
      x &&& 0x0FFFFFFF = c.setWidth 32 := by
    intro x c h
    apply BitVec.eq_of_getLsbD_eq
    intro i hi
    rw [BitVec.getLsbD_and, BitVec.getLsbD_setWidth, decide_eq_true hi, Bool.true_and]
    by_cases hlt : i < 28
    · rw [h i hlt]
      interval_cases i <;> simp
    · rw [BitVec.getLsbD_of_ge c i (by omega)]
      interval_cases i <;> simp
  rw [hcode]
  refine Prod.ext (hmask _ _ fun i hi => ?_) (hmask _ _ fun i hi => ?_)
  · have hshift : leftShifts.getD (i % 8) 0 + i / 8 < 32 := by
      interval_cases i <;> decide
    have htable : firstChoice.getD (31 - (leftShifts.getD (i % 8) 0 + i / 8)) 0 =
        Des.pc1.getD (27 - i) 0 := by
      interval_cases i <;> rfl
    rw [getLsbD_leftLookups _ hi, Des.left, BitVec.getLsbD_extractLsb', BitVec.getLsbD_extractLsb',
      decide_eq_true hshift, decide_eq_true hi, Bool.true_and, Bool.true_and,
      Des.getLsbD_permute (by omega), Des.getLsbD_permute (by omega),
      show 64 - 1 - (32 + (leftShifts.getD (i % 8) 0 + i / 8)) =
        31 - (leftShifts.getD (i % 8) 0 + i / 8) by omega, htable,
      show 56 - 1 - (28 + i) = 27 - i by omega]
  · have hshift : rightShifts.getD (i % 8) 0 + (3 - i / 8) < 32 := by
      interval_cases i <;> decide
    have htable : firstChoice.getD (63 - (rightShifts.getD (i % 8) 0 + (3 - i / 8))) 0 =
        Des.pc1.getD (55 - i) 0 := by
      interval_cases i <;> rfl
    rw [getLsbD_rightLookups _ hi, Des.right, BitVec.getLsbD_extractLsb',
      BitVec.getLsbD_extractLsb', decide_eq_true hshift, decide_eq_true hi, Bool.true_and,
      Bool.true_and, Nat.zero_add, Nat.zero_add, Des.getLsbD_permute (by omega),
      Des.getLsbD_permute (by omega), htable]

theorem subkeyLoop_eq {is : List Nat} (h : ∀ i ∈ is, i < 16) (c d : BitVec 28) :
    subkeyLoop is (c.setWidth 32, d.setWidth 32) =
      (Des.subkeys (is.map fun i => Des.rotations.getD i 0) c d).map packKey := by
  induction is generalizing c d with
  | nil => rfl
  | cons i is ih =>
    have hi : i < 16 := h i List.mem_cons_self
    rw [subkeyLoop, List.map_cons, Des.subkeys, List.map_cons, rotateHalf_eq hi, rotateHalf_eq hi,
      subkeys_eq, ih fun i hi => h i (List.mem_cons_of_mem _ hi)]

theorem desMainKs_eq (key : Nat → UInt8) :
    desMainKs key = (Des.keySchedule (blockOf key)).map packKey := by
  rw [desMainKs, permutedChoice1_eq, subkeyLoop_eq fun i hi => List.mem_range.mp hi]
  rfl

/-- A round of the code on the rotated words is a round of the specification. -/
theorem desRound_xor (k : BitVec 48) (x y : BitVec 32) :
    rotl1 x ^^^ desRound (packKey k) (rotl1 y) = rotl1 (x ^^^ Des.f k y) := by
  rw [desRound_eq, rotl1_xor]

theorem desRounds_eq (ks : List (BitVec 48)) (b : BitVec 32 × BitVec 32) :
    desRounds (ks.map packKey) (b.map rotl1 rotl1) =
      (Feistel.rounds (· ^^^ ·) Des.f ks b).map rotl1 rotl1 :=
  Feistel.rounds_map packKey rotl1 desRound_xor ks b

/-- The two words of a block. -/
def words (b : BitVec 64) : ULong × ULong := (Des.left b, Des.right b)

theorem words_append (x y : BitVec 32) : words (x ++ y) = (x, y) :=
  Prod.ext (Des.left_append x y) (Des.right_append x y)

theorem words_blockOf (b : Nat → UInt8) : words (blockOf b) = getBlock b :=
  words_append _ _

/-- The words that `des_crypt` makes of a block are those of the specification. -/
theorem desWords_eq (ks : List (BitVec 48)) (b : BitVec 64) :
    desWords (ks.map packKey) (words b) = words (Des.crypt ks b) := by
  have hinit : desIp (words b) = (words (Des.permute 64 Des.ip b)).map rotl1 rotl1 := desIp_eq b
  have hfinal : ∀ c, desFp ((words c).map rotl1 rotl1) = words (Des.permute 64 Des.fp c) := by
    intro c
    have hback := desIp_eq (Des.permute 64 Des.fp c)
    rw [Des.permute_ip_fp] at hback
    rw [← desFp_desIp (words (Des.permute 64 Des.fp c))]
    exact congrArg desFp hback.symm
  rw [desWords, hinit, desRounds_eq, Des.crypt, ← hfinal, words_append]
  rfl

theorem des3Words_eq {ks₁ ks₂ : List (BitVec 48)} (h₁ : ks₁.length = 16) (h₂ : ks₂.length = 16)
    (ks₃ : List (BitVec 48)) (b : BitVec 64) :
    des3Words (ks₁.map packKey ++ ks₂.map packKey ++ ks₃.map packKey) (words b) =
      words (Des.crypt ks₃ (Des.crypt ks₂ (Des.crypt ks₁ b))) := by
  rw [des3Words_stages (by rwa [List.length_map]) (by rwa [List.length_map]), ← desWords_eq,
    ← desWords_eq, ← desWords_eq, desWords, desWords, desWords, desIp_desFp, desIp_desFp]

/-- The eight bytes of a block. -/
def bytesOf (b : BitVec 64) : Vector UInt8 8 := putBlock (words b)

theorem length_packed (key : Nat → UInt8) :
    (Des.keySchedule (blockOf key)).reverse.length = 16 := by
  rw [List.length_reverse, Des.length_keySchedule]

/-- A pass over a block, in the direction of the flag. -/
def desBlock (direct : Nat) (key b : BitVec 64) : BitVec 64 :=
  if direct = 1 then Des.decrypt key b else Des.encrypt key b

theorem libDes_eq (input key : Nat → UInt8) (direct : Nat) :
    libDes input key direct = bytesOf (desBlock direct (blockOf key) (blockOf input)) := by
  rw [libDes, desBlock]
  split
  · rw [desCrypt, desSetKey, desMainKs_eq, ← List.map_reverse, ← words_blockOf, desWords_eq]
    rfl
  · rw [desCrypt, desSetKey, desMainKs_eq, ← words_blockOf, desWords_eq]
    rfl

/-- Triple-DES with two keys. -/
def des3Block (direct : Nat) (key key' b : BitVec 64) : BitVec 64 :=
  if direct = 1 then Des.decrypt key (Des.encrypt key' (Des.decrypt key b))
  else Des.encrypt key (Des.decrypt key' (Des.encrypt key b))

theorem libDes3_eq (input key : Nat → UInt8) (direct : Nat) : libDes3 input key direct =
    bytesOf (des3Block direct (blockOf key) (blockOf fun i => key (8 + i)) (blockOf input)) := by
  rw [libDes3, des3Block]
  split
  · simp only [des3Crypt, des3Set2keys, desMainKs_eq, ← List.map_reverse]
    rw [← words_blockOf, des3Words_eq (length_packed key) (Des.length_keySchedule _)]
    rfl
  · simp only [des3Crypt, des3Set2keys, desMainKs_eq, ← List.map_reverse]
    rw [← words_blockOf, des3Words_eq (Des.length_keySchedule _) (length_packed _)]
    rfl

/-- `lib_des` and `lib_des3` on a block are DES and Triple-DES with two keys as specified, in
both directions. -/
theorem libDes_standard (input key : Nat → UInt8) (direct : Nat) :
    libDes input key direct = bytesOf (desBlock direct (blockOf key) (blockOf input)) ∧
      libDes3 input key direct =
        bytesOf (des3Block direct (blockOf key) (blockOf fun i => key (8 + i)) (blockOf input)) :=
  ⟨libDes_eq input key direct, libDes3_eq input key direct⟩

theorem getMsbD_blockOf (b : Nat → UInt8) {i : Nat} (hi : i < 64) :
    (blockOf b).getMsbD i = (b (i / 8)).toBitVec.getMsbD (i % 8) := by
  rw [blockOf, BitVec.getMsbD_append]
  interval_cases i <;> simp [getUint32]

/-- The lowest bit of a byte of a key is not read. -/
theorem keySchedule_parity {key key' : Nat → UInt8} (h : ∀ i < 8, key i >>> 1 = key' i >>> 1) :
    Des.keySchedule (blockOf key) = Des.keySchedule (blockOf key') := by
  have hchoice : ∀ i < 56, Des.pc1.getD i 0 - 1 < 64 ∧ (Des.pc1.getD i 0 - 1) % 8 + 1 < 8 := by
    decide
  apply Des.keySchedule_congr
  intro i hi
  obtain ⟨hlt, hbit⟩ := hchoice i hi
  generalize Des.pc1.getD i 0 - 1 = j at hlt hbit
  have hbyte := congrArg (fun n : UInt8 => n.toBitVec.getMsbD (j % 8 + 1)) (h (j / 8) (by omega))
  rw [getMsbD_blockOf _ hlt, getMsbD_blockOf _ hlt]
  simpa [hbit] using hbyte

/-- If the two keys differ only in the bits that are not read, then the second and the
third pass of Triple-DES undo each other, and the result is that of DES. -/
theorem libDes3_equal_keys (input : Nat → UInt8) {key : Nat → UInt8} (direct : Nat)
    (h : ∀ i < 8, key (8 + i) >>> 1 = key i >>> 1) :
    libDes3 input key direct = libDes input key direct := by
  have hkeys : Des.keySchedule (blockOf fun i => key (8 + i)) = Des.keySchedule (blockOf key) :=
    keySchedule_parity h
  rw [libDes3_eq, libDes_eq, des3Block, desBlock]
  split
  · rw [Des.encrypt, hkeys, ← Des.encrypt, Des.encrypt_decrypt]
  · rw [Des.decrypt, hkeys, ← Des.decrypt, Des.decrypt_encrypt]

/-- A second key that differs in every byte, in the bit that is not read. -/
theorem libDes3_parity_keys : libDes3 (fun _ => 0) (fun i => if i < 8 then 0 else 1) 0 =
    libDes (fun _ => 0) (fun i => if i < 8 then 0 else 1) 0 :=
  libDes3_equal_keys _ 0 (by decide)

theorem blockOf_not (b : Nat → UInt8) : blockOf (fun i => ~~~b i) = ~~~blockOf b := by
  apply BitVec.eq_of_getMsbD_eq
  intro i hi
  have hbit : i % 8 < 8 := Nat.mod_lt _ (by decide)
  rw [getMsbD_blockOf _ hi, BitVec.getMsbD_not, getMsbD_blockOf _ hi]
  simp [hi, hbit]

theorem putUint32_not (n : ULong) : putUint32 (~~~n) = (putUint32 n).map (~~~·) := by
  have hbyte : ∀ s ≤ 24, (⟨((~~~n) >>> s).setWidth 8⟩ : UInt8) = ~~~⟨(n >>> s).setWidth 8⟩ := by
    intro s hs
    rw [← UInt8.toBitVec_inj, UInt8.toBitVec_not]
    ext i hi
    have hin : s + i < 32 := by omega
    simp [hin]
  apply Vector.ext
  intro k hk
  rw [Vector.getElem_map]
  interval_cases k
  · exact hbyte 24 (by decide)
  · exact hbyte 16 (by decide)
  · exact hbyte 8 (by decide)
  · exact hbyte 0 (by decide)

theorem bytesOf_not (v : BitVec 64) : bytesOf (~~~v) = (bytesOf v).map (~~~·) := by
  rw [bytesOf, words, Des.left_not, Des.right_not, putBlock, putUint32_not, putUint32_not,
    ← Vector.map_append]
  rfl

/-- The block, the keys and the result complemented together. -/
theorem libDes_complement (input key : Nat → UInt8) (direct : Nat) :
    libDes (fun i => ~~~input i) (fun i => ~~~key i) direct =
        (libDes input key direct).map (~~~·) ∧
      libDes3 (fun i => ~~~input i) (fun i => ~~~key i) direct =
        (libDes3 input key direct).map (~~~·) := by
  have hkey : blockOf (fun i => ~~~key (8 + i)) = ~~~blockOf fun i => key (8 + i) := blockOf_not _
  constructor
  · rw [libDes_eq, libDes_eq, blockOf_not, blockOf_not, ← bytesOf_not, desBlock, desBlock]
    split
    · rw [Des.decrypt_not]
    · rw [Des.encrypt_not]
  · rw [libDes3_eq, libDes3_eq, hkey, blockOf_not, blockOf_not, ← bytesOf_not, des3Block, des3Block]
    split
    · rw [Des.decrypt_not, Des.encrypt_not, Des.decrypt_not]
    · rw [Des.encrypt_not, Des.decrypt_not, Des.encrypt_not]

end BackupSoftware.Encryption

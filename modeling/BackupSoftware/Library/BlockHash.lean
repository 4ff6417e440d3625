import Mathlib.Tactic.IntervalCases
import BackupSoftware.Library.Memory

/-!
# Hashing in blocks

A hash function that compresses a message block by block can be given the message in
pieces: what is left of a block is kept until the next piece completes it. State and
rest depend on the bytes given so far, not on how they were cut. The last part is the
padding to blocks of 64 bytes that end with the length of the message.
-/

namespace BackupSoftware.Library.BlockHash

open Memory

variable {σ α : Type}

/-- One item more, after the state and the start of a block: a full block is compressed. -/
def absorbOne (n : Nat) (compress : σ → List α → σ) (c : σ × List α) (a : α) : σ × List α :=
  if c.2.length + 1 = n then (compress c.1 (c.2 ++ [a]), []) else (c.1, c.2 ++ [a])

def absorb (n : Nat) (compress : σ → List α → σ) (c : σ × List α) (l : List α) : σ × List α :=
  l.foldl (absorbOne n compress) c

/-- The state after the full blocks of the message, one after the other. -/
def hashBlocks (n : Nat) (compress : σ → List α → σ) (s : σ) (l : List α) : σ :=
  (List.range (l.length / n)).foldl (fun s i => compress s ((l.drop (n * i)).take n)) s

variable {n : Nat} {compress : σ → List α → σ}

@[simp] theorem absorb_nil (c : σ × List α) : absorb n compress c [] = c := rfl

theorem absorb_append (c : σ × List α) (l l' : List α) :
    absorb n compress c (l ++ l') = absorb n compress (absorb n compress c l) l' :=
  List.foldl_append

/-- What does not complete the block is added to it. -/
theorem absorb_short {c : σ × List α} {l : List α} (h : c.2.length + l.length < n) :
    absorb n compress c l = (c.1, c.2 ++ l) := by
  induction l generalizing c with
  | nil => rw [absorb_nil, List.append_nil]
  | cons a l ih =>
    rw [List.length_cons] at h
    have hstep : absorbOne n compress c a = (c.1, c.2 ++ [a]) := if_neg (by omega)
    show absorb n compress (absorbOne n compress c a) l = _
    rw [hstep, ih (by simp only [List.length_append, List.length_singleton]; omega)]
    simp only [List.append_assoc, List.singleton_append]

/-- What just completes the block leads to its compression. -/
theorem absorb_full {c : σ × List α} {l : List α} (hlt : c.2.length < n)
    (h : c.2.length + l.length = n) :
    absorb n compress c l = (compress c.1 (c.2 ++ l), []) := by
  obtain ⟨init, a, rfl⟩ : ∃ init a, l = init ++ [a] := by
    rcases List.eq_nil_or_concat l with rfl | ⟨init, a, rfl⟩
    · exact absurd h (by rw [List.length_nil]; omega)
    · exact ⟨init, a, List.concat_eq_append⟩
  rw [List.length_append, List.length_singleton] at h
  rw [absorb_append, absorb_short (l := init) (by omega)]
  show absorbOne n compress (c.1, c.2 ++ init) a = _
  rw [absorbOne, if_pos (by rw [List.length_append]; omega), List.append_assoc]

theorem absorb_block (hn : 0 < n) (s : σ) {l : List α} (h : l.length = n) :
    absorb n compress (s, []) l = (compress s l, []) := by
  have hfull : absorb n compress (s, []) l = (compress s ([] ++ l), []) :=
    absorb_full hn (by simpa using h)
  rwa [List.nil_append] at hfull

theorem hashBlocks_concat (hn : 0 < n) (s : σ) {l b : List α} (hl : n ∣ l.length)
    (hb : b.length = n) : hashBlocks n compress s (l ++ b) =
      compress (hashBlocks n compress s l) b := by
  obtain ⟨k, hk⟩ := hl
  have hdiv : l.length / n = k := by rw [hk, Nat.mul_div_cancel_left k hn]
  have hdiv' : (l ++ b).length / n = k + 1 := by
    rw [List.length_append, hb, hk, Nat.add_div_right _ hn, Nat.mul_div_cancel_left k hn]
  rw [hashBlocks, hashBlocks, hdiv, hdiv', List.range_succ, List.foldl_append]
  have hinit : (List.range k).foldl (fun s i => compress s (((l ++ b).drop (n * i)).take n)) s =
      (List.range k).foldl (fun s i => compress s ((l.drop (n * i)).take n)) s := by
    apply List.foldl_ext
    intro s i hi
    have hlt : n * (i + 1) ≤ n * k := Nat.mul_le_mul_left n (List.mem_range.mp hi)
    rw [Nat.mul_add, Nat.mul_one] at hlt
    rw [List.drop_append_of_le_length (by omega),
      List.take_append_of_le_length (by rw [List.length_drop]; omega)]
  rw [hinit]
  show compress _ (((l ++ b).drop (n * k)).take n) = _
  rw [List.drop_left' hk, List.take_of_length_le (Nat.le_of_eq hb)]

/-- A message of whole blocks leaves nothing over. -/
theorem absorb_blocks (hn : 0 < n) (s : σ) {l : List α} (hl : n ∣ l.length) :
    absorb n compress (s, []) l = (hashBlocks n compress s l, []) := by
  obtain ⟨k, hk⟩ := hl
  induction k generalizing l with
  | zero =>
    rw [List.eq_nil_of_length_eq_zero hk]
    simp [hashBlocks]
  | succ k ih =>
    have hinit : (l.take (n * k)).length = n * k := by
      rw [List.length_take, hk, Nat.mul_succ]
      omega
    have hlast : (l.drop (n * k)).length = n := by
      rw [List.length_drop, hk, Nat.mul_succ]
      omega
    rw [← List.take_append_drop (n * k) l, absorb_append, ih hinit, absorb_block hn _ hlast,
      hashBlocks_concat hn s ⟨k, hinit⟩ hlast]

/-- Blocks that are compressed where they stand in memory. -/
theorem absorb_load (hn : 0 < n) (s : σ) (m : Nat → α) (p k : Nat) :
    absorb n compress (s, []) (load m p (n * k)) =
      ((List.range k).foldl (fun s i => compress s (load m (p + n * i) n)) s, []) := by
  induction k with
  | zero => rfl
  | succ k ih =>
    rw [Nat.mul_succ, load_add, absorb_append, ih, absorb_block hn _ (length_load _ _ _),
      List.range_succ, List.foldl_append]
    rfl

/-- The buffer after a copy to it from index `off` on; `none` if the copy leaves it. -/
def copyTo (buf : List α) (off : Nat) (src : List α) : Option (List α) :=
  if off + src.length ≤ buf.length then
    some (buf.take off ++ src ++ buf.drop (off + src.length))
  else none

theorem copyTo_eq (buf : List α) (off : Nat) (src : List α) (h : off + src.length ≤ buf.length) :
    ∃ buf', copyTo buf off src = some buf' ∧ buf'.length = buf.length ∧
      buf'.take (off + src.length) = buf.take off ++ src := by
  have hoff : (buf.take off ++ src).length = off + src.length := by
    rw [List.length_append, List.length_take]
    omega
  refine ⟨_, if_pos h, ?_, List.take_left' hoff⟩
  rw [List.length_append, hoff, List.length_drop]
  omega

/-- The lowest `k` bytes of a number, the lowest first. -/
def littleEndian : Nat → Nat → List UInt8
  | 0, _ => []
  | k + 1, n => UInt8.ofNat n :: littleEndian k (n / 256)

theorem length_littleEndian (k n : Nat) : (littleEndian k n).length = k := by
  induction k generalizing n with
  | zero => rfl
  | succ k ih => rw [littleEndian, List.length_cons, ih]

theorem littleEndian_add (j k n : Nat) :
    littleEndian (j + k) n = littleEndian j n ++ littleEndian k (n / 256 ^ j) := by
  induction j generalizing n with
  | zero => rw [Nat.zero_add, Nat.pow_zero, Nat.div_one]; rfl
  | succ j ih =>
    rw [Nat.succ_add, littleEndian, ih, littleEndian, List.cons_append, Nat.pow_succ,
      Nat.mul_comm, Nat.div_div_eq_div_mul]

theorem littleEndian_congr {n n' : Nat} (h : n % 0x100000000 = n' % 0x100000000) :
    littleEndian 4 n = littleEndian 4 n' := by
  have hbyte : ∀ {a b : Nat}, a % 256 = b % 256 → UInt8.ofNat a = UInt8.ofNat b := fun {a b} h => by
    apply UInt8.toNat_inj.mp
    rwa [UInt8.toNat_ofNat', UInt8.toNat_ofNat']
  simp only [littleEndian]
  rw [hbyte (show n % 256 = n' % 256 by omega),
    hbyte (show n / 256 % 256 = n' / 256 % 256 by omega),
    hbyte (show n / 256 / 256 % 256 = n' / 256 / 256 % 256 by omega),
    hbyte (show n / 256 / 256 / 256 % 256 = n' / 256 / 256 / 256 % 256 by omega)]

/-- The bytes of a word, by shifts. -/
theorem littleEndian_word (w : BitVec 32) : littleEndian 4 w.toNat =
    [⟨w.setWidth 8⟩, ⟨(w >>> 8).setWidth 8⟩, ⟨(w >>> 16).setWidth 8⟩, ⟨(w >>> 24).setWidth 8⟩] := by
  have hbyte : ∀ (v : BitVec 32) (n : Nat), v.toNat = n →
      UInt8.ofNat n = (⟨v.setWidth 8⟩ : UInt8) := by
    intro v n hv
    rw [← hv]
    rfl
  have hshift : ∀ k, (w >>> k).toNat = w.toNat / 2 ^ k := fun k => by
    rw [BitVec.toNat_ushiftRight, Nat.shiftRight_eq_div_pow]
  simp only [littleEndian]
  rw [hbyte w _ rfl, hbyte (w >>> 8) (w.toNat / 256) (hshift 8),
    hbyte (w >>> 16) (w.toNat / 256 / 256) (by rw [hshift]; omega),
    hbyte (w >>> 24) (w.toNat / 256 / 256 / 256) (by rw [hshift]; omega)]

/-- The lowest `k` bytes of a number, the highest first. -/
def bigEndian (k n : Nat) : List UInt8 := (littleEndian k n).reverse

theorem length_bigEndian (k n : Nat) : (bigEndian k n).length = k := by
  rw [bigEndian, List.length_reverse, length_littleEndian]

theorem bigEndian_congr {n n' : Nat} (h : n % 0x10000000000000000 = n' % 0x10000000000000000) :
    bigEndian 8 n = bigEndian 8 n' := by
  have hlow : littleEndian 4 n = littleEndian 4 n' := littleEndian_congr (by omega)
  have hhigh : littleEndian 4 (n / 256 ^ 4) = littleEndian 4 (n' / 256 ^ 4) :=
    littleEndian_congr (by omega)
  rw [bigEndian, bigEndian, littleEndian_add 4 4, littleEndian_add 4 4, hlow,
    hhigh]

/-- The message, a first byte of padding, zeros up to the last eight bytes of a block, and
there the length. -/
def padded (lengthBytes : Nat → List UInt8) (msg : List UInt8) : List UInt8 :=
  msg ++ 0x80 :: List.replicate ((119 - msg.length % 64) % 64) 0 ++ lengthBytes msg.length

theorem length_padded {lengthBytes : Nat → List UInt8} (h : ∀ k, (lengthBytes k).length = 8)
    (msg : List UInt8) : 64 ∣ (padded lengthBytes msg).length := by
  simp only [padded, List.length_append, List.length_cons, List.length_replicate, h]
  omega

/-- A word of four bytes, from the highest down, by shifts. -/
theorem append_eq_or (a b c d : BitVec 8) : a ++ b ++ c ++ d =
    (a.setWidth 32 <<< 24) ||| (b.setWidth 32 <<< 16) ||| (c.setWidth 32 <<< 8)
      ||| d.setWidth 32 := by
  apply BitVec.eq_of_getLsbD_eq
  intro j hj
  simp only [BitVec.getLsbD_append, BitVec.getLsbD_or, BitVec.getLsbD_shiftLeft,
    BitVec.getLsbD_setWidth]
  interval_cases j <;> simp

end BackupSoftware.Library.BlockHash

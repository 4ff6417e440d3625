import Mathlib.Logic.Equiv.Basic
import BackupSoftware.Library.Blocks

/-!
# AES on whole buffers

`lib_aes_encrypt` and `lib_aes_decrypt`. The block functions they call are parameters:
`aes_encrypt` and `aes_decrypt` read all of their input block before they write the
output block, so each is a function of the block. Both buffer functions work in the
caller's memory: the full blocks, a last block that is not full, and then the first
block once more.
-/

namespace BackupSoftware.Encryption

open Library

/-- The block functions of `encryption/aes.c`. `setKey` is the context that
`aes_set_key` makes of a context of zeros. -/
structure AesBlocks (Ctx : Type) where
  setKey : (Nat → UInt8) → UInt32 → Ctx
  encrypt : Ctx → Vector UInt8 16 → Vector UInt8 16
  decrypt : Ctx → Vector UInt8 16 → Vector UInt8 16

/-- The memory after the block function was called on the blocks that the buffer
functions pass to it, in their order. -/
def aesBuffer (crypt : Vector UInt8 16 → Vector UInt8 16) (mem : Nat → UInt8) (out inp : Nat)
    (inlen : Int) : Nat → UInt8 :=
  let i := (inlen.tdiv 16).toNat
  let mem := Blocks.mapBlocks crypt inp out (List.range i) mem
  let mem := if inlen.tmod 16 > 0 then Blocks.mapBlocks crypt inp out [i] mem else mem
  Blocks.mapBlocks crypt inp out [0] mem

variable {Ctx : Type}

/-- `lib_aes_encrypt`. -/
def libAesEncrypt (aes : AesBlocks Ctx) (mem : Nat → UInt8) (out inp : Nat) (inlen : Int)
    (key : Nat → UInt8) (keysize : UInt32) : Nat → UInt8 :=
  aesBuffer (aes.encrypt (aes.setKey key keysize)) mem out inp inlen

/-- `lib_aes_decrypt`. -/
def libAesDecrypt (aes : AesBlocks Ctx) (mem : Nat → UInt8) (out inp : Nat) (inlen : Int)
    (key : Nat → UInt8) (keysize : UInt32) : Nat → UInt8 :=
  aesBuffer (aes.decrypt (aes.setKey key keysize)) mem out inp inlen

/-- The number of blocks of a buffer of `inlen` bytes, the last one rounded up. -/
def blockCount (inlen : Int) : Nat := (inlen.toNat + 15) / 16

/-- The blocks that are processed, in their order. -/
def processed (inlen : Int) : List Nat :=
  List.range (inlen.tdiv 16).toNat ++ (if inlen.tmod 16 > 0 then [(inlen.tdiv 16).toNat] else []) ++
    [0]

theorem aesBuffer_eq (crypt : Vector UInt8 16 → Vector UInt8 16) (mem : Nat → UInt8)
    (out inp : Nat) (inlen : Int) :
    aesBuffer crypt mem out inp inlen = Blocks.mapBlocks crypt inp out (processed inlen) mem := by
  unfold aesBuffer processed
  rw [Blocks.mapBlocks_append, Blocks.mapBlocks_append]
  split <;> rfl

/-- The blocks of the buffer in their order, and the first one once more. -/
theorem processed_eq (inlen : Int) : processed inlen = List.range (blockCount inlen) ++ [0] := by
  unfold processed blockCount
  by_cases hpos : 0 ≤ inlen
  · obtain ⟨n, rfl⟩ := Int.eq_ofNat_of_zero_le hpos
    have hdiv : ((n : Int).tdiv 16).toNat = n / 16 := rfl
    have hmod : (n : Int).tmod 16 > 0 ↔ 0 < n % 16 := Int.natCast_pos
    rw [hdiv, Int.toNat_natCast]
    by_cases hrest : 0 < n % 16
    · rw [if_pos (hmod.mpr hrest), show (n + 15) / 16 = n / 16 + 1 by omega, List.range_succ]
    · rw [if_neg fun h => hrest (hmod.mp h), show (n + 15) / 16 = n / 16 by omega, List.append_nil]
  · obtain ⟨n, rfl⟩ : ∃ n : Nat, inlen = -n := ⟨inlen.natAbs, by omega⟩
    have hdiv : (n : Int).tdiv 16 = ((n / 16 : Nat) : Int) := rfl
    have hmod : (n : Int).tmod 16 = ((n % 16 : Nat) : Int) := rfl
    have hzero : (-(n : Int)).toNat = 0 := by omega
    rw [Int.neg_tdiv, Int.neg_tmod, hdiv, hmod, if_neg (by omega), hzero]
    rw [show (-((n / 16 : Nat) : Int)).toNat = 0 by omega]
    rfl

/-- The blocks processed are those of the buffer; the first one, which is processed
again at the end, is one of them as soon as there is a byte. -/
theorem mem_processed_iff {inlen : Int} (hpos : 1 ≤ inlen) {k : Nat} :
    k ∈ processed inlen ↔ k < blockCount inlen := by
  have hcount : 0 < blockCount inlen := by
    unfold blockCount
    omega
  rw [processed_eq, List.mem_append, List.mem_range, List.mem_singleton]
  omega

/-- With buffers that do not overlap, every block of `out` is the block function of the
same block of `in`. -/
theorem block_aesBuffer (crypt : Vector UInt8 16 → Vector UInt8 16) (mem : Nat → UInt8)
    {out inp : Nat} {inlen : Int} (hpos : 1 ≤ inlen)
    (hdisjoint : inp + 16 * blockCount inlen ≤ out ∨ out + 16 * blockCount inlen ≤ inp)
    {k : Nat} (hk : k < blockCount inlen) :
    Blocks.block 16 (aesBuffer crypt mem out inp inlen) (out + 16 * k) =
      crypt (Blocks.block 16 mem (inp + 16 * k)) := by
  have hblocks : ∀ j ∈ processed inlen, j < blockCount inlen :=
    fun j hj => (mem_processed_iff hpos).mp hj
  rw [aesBuffer_eq, Blocks.mapBlocks_eq_fill crypt hdisjoint hblocks,
    Blocks.block_fill _ _ _ ((mem_processed_iff hpos).mpr hk)]

/-- Every block is encrypted, and a call of `lib_aes_decrypt` on the output, to a buffer
that does not overlap it, restores the message. -/
theorem aes_round_trip (aes : AesBlocks Ctx) (key : Nat → UInt8) (keysize : UInt32)
    (hinverse : ∀ b, aes.decrypt (aes.setKey key keysize) (aes.encrypt (aes.setKey key keysize) b) = b)
    (mem : Nat → UInt8) (out inp : Nat) (inlen : Int) (hpos : 1 ≤ inlen)
    (hdisjoint : inp + 16 * blockCount inlen ≤ out ∨ out + 16 * blockCount inlen ≤ inp) :
    (∀ k, k < blockCount inlen →
        Blocks.block 16 (libAesEncrypt aes mem out inp inlen key keysize) (out + 16 * k) =
          aes.encrypt (aes.setKey key keysize) (Blocks.block 16 mem (inp + 16 * k))) ∧
      ∀ dest, out + 16 * blockCount inlen ≤ dest ∨ dest + 16 * blockCount inlen ≤ out →
        Memory.load (libAesDecrypt aes (libAesEncrypt aes mem out inp inlen key keysize) dest out
            inlen key keysize) dest inlen.toNat =
          Memory.load mem inp inlen.toNat := by
  have hencrypted : ∀ k, k < blockCount inlen →
      Blocks.block 16 (libAesEncrypt aes mem out inp inlen key keysize) (out + 16 * k) =
        aes.encrypt (aes.setKey key keysize) (Blocks.block 16 mem (inp + 16 * k)) :=
    fun k hk => block_aesBuffer _ mem hpos hdisjoint hk
  refine ⟨hencrypted, fun dest hdest => ?_⟩
  have hle : inlen.toNat ≤ 16 * blockCount inlen := by
    unfold blockCount
    omega
  refine Blocks.load_eq_of_le (Blocks.load_eq_of_blocks fun k hk => ?_) hle
  rw [libAesDecrypt, block_aesBuffer _ _ hpos hdest hk, hencrypted k hk, hinverse]

/-! Two blocks under the key 00 01 .. 0F of 128 bits, the plaintext of the example of
FIPS-197 and a block of zeros, and what AES makes of them. -/

def plainExample : Vector UInt8 16 :=
  #v[0x00, 0x11, 0x22, 0x33, 0x44, 0x55, 0x66, 0x77, 0x88, 0x99, 0xAA, 0xBB, 0xCC, 0xDD, 0xEE, 0xFF]

def cipherExample : Vector UInt8 16 :=
  #v[0x69, 0xC4, 0xE0, 0xD8, 0x6A, 0x7B, 0x04, 0x30, 0xD8, 0xCD, 0xB7, 0x80, 0x70, 0xB4, 0xC5, 0x5A]

def cipherZeros : Vector UInt8 16 :=
  #v[0xC6, 0xA1, 0x3B, 0x37, 0x87, 0x8F, 0x5B, 0x82, 0x6F, 0x4F, 0x81, 0x62, 0xA1, 0xC8, 0xD8, 0x79]

/-- A permutation of the blocks that is AES under that key on these two. -/
def exampleBlocks : AesBlocks Unit where
  setKey := fun _ _ => ()
  encrypt := fun _ =>
    (Equiv.swap plainExample cipherExample).trans (Equiv.swap (Vector.replicate 16 0) cipherZeros)
  decrypt := fun _ =>
    ((Equiv.swap plainExample cipherExample).trans
      (Equiv.swap (Vector.replicate 16 0) cipherZeros)).symm

/-- Twenty bytes: a full block, one that is not, and the first one again. -/
theorem aes_round_trip_twenty_bytes :
    (∀ k, k < 2 →
        Blocks.block 16 (libAesEncrypt exampleBlocks (plainExample.toList.getD · 0) 32 0 20
            (UInt8.ofNat ·) 128) (32 + 16 * k) =
          exampleBlocks.encrypt () (Blocks.block 16 (plainExample.toList.getD · 0) (0 + 16 * k))) ∧
      Memory.load (libAesDecrypt exampleBlocks (libAesEncrypt exampleBlocks
          (plainExample.toList.getD · 0) 32 0 20 (UInt8.ofNat ·) 128) 64 32 20
          (UInt8.ofNat ·) 128) 64 20 =
        Memory.load (plainExample.toList.getD · 0) 0 20 := by
  have h := aes_round_trip exampleBlocks (UInt8.ofNat ·) 128 (fun b => Equiv.symm_apply_apply _ b)
    (plainExample.toList.getD · 0) 32 0 20 (by decide) (by decide)
  exact ⟨h.1, h.2 64 (by decide)⟩

end BackupSoftware.Encryption

import BackupSoftware.Encryption.Aes

/-!
# What the AES buffer functions read and write

Both functions end by passing the first block to the block function once more, and they
pass the last block on whether or not it is full. In place the first block is therefore
mapped twice, and out of place the bytes behind the declared input get into the output.
-/

namespace BackupSoftware.Encryption

open Library

variable {Ctx : Type}

/-- The first `n` bytes of the two buffers are apart. -/
def Apart (out inp n : Nat) : Prop := inp + n ≤ out ∨ out + n ≤ inp

/-- A call in place leaves the bytes that a call with a separate `out` writes. -/
def AgreesInPlace (lib : (Nat → UInt8) → Nat → Nat → Int → Nat → UInt8) (mem : Nat → UInt8)
    (out inp : Nat) (inlen : Int) : Prop :=
  Memory.load (lib mem inp inp inlen) inp (16 * blockCount inlen) =
    Memory.load (lib mem out inp inlen) out (16 * blockCount inlen)

/-- In place the first block is mapped twice and every other block once. -/
theorem block_aesBuffer_self (crypt : Vector UInt8 16 → Vector UInt8 16) (mem : Nat → UInt8)
    (inp : Nat) {inlen : Int} {k : Nat} (hk : k < blockCount inlen) :
    Blocks.block 16 (aesBuffer crypt mem inp inp inlen) (inp + 16 * k) =
      crypt^[if k = 0 then 2 else 1] (Blocks.block 16 mem (inp + 16 * k)) := by
  rw [aesBuffer_eq, Blocks.block_mapBlocks_self, processed_eq, List.count_append,
    List.count_range, if_pos hk, List.count_singleton]
  by_cases h0 : k = 0
  · rw [h0]
    rfl
  · rw [if_neg h0, if_neg (by simpa using Ne.symm h0)]

theorem aesBuffer_agreesInPlace_iff {crypt : Vector UInt8 16 → Vector UInt8 16}
    (hinjective : Function.Injective crypt) (mem : Nat → UInt8) {out inp : Nat} {inlen : Int}
    (hpos : 1 ≤ inlen) (hapart : Apart out inp (16 * blockCount inlen)) :
    AgreesInPlace (aesBuffer crypt) mem out inp inlen ↔
      crypt (Blocks.block 16 mem inp) = Blocks.block 16 mem inp := by
  have hcount : 0 < blockCount inlen := by
    unfold blockCount
    omega
  constructor
  · intro h
    have hfirst := Blocks.block_eq_of_load h hcount
    rw [block_aesBuffer_self crypt mem inp hcount, block_aesBuffer crypt mem hpos hapart hcount]
      at hfirst
    exact hinjective hfirst
  · intro hfixed
    refine Blocks.load_eq_of_blocks fun k hk => ?_
    rw [block_aesBuffer_self crypt mem inp hk, block_aesBuffer crypt mem hpos hapart hk]
    by_cases h0 : k = 0
    · rw [h0, if_pos rfl]
      exact congrArg crypt hfixed
    · rw [if_neg h0]
      rfl

/-- A call in place agrees with one to a separate buffer exactly if the block function maps
the first block to itself. -/
theorem aes_in_place_iff (aes : AesBlocks Ctx) (key : Nat → UInt8) (keysize : UInt32)
    (hdecrypt : ∀ b, aes.decrypt (aes.setKey key keysize) (aes.encrypt (aes.setKey key keysize) b) = b)
    (hencrypt : ∀ b, aes.encrypt (aes.setKey key keysize) (aes.decrypt (aes.setKey key keysize) b) = b)
    (mem : Nat → UInt8) (out inp : Nat) (inlen : Int) (hpos : 1 ≤ inlen)
    (hapart : Apart out inp (16 * blockCount inlen)) :
    (AgreesInPlace (fun mem out inp inlen => libAesEncrypt aes mem out inp inlen key keysize)
        mem out inp inlen ↔
      aes.encrypt (aes.setKey key keysize) (Blocks.block 16 mem inp) = Blocks.block 16 mem inp) ∧
    (AgreesInPlace (fun mem out inp inlen => libAesDecrypt aes mem out inp inlen key keysize)
        mem out inp inlen ↔
      aes.decrypt (aes.setKey key keysize) (Blocks.block 16 mem inp) = Blocks.block 16 mem inp) :=
  ⟨aesBuffer_agreesInPlace_iff (Function.LeftInverse.injective hdecrypt) mem hpos hapart,
    aesBuffer_agreesInPlace_iff (Function.LeftInverse.injective hencrypt) mem hpos hapart⟩

/-! The plaintext of the example of FIPS-197 encrypted twice under its key. -/

def cipherTwice : Vector UInt8 16 :=
  #v[0x4F, 0x63, 0x8C, 0x73, 0x5F, 0x61, 0x43, 0x01, 0x56, 0x78, 0x24, 0xB1, 0xA2, 0x1A, 0x4F, 0x6A]

/-- A permutation of the blocks that is AES under that key on the plaintext and on what AES
makes of it. -/
def chainBlocks : AesBlocks Unit where
  setKey := fun _ _ => ()
  encrypt := fun _ =>
    (Equiv.swap plainExample cipherExample).trans (Equiv.swap plainExample cipherTwice)
  decrypt := fun _ =>
    ((Equiv.swap plainExample cipherExample).trans (Equiv.swap plainExample cipherTwice)).symm

theorem aes_in_place_twenty_bytes :
    (AgreesInPlace (fun mem out inp inlen =>
        libAesEncrypt chainBlocks mem out inp inlen (UInt8.ofNat ·) 128)
        (plainExample.toList.getD · 0) 32 0 20 ↔
      chainBlocks.encrypt () (Blocks.block 16 (plainExample.toList.getD · 0) 0) =
        Blocks.block 16 (plainExample.toList.getD · 0) 0) ∧
    (AgreesInPlace (fun mem out inp inlen =>
        libAesDecrypt chainBlocks mem out inp inlen (UInt8.ofNat ·) 128)
        (cipherTwice.toList.getD · 0) 32 0 20 ↔
      chainBlocks.decrypt () (Blocks.block 16 (cipherTwice.toList.getD · 0) 0) =
        Blocks.block 16 (cipherTwice.toList.getD · 0) 0) :=
  ⟨(aes_in_place_iff chainBlocks (UInt8.ofNat ·) 128 (fun b => Equiv.symm_apply_apply _ b)
      (fun b => Equiv.apply_symm_apply _ b) (plainExample.toList.getD · 0) 32 0 20 (by decide)
      (by unfold Apart; decide)).1,
    (aes_in_place_iff chainBlocks (UInt8.ofNat ·) 128 (fun b => Equiv.symm_apply_apply _ b)
      (fun b => Equiv.apply_symm_apply _ b) (cipherTwice.toList.getD · 0) 32 0 20 (by decide)
      (by unfold Apart; decide)).2⟩

/-- One block: encrypted in place it is encrypted twice. -/
theorem aes_in_place_differs :
    Blocks.block 16 (libAesEncrypt chainBlocks (plainExample.toList.getD · 0) 0 0 16
        (UInt8.ofNat ·) 128) 0 = cipherTwice ∧
      Blocks.block 16 (libAesEncrypt chainBlocks (plainExample.toList.getD · 0) 32 0 16
        (UInt8.ofNat ·) 128) 32 = cipherExample ∧
      ¬ AgreesInPlace (fun mem out inp inlen =>
        libAesEncrypt chainBlocks mem out inp inlen (UInt8.ofNat ·) 128)
        (plainExample.toList.getD · 0) 32 0 16 := by
  have hplain : Blocks.block 16 (plainExample.toList.getD · 0) 0 = plainExample := by decide
  have htwice : Blocks.block 16 (libAesEncrypt chainBlocks (plainExample.toList.getD · 0) 0 0 16
      (UInt8.ofNat ·) 128) (0 + 16 * 0) = cipherTwice := by
    refine (block_aesBuffer_self (chainBlocks.encrypt ()) _ 0 (by decide)).trans ?_
    rw [Nat.mul_zero, Nat.add_zero, hplain]
    decide
  have honce : Blocks.block 16 (libAesEncrypt chainBlocks (plainExample.toList.getD · 0) 32 0 16
      (UInt8.ofNat ·) 128) (32 + 16 * 0) = cipherExample := by
    refine (block_aesBuffer (chainBlocks.encrypt ()) _ (by decide) (by decide) (by decide)).trans ?_
    rw [Nat.mul_zero, Nat.add_zero, hplain]
    decide
  refine ⟨htwice, honce, ?_⟩
  intro h
  have hfirst := Blocks.block_eq_of_load (k := 0) h (by decide)
  rw [htwice, honce] at hfirst
  exact absurd hfirst (by decide)

/-- Calls whose inputs agree on the declared bytes write the same, and nothing is written but
the blocks of `out`. -/
structure Confined (lib : (Nat → UInt8) → Nat → Nat → Int → Nat → UInt8) (inlen : Int) : Prop where
  same : ∀ mem mem' out inp out' inp', Apart out inp (16 * blockCount inlen) →
    Apart out' inp' (16 * blockCount inlen) →
    Memory.load mem inp inlen.toNat = Memory.load mem' inp' inlen.toNat →
    Memory.load (lib mem out inp inlen) out (16 * blockCount inlen) =
      Memory.load (lib mem' out' inp' inlen) out' (16 * blockCount inlen)
  inside : ∀ mem out inp a, a < out ∨ out + 16 * blockCount inlen ≤ a →
    lib mem out inp inlen a = mem a

section Confinement

variable {crypt : Vector UInt8 16 → Vector UInt8 16} {inlen : Int}

theorem aesBuffer_confined (crypt : Vector UInt8 16 → Vector UInt8 16) (hpos : 0 < inlen)
    (hwhole : 16 ∣ inlen) : Confined (aesBuffer crypt) inlen := by
  have hlen : inlen.toNat = 16 * blockCount inlen := by
    unfold blockCount
    omega
  constructor
  · intro mem mem' out inp out' inp' hapart hapart' hload
    rw [hlen] at hload
    refine Blocks.load_eq_of_blocks fun k hk => ?_
    rw [block_aesBuffer crypt mem hpos hapart hk, block_aesBuffer crypt mem' hpos hapart' hk,
      Blocks.block_eq_of_load hload hk]
  · intro mem out inp a ha
    rw [aesBuffer_eq]
    exact Blocks.mapBlocks_outside crypt inp (fun k hk => (mem_processed_iff hpos).mp hk) mem ha

/-- Without a byte of input a block is written all the same. -/
theorem not_confined_of_empty (crypt : Vector UInt8 16 → Vector UInt8 16) (hempty : inlen ≤ 0) :
    ¬ Confined (aesBuffer crypt) inlen := by
  intro h
  have hcount : blockCount inlen = 0 := by
    unfold blockCount
    omega
  have hkept := h.inside (fun a => if a = 0 then (crypt (Vector.replicate 16 0))[0] + 1 else 0) 0 16 0
    (Or.inr (by simp [hcount]))
  have hblock : Blocks.block 16
      (fun a => if a = 0 then (crypt (Vector.replicate 16 0))[0] + 1 else 0) 16 =
      Vector.replicate 16 0 := by
    ext i hi
    simp
  have hwritten : aesBuffer crypt
      (fun a => if a = 0 then (crypt (Vector.replicate 16 0))[0] + 1 else 0) 0 16 inlen 0 =
      (crypt (Vector.replicate 16 0))[0] := by
    rw [aesBuffer_eq, processed_eq, hcount]
    show Blocks.put _ 0 (crypt (Blocks.block 16 _ 16)) 0 = _
    rw [hblock]
    exact Blocks.put_inside _ 0 _ (i := 0) (by decide)
  rw [hwritten] at hkept
  simp at hkept

/-- A last block that is not full is read to its end. -/
theorem not_confined_of_partial (hinjective : Function.Injective crypt) (hpos : 0 < inlen)
    (hrest : ¬ 16 ∣ inlen) : ¬ Confined (aesBuffer crypt) inlen := by
  intro h
  have hlast : 16 * (blockCount inlen - 1) < inlen.toNat ∧ inlen.toNat < 16 * blockCount inlen ∧
      0 < blockCount inlen := by
    unfold blockCount
    omega
  have hload : Memory.load (fun _ => (0 : UInt8)) 0 inlen.toNat =
      Memory.load (Function.update (fun _ => 0) inlen.toNat 1) 0 inlen.toNat := by
    apply Memory.load_congr
    intro k _ hk
    rw [Function.update_of_ne (by omega)]
  have hapart : Apart (16 * blockCount inlen) 0 (16 * blockCount inlen) := Or.inl (by omega)
  have hsame := h.same _ _ (16 * blockCount inlen) 0 (16 * blockCount inlen) 0 hapart hapart hload
  have hblock := Blocks.block_eq_of_load hsame (k := blockCount inlen - 1) (by omega)
  rw [block_aesBuffer crypt _ hpos hapart (by omega),
    block_aesBuffer crypt _ hpos hapart (by omega)] at hblock
  have hbyte := congrArg (fun b : Vector UInt8 16 =>
    b[inlen.toNat - 16 * (blockCount inlen - 1)]?) (hinjective hblock)
  have hindex : inlen.toNat - 16 * (blockCount inlen - 1) < 16 := by omega
  simp only [Vector.getElem?_eq_getElem hindex, Blocks.getElem_block, Option.some.injEq] at hbyte
  rw [show 0 + 16 * (blockCount inlen - 1) + (inlen.toNat - 16 * (blockCount inlen - 1)) =
    inlen.toNat by omega, Function.update_self] at hbyte
  cases hbyte

theorem aesBuffer_confined_iff (hinjective : Function.Injective crypt) (inlen : Int) :
    Confined (aesBuffer crypt) inlen ↔ 0 < inlen ∧ 16 ∣ inlen := by
  constructor
  · intro h
    by_contra hnot
    by_cases hpos : 0 < inlen
    · exact not_confined_of_partial hinjective hpos (fun hwhole => hnot ⟨hpos, hwhole⟩) h
    · exact not_confined_of_empty crypt (by omega) h
  · intro h
    exact aesBuffer_confined crypt h.1 h.2

end Confinement

/-- The output depends on the declared input only, and stays inside its blocks, exactly for a
positive number of whole blocks. -/
theorem aes_confined_iff (aes : AesBlocks Ctx) (key : Nat → UInt8) (keysize : UInt32)
    (hdecrypt : ∀ b, aes.decrypt (aes.setKey key keysize) (aes.encrypt (aes.setKey key keysize) b) = b)
    (hencrypt : ∀ b, aes.encrypt (aes.setKey key keysize) (aes.decrypt (aes.setKey key keysize) b) = b)
    (inlen : Int) :
    (Confined (fun mem out inp inlen => libAesEncrypt aes mem out inp inlen key keysize) inlen ↔
      0 < inlen ∧ 16 ∣ inlen) ∧
    (Confined (fun mem out inp inlen => libAesDecrypt aes mem out inp inlen key keysize) inlen ↔
      0 < inlen ∧ 16 ∣ inlen) :=
  ⟨aesBuffer_confined_iff (Function.LeftInverse.injective hdecrypt) inlen,
    aesBuffer_confined_iff (Function.LeftInverse.injective hencrypt) inlen⟩

theorem aes_confined_two_blocks :
    Confined (fun mem out inp inlen =>
        libAesEncrypt exampleBlocks mem out inp inlen (UInt8.ofNat ·) 128) 32 ∧
      ¬ Confined (fun mem out inp inlen =>
        libAesDecrypt exampleBlocks mem out inp inlen (UInt8.ofNat ·) 128) 20 := by
  have h (inlen : Int) := aes_confined_iff exampleBlocks (UInt8.ofNat ·) 128
    (fun b => Equiv.symm_apply_apply _ b) (fun b => Equiv.apply_symm_apply _ b) inlen
  refine ⟨(h 32).1.mpr (by decide), ?_⟩
  intro hconfined
  exact absurd ((h 20).2.mp hconfined) (by decide)

/-- One byte is declared, 00. The output of the call on 00 11 22 .. is not that of the call on
00 00 00 .., though both inputs start with the declared byte. -/
theorem aes_reads_undeclared :
    ¬ Confined (fun mem out inp inlen =>
        libAesEncrypt exampleBlocks mem out inp inlen (UInt8.ofNat ·) 128) 1 := by
  intro h
  have hsame := h.same (plainExample.toList.getD · 0) (fun _ => 0) 32 0 32 0
    (by unfold Apart; decide) (by unfold Apart; decide) (by decide)
  have hblock := Blocks.block_eq_of_load (k := 0) hsame (by decide)
  have hvalue (mem : Nat → UInt8) : Blocks.block 16
      (aesBuffer (exampleBlocks.encrypt ()) mem 32 0 1) (32 + 16 * 0) =
      exampleBlocks.encrypt () (Blocks.block 16 mem (0 + 16 * 0)) :=
    block_aesBuffer _ mem (by decide) (by decide) (by decide)
  have hplain : Blocks.block 16 (plainExample.toList.getD · 0) 0 = plainExample := by decide
  have hzeros : Blocks.block 16 (fun _ => (0 : UInt8)) 0 = Vector.replicate 16 0 := by decide
  have hciphers : exampleBlocks.encrypt () plainExample =
      exampleBlocks.encrypt () (Vector.replicate 16 0) := by
    rw [← hplain, ← hzeros]
    exact (hvalue _).symm.trans (hblock.trans (hvalue _))
  exact absurd hciphers (by decide)

end BackupSoftware.Encryption

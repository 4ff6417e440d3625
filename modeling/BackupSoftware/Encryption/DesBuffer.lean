import Mathlib.Data.List.GetD
import BackupSoftware.Encryption.Des

/-!
# DES and Triple-DES on whole buffers

`lib_des_encrypt`, `lib_des_decrypt` and their Triple-DES forms. The message is copied
to a private buffer of zeros, the blocks of that buffer that hold a byte of it are
encrypted or decrypted, and as many bytes as the message has are copied out. Of a
last block that is not full the rest of the ciphertext is lost, and without it the
block cannot be decrypted.
-/

namespace BackupSoftware.Encryption

open Library

/-- `BUF_MAX_SIZE`, the size of `m_in` and of `m_out`. -/
def bufMaxSize : Nat := 1024

/-- `m_in` after the copy. -/
def mIn (bytes : List UInt8) : Nat → UInt8 := Memory.store (fun _ => 0) 0 bytes

/-- `m_out` after the loop, in which `i` is `0`, `8`, `16`, .. as long as it is below
the length. -/
def mOut (crypt : (Nat → UInt8) → Vector UInt8 8) (bytes : List UInt8) : Nat → UInt8 :=
  Blocks.fill (fun k => crypt fun j => mIn bytes (8 * k + j)) 0
    (List.range ((bytes.length + 7) / 8)) fun _ => 0

/-- The bytes that are copied to `out`. -/
def outBytes (crypt : (Nat → UInt8) → Vector UInt8 8) (bytes : List UInt8) : List UInt8 :=
  Memory.load (mOut crypt bytes) 0 bytes.length

/-- The memory after a call with the pointers `out` and `in`; `none` if the copy to
`m_in` runs out of its bounds. -/
def cryptBuffer (crypt : (Nat → UInt8) → (Nat → UInt8) → Vector UInt8 8) (mem : Nat → UInt8)
    (out inp : Nat) (inlen : Int) (key : Nat → UInt8) : Option (Nat → UInt8) :=
  if 0 ≤ inlen ∧ inlen ≤ bufMaxSize then
    some (Memory.store mem out (outBytes (crypt · key) (Memory.load mem inp inlen.toNat)))
  else none

/-- `lib_des3_encrypt`. -/
def libDes3Encrypt (mem : Nat → UInt8) (out inp : Nat) (inlen : Int) (key : Nat → UInt8) :
    Option (Nat → UInt8) := cryptBuffer (libDes3 · · 0) mem out inp inlen key

/-- `lib_des3_decrypt`. -/
def libDes3Decrypt (mem : Nat → UInt8) (out inp : Nat) (inlen : Int) (key : Nat → UInt8) :
    Option (Nat → UInt8) := cryptBuffer (libDes3 · · 1) mem out inp inlen key

/-- `lib_des_encrypt`. -/
def libDesEncrypt (mem : Nat → UInt8) (out inp : Nat) (inlen : Int) (key : Nat → UInt8) :
    Option (Nat → UInt8) := cryptBuffer (libDes · · 0) mem out inp inlen key

/-- `lib_des_decrypt`. -/
def libDesDecrypt (mem : Nat → UInt8) (out inp : Nat) (inlen : Int) (key : Nat → UInt8) :
    Option (Nat → UInt8) := cryptBuffer (libDes · · 1) mem out inp inlen key

/-- For every key and every message of `inlen` bytes at `inp`, encrypted to `out` and
decrypted from there to `dest`: both calls return, and the message is at `dest`. -/
def RoundTrips (encrypt decrypt : (Nat → UInt8) → Nat → Nat → Int → (Nat → UInt8) →
    Option (Nat → UInt8)) (inlen : Int) : Prop :=
  ∀ (key mem : Nat → UInt8) (out inp dest : Nat), ∃ mem₁ mem₂,
    encrypt mem out inp inlen key = some mem₁ ∧ decrypt mem₁ dest out inlen key = some mem₂ ∧
      Memory.load mem₂ dest inlen.toNat = Memory.load mem inp inlen.toNat

@[simp] theorem length_outBytes (crypt : (Nat → UInt8) → Vector UInt8 8) (bytes : List UInt8) :
    (outBytes crypt bytes).length = bytes.length :=
  Memory.length_load _ _ _

theorem mIn_eq_getD (bytes : List UInt8) (a : Nat) : mIn bytes a = bytes.getD a 0 := by
  by_cases ha : a < bytes.length
  · have h := Memory.store_inside (fun _ => 0) 0 bytes ha
    rw [Nat.zero_add] at h
    rw [mIn, h, List.getD_eq_getElem _ _ ha]
  · rw [mIn, Memory.store_outside _ _ _ (by omega), List.getD_eq_default _ _ (by omega)]

/-- Byte `j` of the output, of block `k`, is the byte of that block in the output of the
block function. -/
theorem outBytes_getD (crypt : (Nat → UInt8) → Vector UInt8 8) {bytes : List UInt8} {k j : Nat}
    (hj : j < 8) (hlen : 8 * k + j < bytes.length) :
    (outBytes crypt bytes).getD (8 * k + j) 0 = (crypt fun i => mIn bytes (8 * k + i))[j] := by
  have hblock : k ∈ List.range ((bytes.length + 7) / 8) := List.mem_range.mpr (by omega)
  have hfill := Blocks.fill_inside (fun k => crypt fun i => mIn bytes (8 * k + i)) 0
    (fun _ => 0) hblock hj
  rw [Nat.zero_add] at hfill
  rw [outBytes, List.getD_eq_getElem?_getD, Memory.getElem?_load _ _ hlen, Nat.zero_add, mOut,
    hfill, Option.getD_some]

section

variable {encrypt decrypt : (Nat → UInt8) → (Nat → UInt8) → Vector UInt8 8}

/-- All of the blocks are full, so all of the ciphertext is copied out. -/
theorem outBytes_decrypt (hinverse : BlockInverse encrypt decrypt) (key : Nat → UInt8)
    {bytes : List UInt8} (hfull : 8 ∣ bytes.length) :
    outBytes (decrypt · key) (outBytes (encrypt · key) bytes) = bytes := by
  apply List.ext_getElem (by simp)
  intro a ha' ha
  have hsplit : a = 8 * (a / 8) + a % 8 := (Nat.div_add_mod a 8).symm
  have hmod : a % 8 < 8 := Nat.mod_lt _ (by decide)
  have hcipher : ∀ k (hk : k < 8), mIn (outBytes (encrypt · key) bytes) (8 * (a / 8) + k) =
      (encrypt (fun i => mIn bytes (8 * (a / 8) + i)) key)[k] := by
    intro k hk
    rw [mIn_eq_getD]
    exact outBytes_getD _ hk (by omega)
  have hplain : (outBytes (decrypt · key) (outBytes (encrypt · key) bytes)).getD a 0 =
      bytes.getD a 0 := by
    rw [hsplit, outBytes_getD _ hmod (by rw [length_outBytes]; omega),
      hinverse key _ _ hcipher _ hmod, mIn_eq_getD]
  rwa [List.getD_eq_getElem _ _ ha', List.getD_eq_getElem _ _ ha] at hplain

/-- The start of a block, followed by zeros. -/
def truncated (r : Nat) (b : Vector UInt8 8) : Nat → UInt8 :=
  fun i => if i < r then b.toList.getD i 0 else 0

/-- Of a message of zeros the last block, if it is not full, is decrypted from a start of
its ciphertext. -/
theorem outBytes_zeros (encrypt decrypt : (Nat → UInt8) → (Nat → UInt8) → Vector UInt8 8) {n : Nat}
    (hn : ¬ 8 ∣ n) (key : Nat → UInt8) :
    (outBytes (decrypt · key) (outBytes (encrypt · key) (List.replicate n 0))).getD
      (8 * (n / 8)) 0 = (decrypt (truncated (n % 8) (encrypt (fun _ => 0) key)) key)[0] := by
  have hpos : 0 < n % 8 := Nat.pos_of_ne_zero fun h => hn (Nat.dvd_of_mod_eq_zero h)
  have hmod : n % 8 < 8 := Nat.mod_lt _ (by decide)
  have hzeros : (fun i => mIn (List.replicate n (0 : UInt8)) (8 * (n / 8) + i)) = fun _ => 0 := by
    funext i
    rw [mIn_eq_getD, List.getD_eq_getElem?_getD, List.getElem?_replicate]
    split <;> rfl
  have hcipher : (fun i => mIn (outBytes (encrypt · key) (List.replicate n 0)) (8 * (n / 8) + i)) =
      truncated (n % 8) (encrypt (fun _ => 0) key) := by
    funext i
    rw [mIn_eq_getD, truncated]
    split
    · rename_i hi
      rw [outBytes_getD _ (by omega) (by rw [List.length_replicate]; omega), hzeros,
        List.getD_eq_getElem _ _ (by rw [Vector.length_toList]; omega), Vector.getElem_toList]
    · rename_i hi
      rw [List.getD_eq_default _ _ (by rw [length_outBytes, List.length_replicate]; omega)]
  rw [← hcipher]
  exact outBytes_getD (decrypt · key) (k := n / 8) (j := 0) (by decide)
    (by rw [length_outBytes, List.length_replicate]; omega)

/-- Both calls, as they act on the bytes of the message. -/
theorem roundTrips_iff {inlen : Int} (h0 : 0 ≤ inlen) (hmax : inlen ≤ bufMaxSize) :
    RoundTrips (cryptBuffer encrypt) (cryptBuffer decrypt) inlen ↔
      ∀ (key : Nat → UInt8) (bytes : List UInt8), bytes.length = inlen.toNat →
        outBytes (decrypt · key) (outBytes (encrypt · key) bytes) = bytes := by
  have hcall (crypt : (Nat → UInt8) → (Nat → UInt8) → Vector UInt8 8) (mem : Nat → UInt8)
      (out inp : Nat) (key : Nat → UInt8) : cryptBuffer crypt mem out inp inlen key =
        some (Memory.store mem out (outBytes (crypt · key) (Memory.load mem inp inlen.toNat))) :=
    if_pos ⟨h0, hmax⟩
  have hread (mem : Nat → UInt8) (out : Nat) {l : List UInt8} (hl : l.length = inlen.toNat) :
      Memory.load (Memory.store mem out l) out inlen.toNat = l := by
    rw [← hl, Memory.load_store]
  constructor
  · intro h key bytes hlen
    obtain ⟨mem₁, mem₂, henc, hdec, hload⟩ := h key (Memory.store (fun _ => 0) 0 bytes) 0 0 0
    rw [hcall, hread _ _ hlen, Option.some.injEq] at henc
    subst henc
    rw [hcall, hread _ _ (by simp [hlen]), Option.some.injEq] at hdec
    subst hdec
    rwa [hread _ _ (by simp [hlen]), hread _ _ hlen] at hload
  · intro h key mem out inp dest
    refine ⟨_, _, hcall _ _ _ _ _, hcall _ _ _ _ _, ?_⟩
    rw [hread _ _ (by simp), hread _ _ (by simp), h key _ (by simp)]

/-- Whole blocks are needed as soon as no start of the ciphertext of a block of zeros
decrypts to one that begins with a zero. -/
theorem roundTrips_iff_dvd (hinverse : BlockInverse encrypt decrypt) (key : Nat → UInt8)
    (hstart : ∀ r, 0 < r → r < 8 →
      (decrypt (truncated r (encrypt (fun _ => 0) key)) key)[0] ≠ 0)
    {inlen : Int} (h0 : 0 ≤ inlen) (hmax : inlen ≤ bufMaxSize) :
    RoundTrips (cryptBuffer encrypt) (cryptBuffer decrypt) inlen ↔
      8 ∣ inlen := by
  rw [roundTrips_iff h0 hmax]
  constructor
  · intro h
    by_contra hdvd
    have hn : ¬ 8 ∣ inlen.toNat := by omega
    have hfirst := outBytes_zeros encrypt decrypt hn key
    rw [h key _ (List.length_replicate), List.getD_eq_getElem?_getD,
      List.getElem?_replicate_of_lt (by omega)] at hfirst
    exact hstart (inlen.toNat % 8) (by omega) (by omega) hfirst.symm
  · intro h key bytes hlen
    exact outBytes_decrypt hinverse key (by omega)

end

set_option maxRecDepth 8000 in
theorem libDes_truncated : ∀ r, 0 < r → r < 8 →
    (libDes (truncated r (libDes (fun _ => 0) (fun _ => 0) 0)) (fun _ => 0) 1)[0] ≠ 0 := by
  have hzeros : libDes (fun _ => 0) (fun _ => 0) 0 =
      #v[0x8C, 0xA6, 0x4D, 0xE9, 0xC1, 0xB1, 0x23, 0xA7] := by
    decide
  rw [hzeros]
  intro r hpos hlt
  interval_cases r <;> decide

/-- With the same key twice, the pass in the middle undoes the one before it. -/
theorem des3Words_same {sk : List (ULong × ULong)} (h : sk.length = 16) (b : ULong × ULong) :
    des3Words (sk ++ sk.reverse ++ sk) b = desWords sk b := by
  have hr : sk.reverse.length = 16 := by rw [List.length_reverse, h]
  rw [des3Words_stages h hr, desRounds_reverse_swap, Prod.swap_swap, desWords]

theorem libDes3_same {key : Nat → UInt8} (h : (fun k => key (8 + k)) = key) (input : Nat → UInt8)
    (direct : Nat) : libDes3 input key direct = libDes input key direct := by
  have hsk := length_desMainKs key
  have hrev : (desMainKs key).reverse.length = 16 := by rw [List.length_reverse, hsk]
  have hback := fun b => des3Words_same hrev b
  simp only [List.reverse_reverse] at hback
  simp only [libDes3, libDes, des3Set2keys, desSetKey, h, des3Crypt, desCrypt, hback,
    des3Words_same hsk]

theorem libDes3_truncated : ∀ r, 0 < r → r < 8 →
    (libDes3 (truncated r (libDes3 (fun _ => 0) (fun _ => 0) 0)) (fun _ => 0) 1)[0] ≠ 0 := by
  intro r hpos hlt
  rw [libDes3_same rfl, libDes3_same rfl]
  exact libDes_truncated r hpos hlt

/-- Messages of a length come back, under every key, exactly if the length is a
multiple of the block size. -/
theorem des_round_trip_iff (inlen : Int) (h0 : 0 ≤ inlen) (hmax : inlen ≤ bufMaxSize) :
    (RoundTrips libDes3Encrypt libDes3Decrypt inlen ↔ 8 ∣ inlen) ∧
      (RoundTrips libDesEncrypt libDesDecrypt inlen ↔ 8 ∣ inlen) :=
  ⟨roundTrips_iff_dvd libDes3_inverse (fun _ => 0) libDes3_truncated h0 hmax,
    roundTrips_iff_dvd libDes_inverse (fun _ => 0) libDes_truncated h0 hmax⟩

theorem des_round_trip_sixteen :
    RoundTrips libDes3Encrypt libDes3Decrypt 16 ∧ RoundTrips libDesEncrypt libDesDecrypt 16 :=
  ⟨(des_round_trip_iff 16 (by decide) (by decide)).1.mpr (by decide),
    (des_round_trip_iff 16 (by decide) (by decide)).2.mpr (by decide)⟩

set_option maxRecDepth 8000 in
/-- A message of the one byte 0 under the zero key comes back as the byte 70. -/
theorem des_one_byte_lost :
    ((libDes3Encrypt (fun _ => 0) 16 0 1 fun _ => 0).bind fun mem =>
        (libDes3Decrypt mem 32 16 1 fun _ => 0).map (Memory.load · 32 1)) = some [70] ∧
      ((libDesEncrypt (fun _ => 0) 16 0 1 fun _ => 0).bind fun mem =>
        (libDesDecrypt mem 32 16 1 fun _ => 0).map (Memory.load · 32 1)) = some [70] ∧
      ¬ RoundTrips libDes3Encrypt libDes3Decrypt 1 ∧
      ¬ RoundTrips libDesEncrypt libDesDecrypt 1 := by
  have h3 : ((libDes3Encrypt (fun _ => 0) 16 0 1 fun _ => 0).bind fun mem =>
      (libDes3Decrypt mem 32 16 1 fun _ => 0).map (Memory.load · 32 1)) = some [70] := by
    decide
  have h1 : ((libDesEncrypt (fun _ => 0) 16 0 1 fun _ => 0).bind fun mem =>
      (libDesDecrypt mem 32 16 1 fun _ => 0).map (Memory.load · 32 1)) = some [70] := by
    decide
  refine ⟨h3, h1, fun h => ?_, fun h => ?_⟩
  · obtain ⟨mem₁, mem₂, henc, hdec, hload⟩ := h (fun _ => 0) (fun _ => 0) 16 0 32
    rw [henc, Option.bind_some, hdec, Option.map_some] at h3
    exact absurd (hload.symm.trans (Option.some.inj h3)) (by decide)
  · obtain ⟨mem₁, mem₂, henc, hdec, hload⟩ := h (fun _ => 0) (fun _ => 0) 16 0 32
    rw [henc, Option.bind_some, hdec, Option.map_some] at h1
    exact absurd (hload.symm.trans (Option.some.inj h1)) (by decide)

end BackupSoftware.Encryption

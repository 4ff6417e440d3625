import BackupSoftware.NodeServer.Escape
import BackupSoftware.Encryption.Base64

/-!
# Packages of the node server

`package_make` of `node_server/common.c` and `make_package` of `node_server/main.c`
fill an array from its start and escape it. `lib_b64_encode_hex` and
`lib_crc16_with_byte` belong to a library that is not part of the repository; they
are parameters here, and of the first only the length of what it writes is assumed.
-/

namespace BackupSoftware.NodeServer

open BackupSoftware.Library BackupSoftware.Library.Memory

def frameHead : UInt8 := 0xf1
def frameTail : UInt8 := 0xf2

/-- The two bytes of a number in the order that `htons` gives them. -/
def htons (x : UInt16) : List UInt8 := [(x >>> 8).toUInt8, x.toUInt8]

/-- What differs between the two builders: the size of the array `data`, the bytes that are
encoded, what is added to the length of their encoding, the guide bytes, and the bytes
between the encoding and the CRC. -/
structure Builder where
  dataSize : Nat
  buf : List UInt8
  lengthExtra : Nat
  guide : List UInt8
  trailer : List UInt8

section Build

variable (b64EncodeHex : List UInt8 → List UInt8) (crc16WithByte : List UInt8 → UInt32)

/-- The bytes of `data` at the moment when the CRC is computed. -/
def Builder.checked (b : Builder) (canAddr ctrlBit cmd : UInt8) : List UInt8 :=
  let txbuf := b64EncodeHex b.buf
  let dataLen := (txbuf.length + b.lengthExtra).toUInt16
  [frameHead] ++ [0x02] ++ htons 0xAAAD ++ [canAddr] ++ [ctrlBit] ++ [cmd] ++ htons dataLen ++
    b.guide ++ txbuf ++ b.trailer

/-- The bytes of `data` at the end. -/
def Builder.frame (b : Builder) (canAddr ctrlBit cmd : UInt8) : List UInt8 :=
  let data := b.checked b64EncodeHex canAddr ctrlBit cmd
  let crc16 := (crc16WithByte (data.drop 1)).toUInt16
  data ++ htons crc16 ++ [frameTail]

/-- The destination after the call and the return value; `none` if the frame does not fit
into `data`. -/
def Builder.make (b : Builder) (tbuf : Nat → UInt8) (canAddr ctrlBit cmd : UInt8) :
    Option ((Nat → UInt8) × Nat) :=
  let data := b.frame b64EncodeHex crc16WithByte canAddr ctrlBit cmd
  if b.dataSize < data.length then none
  else some (uplinkEscape tbuf (store (fun _ => 0) 0 data) data.length)

def packageBuilder : Builder where
  dataSize := 128
  buf := [0x54, 0x4A, 0x16, 0xC9, 0xF1, 0x3A, 0xAA, 0xAD, 0x00, 0x01, 0x00, 0x01]
  lengthExtra := 2
  guide := [0x44, 0x50]
  trailer := []

def packageMake : (Nat → UInt8) → UInt8 → UInt8 → UInt8 → Option ((Nat → UInt8) × Nat) :=
  packageBuilder.make b64EncodeHex crc16WithByte

/-- The builder for a request with this MAC address and key. -/
def registerBuilder (macAddr : Vector UInt8 6) (encryKey : Vector UInt8 16) : Builder where
  dataSize := 512
  buf := macAddr.toList ++ encryKey.toList
  lengthExtra := 2 + 1
  guide := [0x41, 0x4e]
  trailer := [0x26]

def makePackage (macAddr : Vector UInt8 6) (encryKey : Vector UInt8 16) :
    (Nat → UInt8) → UInt8 → UInt8 → UInt8 → Option ((Nat → UInt8) × Nat) :=
  (registerBuilder macAddr encryKey).make b64EncodeHex crc16WithByte

/-- The big-endian number at an offset. -/
def beAt (f : List UInt8) (k : Nat) : Nat := (f.getD k 0).toNat * 256 + (f.getD (k + 1) 0).toNat

/-- A frame that says its own length, CRC, address, control bit and command. -/
structure SelfDescribing (canAddr ctrlBit cmd : UInt8) (f : List UInt8) : Prop where
  long : 14 ≤ f.length
  length : beAt f 7 = f.length - 12
  crc : beAt f (f.length - 3) = (crc16WithByte ((f.drop 1).take (f.length - 4))).toNat % 65536
  addr : f[4]? = some canAddr
  ctrl : f[5]? = some ctrlBit
  command : f[6]? = some cmd

theorem htons_value (x : UInt16) : (x >>> 8).toUInt8.toNat * 256 + x.toUInt8.toNat = x.toNat := by
  have hx := x.toNat_lt
  rw [UInt16.toNat_toUInt8, UInt16.toNat_toUInt8, UInt16.toNat_shiftRight]
  simp only [UInt16.reduceToNat, Nat.reduceMod, Nat.shiftRight_eq_div_pow]
  omega

/-- The number written after `l` is read back behind it. -/
theorem beAt_htons (l : List UInt8) (x : UInt16) (rest : List UInt8) :
    beAt (l ++ htons x ++ rest) l.length = x.toNat := by
  rw [beAt, List.append_assoc, List.getD_append_right _ _ _ _ (Nat.le_refl _),
    List.getD_append_right _ _ _ _ (Nat.le_add_right _ 1), Nat.sub_self, Nat.add_sub_cancel_left]
  exact htons_value x

theorem length_checked (b : Builder) (canAddr ctrlBit cmd : UInt8) :
    (b.checked b64EncodeHex canAddr ctrlBit cmd).length =
      9 + b.guide.length + (b64EncodeHex b.buf).length + b.trailer.length := by
  simp only [Builder.checked, List.length_append, htons, List.length_cons, List.length_nil]

theorem length_frame (b : Builder) (canAddr ctrlBit cmd : UInt8) :
    (b.frame b64EncodeHex crc16WithByte canAddr ctrlBit cmd).length =
      12 + b.guide.length + (b64EncodeHex b.buf).length + b.trailer.length := by
  simp only [Builder.frame, List.length_append, length_checked, htons, List.length_cons,
    List.length_nil]
  omega

/-- A builder that adds to the length what it writes around the encoding, and whose length
fits into 16 bits, makes frames that describe themselves. -/
theorem frame_selfDescribing {b : Builder}
    (hextra : b.lengthExtra = b.guide.length + b.trailer.length) (hguide : b.guide.length = 2)
    (hfit : (b64EncodeHex b.buf).length + b.lengthExtra < 65536)
    (canAddr ctrlBit cmd : UInt8) :
    SelfDescribing crc16WithByte canAddr ctrlBit cmd
      (b.frame b64EncodeHex crc16WithByte canAddr ctrlBit cmd) := by
  have hlen := length_frame b64EncodeHex crc16WithByte b canAddr ctrlBit cmd
  have hchecked := length_checked b64EncodeHex b canAddr ctrlBit cmd
  constructor
  · omega
  · have hfield : beAt (b.frame b64EncodeHex crc16WithByte canAddr ctrlBit cmd) 7 =
        ((b64EncodeHex b.buf).length + b.lengthExtra).toUInt16.toNat := by
      have hbefore : ∀ rest, beAt ([frameHead] ++ [0x02] ++ htons 0xAAAD ++ [canAddr] ++ [ctrlBit] ++
          [cmd] ++ htons ((b64EncodeHex b.buf).length + b.lengthExtra).toUInt16 ++ rest) 7 = _ :=
        fun rest => beAt_htons _ _ rest
      simp only [Builder.frame, Builder.checked, List.append_assoc] at hbefore ⊢
      exact hbefore _
    rw [hfield, hlen]
    simp only [Nat.toUInt16_eq, UInt16.toNat_ofNat']
    omega
  · have hdrop : ((b.frame b64EncodeHex crc16WithByte canAddr ctrlBit cmd).drop 1).take
        ((b.frame b64EncodeHex crc16WithByte canAddr ctrlBit cmd).length - 4) =
        (b.checked b64EncodeHex canAddr ctrlBit cmd).drop 1 := by
      rw [Builder.frame, List.append_assoc, List.drop_append_of_le_length (by omega),
        List.take_left']
      rw [List.length_drop]
      simp only [List.length_append, htons, List.length_cons, List.length_nil]
      omega
    have hpos : (b.frame b64EncodeHex crc16WithByte canAddr ctrlBit cmd).length - 3 =
        (b.checked b64EncodeHex canAddr ctrlBit cmd).length := by omega
    rw [hdrop, hpos, Builder.frame, beAt_htons, UInt32.toNat_toUInt16]
  · rfl
  · rfl
  · rfl

theorem frame_ends (b : Builder) (canAddr ctrlBit cmd : UInt8) :
    let f := b.frame b64EncodeHex crc16WithByte canAddr ctrlBit cmd
    f[0]? = some ndevHd ∧ f[f.length - 1]? = some ndevTail := by
  refine ⟨rfl, ?_⟩
  rw [← List.getLast?_eq_getElem?, Builder.frame, List.getLast?_concat]
  rfl

/-- A frame that fits is sent escaped, and un-escaping gives it back. -/
theorem output_downlink_make (b : Builder) (canAddr ctrlBit cmd : UInt8)
    (hfits : (b.frame b64EncodeHex crc16WithByte canAddr ctrlBit cmd).length ≤ b.dataSize)
    (tbuf dest : Nat → UInt8) :
    ∃ r, b.make b64EncodeHex crc16WithByte tbuf canAddr ctrlBit cmd = some r ∧
      output (downlinkEscape dest r.1 r.2) =
        b.frame b64EncodeHex crc16WithByte canAddr ctrlBit cmd := by
  have hlen := length_frame b64EncodeHex crc16WithByte b canAddr ctrlBit cmd
  obtain ⟨hhd, htail⟩ := frame_ends b64EncodeHex crc16WithByte b canAddr ctrlBit cmd
  obtain ⟨f, hf⟩ : ∃ f, f = b.frame b64EncodeHex crc16WithByte canAddr ctrlBit cmd := ⟨_, rfl⟩
  rw [← hf] at hfits hlen hhd htail
  have hload := load_store (fun _ => (0 : UInt8)) 0 f
  have hget : ∀ k < f.length, f[k]? = some (store (fun _ => (0 : UInt8)) 0 f k) := by
    intro k hk
    conv_lhs => rw [← hload]
    rw [getElem?_load _ _ hk, Nat.zero_add]
  rw [hget 0 (by omega)] at hhd
  rw [hget _ (by omega)] at htail
  refine ⟨_, by rw [Builder.make, ← hf, if_neg (by omega)], ?_⟩
  rw [output_downlink_uplink tbuf dest _ (by omega) (Option.some.inj hhd) (Option.some.inj htail),
    ← hf, hload]

end Build

/-- Base64 writes four characters for every three bytes it has begun. -/
def WritesBase64Length (b64EncodeHex : List UInt8 → List UInt8) : Prop :=
  ∀ x, (b64EncodeHex x).length = 4 * ((x.length + 2) / 3)

/-- Un-escaping what either builder has sent yields a frame that describes itself. -/
theorem packages_self_describing (b64EncodeHex : List UInt8 → List UInt8)
    (hb64 : WritesBase64Length b64EncodeHex) (crc16WithByte : List UInt8 → UInt32)
    (macAddr : Vector UInt8 6) (encryKey : Vector UInt8 16) (canAddr ctrlBit cmd : UInt8)
    (tbuf dest : Nat → UInt8) :
    (∃ r, makePackage b64EncodeHex crc16WithByte macAddr encryKey tbuf canAddr ctrlBit cmd =
        some r ∧
      SelfDescribing crc16WithByte canAddr ctrlBit cmd (output (downlinkEscape dest r.1 r.2))) ∧
    ∃ r, packageMake b64EncodeHex crc16WithByte tbuf canAddr ctrlBit cmd = some r ∧
      SelfDescribing crc16WithByte canAddr ctrlBit cmd (output (downlinkEscape dest r.1 r.2)) := by
  have hmake : ∀ b : Builder, b.lengthExtra = b.guide.length + b.trailer.length →
      b.guide.length = 2 → b.dataSize ≤ 512 →
      12 + b.lengthExtra + (b64EncodeHex b.buf).length ≤ b.dataSize →
      ∃ r, b.make b64EncodeHex crc16WithByte tbuf canAddr ctrlBit cmd = some r ∧
        SelfDescribing crc16WithByte canAddr ctrlBit cmd
          (output (downlinkEscape dest r.1 r.2)) := by
    intro b hextra hguide hsize hfits
    have hlen := length_frame b64EncodeHex crc16WithByte b canAddr ctrlBit cmd
    obtain ⟨r, hr, hout⟩ := output_downlink_make b64EncodeHex crc16WithByte b canAddr ctrlBit cmd
      (by omega) tbuf dest
    refine ⟨r, hr, ?_⟩
    rw [hout]
    exact frame_selfDescribing b64EncodeHex crc16WithByte hextra hguide (by omega) canAddr ctrlBit
      cmd
  constructor
  · refine hmake (registerBuilder macAddr encryKey) rfl rfl (Nat.le_refl 512) ?_
    rw [hb64]
    simp [registerBuilder]
  · refine hmake packageBuilder rfl rfl (by decide) ?_
    rw [hb64]
    decide

/-- With the encoder of the encryption library, and a sum in the place of the CRC. -/
theorem packages_self_describing_base64 :
    let b64 := Encryption.encodeGroups
    let crc := fun bytes : List UInt8 => bytes.foldl (fun sum b => sum + b.toUInt32) 0
    (∃ r, makePackage b64 crc (Vector.replicate 6 0xF1) (Vector.replicate 16 0xF0) (fun _ => 0)
        0x00 0x02 0xA1 = some r ∧
      SelfDescribing crc 0x00 0x02 0xA1 (output (downlinkEscape (fun _ => 0) r.1 r.2))) ∧
    ∃ r, packageMake b64 crc (fun _ => 0) 0x00 0x02 0xA4 = some r ∧
      SelfDescribing crc 0x00 0x02 0xA4 (output (downlinkEscape (fun _ => 0) r.1 r.2)) := by
  intro b64 crc
  have hb64 : WritesBase64Length b64 := Encryption.length_encodeGroups
  exact ⟨(packages_self_describing b64 hb64 crc _ _ _ _ _ _ _).1,
    (packages_self_describing b64 hb64 crc (Vector.replicate 6 0) (Vector.replicate 16 0)
      _ _ _ _ _).2⟩

end BackupSoftware.NodeServer

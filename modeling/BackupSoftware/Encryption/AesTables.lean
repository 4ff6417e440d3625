import Mathlib.Data.List.GetD
import BackupSoftware.Encryption.Des
import BackupSoftware.Library.Rijndael

/-!
# The tables of AES

`aes_gen_tables` of `encryption/aes.c` and the tables that are compiled in instead of it
when `FIXED_TABLES` is defined. The loop over the logarithms leaves powers of the generator
of the field and their exponents, so that the generated tables and the fixed ones are the
same. Their entries are those of the cipher on bytes: the tables of the forward rounds hold
the columns that one byte contributes to, the reverse tables those of the inverse.
-/

namespace BackupSoftware.Encryption

open Library
open Library.ByteField

/-- The tables; an entry of a table of `ulong` is never more than 32 bits. -/
structure AesTables where
  fsb : List ULong
  ft0 : List ULong
  ft1 : List ULong
  ft2 : List ULong
  ft3 : List ULong
  rsb : List ULong
  rt0 : List ULong
  rt1 : List ULong
  rt2 : List ULong
  rt3 : List ULong
  rcon : List ULong
  deriving DecidableEq, Repr

/-- `(ulong) x` of an `uchar`. -/
def ulong (x : UInt8) : ULong := x.toBitVec.setWidth 32

/-- `(uchar) w`. -/
def uchar (w : ULong) : UInt8 := ⟨w.setWidth 8⟩

/-- `T[(uchar) (w >> s)]`. -/
def entry (t : List ULong) (w : ULong) (s : Nat) : ULong := t.getD (uchar (w >>> s)).toNat 0

/-- `ROTR8(x)`. -/
def rotr8 (x : ULong) : ULong := ((x <<< 24) &&& 0xFFFFFFFF) ||| ((x &&& 0xFFFFFFFF) >>> 8)

/-- `XTIME(x)`, stored in an `uchar`. -/
def xTime (x : UInt8) : UInt8 := (x <<< 1) ^^^ (if x &&& 0x80 ≠ 0 then 0x1B else 0x00)

/-- `MUL(x,y)`. -/
def mulLog (pow log : List UInt8) (x y : UInt8) : UInt8 :=
  if x ≠ 0 ∧ y ≠ 0 then
    pow.getD (((log.getD x.toNat 0).toNat + (log.getD y.toNat 0).toNat) % 255) 0
  else 0

/-- The first loop: `x`, `pow` and `log` after pass `i`. -/
def powLogStep (s : UInt8 × List UInt8 × List UInt8) (i : Nat) : UInt8 × List UInt8 × List UInt8 :=
  (s.1 ^^^ xTime s.1, s.2.1.set i s.1, s.2.2.set s.1.toNat (UInt8.ofNat i))

/-- `pow` and `log` behind the loop. `log[0]` is never written, and never read. -/
def powLog : List UInt8 × List UInt8 :=
  ((List.range 256).foldl powLogStep (1, List.replicate 256 0, List.replicate 256 0)).2

/-- The values of `x` in the passes of the second loop. -/
def rconLoop : Nat → UInt8 → List ULong
  | 0, _ => []
  | n + 1, x => (ulong x <<< 24) :: rconLoop n (xTime x)

/-- What the loop over the S-boxes makes of `x = pow[255 - log[i]]`. -/
def sboxAffine (x : UInt8) : UInt8 :=
  let y := x
  let y := (y <<< 1) ||| (y >>> 7)
  let x := x ^^^ y
  let y := (y <<< 1) ||| (y >>> 7)
  let x := x ^^^ y
  let y := (y <<< 1) ||| (y >>> 7)
  let x := x ^^^ y
  let y := (y <<< 1) ||| (y >>> 7)
  x ^^^ (y ^^^ 0x63)

/-- The third loop: `FSb` and `RSb` after pass `i`. -/
def sboxStep (pow log : List UInt8) (s : List ULong × List ULong) (i : Nat) :
    List ULong × List ULong :=
  let x := sboxAffine (pow.getD (255 - (log.getD i 0).toNat) 0)
  (s.1.set i (ulong x), s.2.set x.toNat (BitVec.ofNat 32 i))

/-- `FSb` and `RSb` behind the loop. -/
def sboxes (pow log : List UInt8) : List ULong × List ULong :=
  (List.range' 1 255).foldl (sboxStep pow log)
    ((List.replicate 256 0).set 0 0x63, (List.replicate 256 0).set 0x63 0)

/-- `FT0[i]`, by the entry `FSb[i]`. -/
def ft0Entry (s : ULong) : ULong :=
  let x := uchar s
  let y := xTime x
  (ulong (x ^^^ y) ^^^ (ulong x <<< 8) ^^^ (ulong x <<< 16) ^^^ (ulong y <<< 24)) &&& 0xFFFFFFFF

/-- `RT0[i]`, by the entry `RSb[i]`. -/
def rt0Entry (pow log : List UInt8) (s : ULong) : ULong :=
  let y := uchar s
  (ulong (mulLog pow log 0x0B y) ^^^ (ulong (mulLog pow log 0x0D y) <<< 8)
    ^^^ (ulong (mulLog pow log 0x09 y) <<< 16) ^^^ (ulong (mulLog pow log 0x0E y) <<< 24))
    &&& 0xFFFFFFFF

/-- `aes_gen_tables`. -/
def aesGenTables : AesTables :=
  let pow := powLog.1
  let log := powLog.2
  let fsb := (sboxes pow log).1
  let rsb := (sboxes pow log).2
  let ft0 := fsb.map ft0Entry
  let ft1 := ft0.map rotr8
  let ft2 := ft1.map rotr8
  let rt0 := rsb.map (rt0Entry pow log)
  let rt1 := rt0.map rotr8
  let rt2 := rt1.map rotr8
  { fsb, ft0, ft1, ft2, ft3 := ft2.map rotr8, rsb, rt0, rt1, rt2, rt3 := rt2.map rotr8,
    rcon := rconLoop 10 1 }

def fixedFSb : List ULong :=
  [0x63, 0x7C, 0x77, 0x7B, 0xF2, 0x6B, 0x6F, 0xC5, 0x30, 0x01, 0x67, 0x2B, 0xFE, 0xD7, 0xAB, 0x76,
    0xCA, 0x82, 0xC9, 0x7D, 0xFA, 0x59, 0x47, 0xF0, 0xAD, 0xD4, 0xA2, 0xAF, 0x9C, 0xA4, 0x72, 0xC0,
    0xB7, 0xFD, 0x93, 0x26, 0x36, 0x3F, 0xF7, 0xCC, 0x34, 0xA5, 0xE5, 0xF1, 0x71, 0xD8, 0x31, 0x15,
    0x04, 0xC7, 0x23, 0xC3, 0x18, 0x96, 0x05, 0x9A, 0x07, 0x12, 0x80, 0xE2, 0xEB, 0x27, 0xB2, 0x75,
    0x09, 0x83, 0x2C, 0x1A, 0x1B, 0x6E, 0x5A, 0xA0, 0x52, 0x3B, 0xD6, 0xB3, 0x29, 0xE3, 0x2F, 0x84,
    0x53, 0xD1, 0x00, 0xED, 0x20, 0xFC, 0xB1, 0x5B, 0x6A, 0xCB, 0xBE, 0x39, 0x4A, 0x4C, 0x58, 0xCF,
    0xD0, 0xEF, 0xAA, 0xFB, 0x43, 0x4D, 0x33, 0x85, 0x45, 0xF9, 0x02, 0x7F, 0x50, 0x3C, 0x9F, 0xA8,
    0x51, 0xA3, 0x40, 0x8F, 0x92, 0x9D, 0x38, 0xF5, 0xBC, 0xB6, 0xDA, 0x21, 0x10, 0xFF, 0xF3, 0xD2,
    0xCD, 0x0C, 0x13, 0xEC, 0x5F, 0x97, 0x44, 0x17, 0xC4, 0xA7, 0x7E, 0x3D, 0x64, 0x5D, 0x19, 0x73,
    0x60, 0x81, 0x4F, 0xDC, 0x22, 0x2A, 0x90, 0x88, 0x46, 0xEE, 0xB8, 0x14, 0xDE, 0x5E, 0x0B, 0xDB,
    0xE0, 0x32, 0x3A, 0x0A, 0x49, 0x06, 0x24, 0x5C, 0xC2, 0xD3, 0xAC, 0x62, 0x91, 0x95, 0xE4, 0x79,
    0xE7, 0xC8, 0x37, 0x6D, 0x8D, 0xD5, 0x4E, 0xA9, 0x6C, 0x56, 0xF4, 0xEA, 0x65, 0x7A, 0xAE, 0x08,
    0xBA, 0x78, 0x25, 0x2E, 0x1C, 0xA6, 0xB4, 0xC6, 0xE8, 0xDD, 0x74, 0x1F, 0x4B, 0xBD, 0x8B, 0x8A,
    0x70, 0x3E, 0xB5, 0x66, 0x48, 0x03, 0xF6, 0x0E, 0x61, 0x35, 0x57, 0xB9, 0x86, 0xC1, 0x1D, 0x9E,
    0xE1, 0xF8, 0x98, 0x11, 0x69, 0xD9, 0x8E, 0x94, 0x9B, 0x1E, 0x87, 0xE9, 0xCE, 0x55, 0x28, 0xDF,
    0x8C, 0xA1, 0x89, 0x0D, 0xBF, 0xE6, 0x42, 0x68, 0x41, 0x99, 0x2D, 0x0F, 0xB0, 0x54, 0xBB, 0x16]

def fixedRSb : List ULong :=
  [0x52, 0x09, 0x6A, 0xD5, 0x30, 0x36, 0xA5, 0x38, 0xBF, 0x40, 0xA3, 0x9E, 0x81, 0xF3, 0xD7, 0xFB,
    0x7C, 0xE3, 0x39, 0x82, 0x9B, 0x2F, 0xFF, 0x87, 0x34, 0x8E, 0x43, 0x44, 0xC4, 0xDE, 0xE9, 0xCB,
    0x54, 0x7B, 0x94, 0x32, 0xA6, 0xC2, 0x23, 0x3D, 0xEE, 0x4C, 0x95, 0x0B, 0x42, 0xFA, 0xC3, 0x4E,
    0x08, 0x2E, 0xA1, 0x66, 0x28, 0xD9, 0x24, 0xB2, 0x76, 0x5B, 0xA2, 0x49, 0x6D, 0x8B, 0xD1, 0x25,
    0x72, 0xF8, 0xF6, 0x64, 0x86, 0x68, 0x98, 0x16, 0xD4, 0xA4, 0x5C, 0xCC, 0x5D, 0x65, 0xB6, 0x92,
    0x6C, 0x70, 0x48, 0x50, 0xFD, 0xED, 0xB9, 0xDA, 0x5E, 0x15, 0x46, 0x57, 0xA7, 0x8D, 0x9D, 0x84,
    0x90, 0xD8, 0xAB, 0x00, 0x8C, 0xBC, 0xD3, 0x0A, 0xF7, 0xE4, 0x58, 0x05, 0xB8, 0xB3, 0x45, 0x06,
    0xD0, 0x2C, 0x1E, 0x8F, 0xCA, 0x3F, 0x0F, 0x02, 0xC1, 0xAF, 0xBD, 0x03, 0x01, 0x13, 0x8A, 0x6B,
    0x3A, 0x91, 0x11, 0x41, 0x4F, 0x67, 0xDC, 0xEA, 0x97, 0xF2, 0xCF, 0xCE, 0xF0, 0xB4, 0xE6, 0x73,
    0x96, 0xAC, 0x74, 0x22, 0xE7, 0xAD, 0x35, 0x85, 0xE2, 0xF9, 0x37, 0xE8, 0x1C, 0x75, 0xDF, 0x6E,
    0x47, 0xF1, 0x1A, 0x71, 0x1D, 0x29, 0xC5, 0x89, 0x6F, 0xB7, 0x62, 0x0E, 0xAA, 0x18, 0xBE, 0x1B,
    0xFC, 0x56, 0x3E, 0x4B, 0xC6, 0xD2, 0x79, 0x20, 0x9A, 0xDB, 0xC0, 0xFE, 0x78, 0xCD, 0x5A, 0xF4,
    0x1F, 0xDD, 0xA8, 0x33, 0x88, 0x07, 0xC7, 0x31, 0xB1, 0x12, 0x10, 0x59, 0x27, 0x80, 0xEC, 0x5F,
    0x60, 0x51, 0x7F, 0xA9, 0x19, 0xB5, 0x4A, 0x0D, 0x2D, 0xE5, 0x7A, 0x9F, 0x93, 0xC9, 0x9C, 0xEF,
    0xA0, 0xE0, 0x3B, 0x4D, 0xAE, 0x2A, 0xF5, 0xB0, 0xC8, 0xEB, 0xBB, 0x3C, 0x83, 0x53, 0x99, 0x61,
    0x17, 0x2B, 0x04, 0x7E, 0xBA, 0x77, 0xD6, 0x26, 0xE1, 0x69, 0x14, 0x63, 0x55, 0x21, 0x0C, 0x7D]

/-- The macro `FT`: the arguments of `V`. -/
def ftArguments : List (Quad UInt8) :=
  [⟨0xC6, 0x63, 0x63, 0xA5⟩, ⟨0xF8, 0x7C, 0x7C, 0x84⟩, ⟨0xEE, 0x77, 0x77, 0x99⟩,
    ⟨0xF6, 0x7B, 0x7B, 0x8D⟩, ⟨0xFF, 0xF2, 0xF2, 0x0D⟩, ⟨0xD6, 0x6B, 0x6B, 0xBD⟩,
    ⟨0xDE, 0x6F, 0x6F, 0xB1⟩, ⟨0x91, 0xC5, 0xC5, 0x54⟩, ⟨0x60, 0x30, 0x30, 0x50⟩,
    ⟨0x02, 0x01, 0x01, 0x03⟩, ⟨0xCE, 0x67, 0x67, 0xA9⟩, ⟨0x56, 0x2B, 0x2B, 0x7D⟩,
    ⟨0xE7, 0xFE, 0xFE, 0x19⟩, ⟨0xB5, 0xD7, 0xD7, 0x62⟩, ⟨0x4D, 0xAB, 0xAB, 0xE6⟩,
    ⟨0xEC, 0x76, 0x76, 0x9A⟩, ⟨0x8F, 0xCA, 0xCA, 0x45⟩, ⟨0x1F, 0x82, 0x82, 0x9D⟩,
    ⟨0x89, 0xC9, 0xC9, 0x40⟩, ⟨0xFA, 0x7D, 0x7D, 0x87⟩, ⟨0xEF, 0xFA, 0xFA, 0x15⟩,
    ⟨0xB2, 0x59, 0x59, 0xEB⟩, ⟨0x8E, 0x47, 0x47, 0xC9⟩, ⟨0xFB, 0xF0, 0xF0, 0x0B⟩,
    ⟨0x41, 0xAD, 0xAD, 0xEC⟩, ⟨0xB3, 0xD4, 0xD4, 0x67⟩, ⟨0x5F, 0xA2, 0xA2, 0xFD⟩,
    ⟨0x45, 0xAF, 0xAF, 0xEA⟩, ⟨0x23, 0x9C, 0x9C, 0xBF⟩, ⟨0x53, 0xA4, 0xA4, 0xF7⟩,
    ⟨0xE4, 0x72, 0x72, 0x96⟩, ⟨0x9B, 0xC0, 0xC0, 0x5B⟩, ⟨0x75, 0xB7, 0xB7, 0xC2⟩,
    ⟨0xE1, 0xFD, 0xFD, 0x1C⟩, ⟨0x3D, 0x93, 0x93, 0xAE⟩, ⟨0x4C, 0x26, 0x26, 0x6A⟩,
    ⟨0x6C, 0x36, 0x36, 0x5A⟩, ⟨0x7E, 0x3F, 0x3F, 0x41⟩, ⟨0xF5, 0xF7, 0xF7, 0x02⟩,
    ⟨0x83, 0xCC, 0xCC, 0x4F⟩, ⟨0x68, 0x34, 0x34, 0x5C⟩, ⟨0x51, 0xA5, 0xA5, 0xF4⟩,
    ⟨0xD1, 0xE5, 0xE5, 0x34⟩, ⟨0xF9, 0xF1, 0xF1, 0x08⟩, ⟨0xE2, 0x71, 0x71, 0x93⟩,
    ⟨0xAB, 0xD8, 0xD8, 0x73⟩, ⟨0x62, 0x31, 0x31, 0x53⟩, ⟨0x2A, 0x15, 0x15, 0x3F⟩,
    ⟨0x08, 0x04, 0x04, 0x0C⟩, ⟨0x95, 0xC7, 0xC7, 0x52⟩, ⟨0x46, 0x23, 0x23, 0x65⟩,
    ⟨0x9D, 0xC3, 0xC3, 0x5E⟩, ⟨0x30, 0x18, 0x18, 0x28⟩, ⟨0x37, 0x96, 0x96, 0xA1⟩,
    ⟨0x0A, 0x05, 0x05, 0x0F⟩, ⟨0x2F, 0x9A, 0x9A, 0xB5⟩, ⟨0x0E, 0x07, 0x07, 0x09⟩,
    ⟨0x24, 0x12, 0x12, 0x36⟩, ⟨0x1B, 0x80, 0x80, 0x9B⟩, ⟨0xDF, 0xE2, 0xE2, 0x3D⟩,
    ⟨0xCD, 0xEB, 0xEB, 0x26⟩, ⟨0x4E, 0x27, 0x27, 0x69⟩, ⟨0x7F, 0xB2, 0xB2, 0xCD⟩,
    ⟨0xEA, 0x75, 0x75, 0x9F⟩, ⟨0x12, 0x09, 0x09, 0x1B⟩, ⟨0x1D, 0x83, 0x83, 0x9E⟩,
    ⟨0x58, 0x2C, 0x2C, 0x74⟩, ⟨0x34, 0x1A, 0x1A, 0x2E⟩, ⟨0x36, 0x1B, 0x1B, 0x2D⟩,
    ⟨0xDC, 0x6E, 0x6E, 0xB2⟩, ⟨0xB4, 0x5A, 0x5A, 0xEE⟩, ⟨0x5B, 0xA0, 0xA0, 0xFB⟩,
    ⟨0xA4, 0x52, 0x52, 0xF6⟩, ⟨0x76, 0x3B, 0x3B, 0x4D⟩, ⟨0xB7, 0xD6, 0xD6, 0x61⟩,
    ⟨0x7D, 0xB3, 0xB3, 0xCE⟩, ⟨0x52, 0x29, 0x29, 0x7B⟩, ⟨0xDD, 0xE3, 0xE3, 0x3E⟩,
    ⟨0x5E, 0x2F, 0x2F, 0x71⟩, ⟨0x13, 0x84, 0x84, 0x97⟩, ⟨0xA6, 0x53, 0x53, 0xF5⟩,
    ⟨0xB9, 0xD1, 0xD1, 0x68⟩, ⟨0x00, 0x00, 0x00, 0x00⟩, ⟨0xC1, 0xED, 0xED, 0x2C⟩,
    ⟨0x40, 0x20, 0x20, 0x60⟩, ⟨0xE3, 0xFC, 0xFC, 0x1F⟩, ⟨0x79, 0xB1, 0xB1, 0xC8⟩,
    ⟨0xB6, 0x5B, 0x5B, 0xED⟩, ⟨0xD4, 0x6A, 0x6A, 0xBE⟩, ⟨0x8D, 0xCB, 0xCB, 0x46⟩,
    ⟨0x67, 0xBE, 0xBE, 0xD9⟩, ⟨0x72, 0x39, 0x39, 0x4B⟩, ⟨0x94, 0x4A, 0x4A, 0xDE⟩,
    ⟨0x98, 0x4C, 0x4C, 0xD4⟩, ⟨0xB0, 0x58, 0x58, 0xE8⟩, ⟨0x85, 0xCF, 0xCF, 0x4A⟩,
    ⟨0xBB, 0xD0, 0xD0, 0x6B⟩, ⟨0xC5, 0xEF, 0xEF, 0x2A⟩, ⟨0x4F, 0xAA, 0xAA, 0xE5⟩,
    ⟨0xED, 0xFB, 0xFB, 0x16⟩, ⟨0x86, 0x43, 0x43, 0xC5⟩, ⟨0x9A, 0x4D, 0x4D, 0xD7⟩,
    ⟨0x66, 0x33, 0x33, 0x55⟩, ⟨0x11, 0x85, 0x85, 0x94⟩, ⟨0x8A, 0x45, 0x45, 0xCF⟩,
    ⟨0xE9, 0xF9, 0xF9, 0x10⟩, ⟨0x04, 0x02, 0x02, 0x06⟩, ⟨0xFE, 0x7F, 0x7F, 0x81⟩,
    ⟨0xA0, 0x50, 0x50, 0xF0⟩, ⟨0x78, 0x3C, 0x3C, 0x44⟩, ⟨0x25, 0x9F, 0x9F, 0xBA⟩,
    ⟨0x4B, 0xA8, 0xA8, 0xE3⟩, ⟨0xA2, 0x51, 0x51, 0xF3⟩, ⟨0x5D, 0xA3, 0xA3, 0xFE⟩,
    ⟨0x80, 0x40, 0x40, 0xC0⟩, ⟨0x05, 0x8F, 0x8F, 0x8A⟩, ⟨0x3F, 0x92, 0x92, 0xAD⟩,
    ⟨0x21, 0x9D, 0x9D, 0xBC⟩, ⟨0x70, 0x38, 0x38, 0x48⟩, ⟨0xF1, 0xF5, 0xF5, 0x04⟩,
    ⟨0x63, 0xBC, 0xBC, 0xDF⟩, ⟨0x77, 0xB6, 0xB6, 0xC1⟩, ⟨0xAF, 0xDA, 0xDA, 0x75⟩,
    ⟨0x42, 0x21, 0x21, 0x63⟩, ⟨0x20, 0x10, 0x10, 0x30⟩, ⟨0xE5, 0xFF, 0xFF, 0x1A⟩,
    ⟨0xFD, 0xF3, 0xF3, 0x0E⟩, ⟨0xBF, 0xD2, 0xD2, 0x6D⟩, ⟨0x81, 0xCD, 0xCD, 0x4C⟩,
    ⟨0x18, 0x0C, 0x0C, 0x14⟩, ⟨0x26, 0x13, 0x13, 0x35⟩, ⟨0xC3, 0xEC, 0xEC, 0x2F⟩,
    ⟨0xBE, 0x5F, 0x5F, 0xE1⟩, ⟨0x35, 0x97, 0x97, 0xA2⟩, ⟨0x88, 0x44, 0x44, 0xCC⟩,
    ⟨0x2E, 0x17, 0x17, 0x39⟩, ⟨0x93, 0xC4, 0xC4, 0x57⟩, ⟨0x55, 0xA7, 0xA7, 0xF2⟩,
    ⟨0xFC, 0x7E, 0x7E, 0x82⟩, ⟨0x7A, 0x3D, 0x3D, 0x47⟩, ⟨0xC8, 0x64, 0x64, 0xAC⟩,
    ⟨0xBA, 0x5D, 0x5D, 0xE7⟩, ⟨0x32, 0x19, 0x19, 0x2B⟩, ⟨0xE6, 0x73, 0x73, 0x95⟩,
    ⟨0xC0, 0x60, 0x60, 0xA0⟩, ⟨0x19, 0x81, 0x81, 0x98⟩, ⟨0x9E, 0x4F, 0x4F, 0xD1⟩,
    ⟨0xA3, 0xDC, 0xDC, 0x7F⟩, ⟨0x44, 0x22, 0x22, 0x66⟩, ⟨0x54, 0x2A, 0x2A, 0x7E⟩,
    ⟨0x3B, 0x90, 0x90, 0xAB⟩, ⟨0x0B, 0x88, 0x88, 0x83⟩, ⟨0x8C, 0x46, 0x46, 0xCA⟩,
    ⟨0xC7, 0xEE, 0xEE, 0x29⟩, ⟨0x6B, 0xB8, 0xB8, 0xD3⟩, ⟨0x28, 0x14, 0x14, 0x3C⟩,
    ⟨0xA7, 0xDE, 0xDE, 0x79⟩, ⟨0xBC, 0x5E, 0x5E, 0xE2⟩, ⟨0x16, 0x0B, 0x0B, 0x1D⟩,
    ⟨0xAD, 0xDB, 0xDB, 0x76⟩, ⟨0xDB, 0xE0, 0xE0, 0x3B⟩, ⟨0x64, 0x32, 0x32, 0x56⟩,
    ⟨0x74, 0x3A, 0x3A, 0x4E⟩, ⟨0x14, 0x0A, 0x0A, 0x1E⟩, ⟨0x92, 0x49, 0x49, 0xDB⟩,
    ⟨0x0C, 0x06, 0x06, 0x0A⟩, ⟨0x48, 0x24, 0x24, 0x6C⟩, ⟨0xB8, 0x5C, 0x5C, 0xE4⟩,
    ⟨0x9F, 0xC2, 0xC2, 0x5D⟩, ⟨0xBD, 0xD3, 0xD3, 0x6E⟩, ⟨0x43, 0xAC, 0xAC, 0xEF⟩,
    ⟨0xC4, 0x62, 0x62, 0xA6⟩, ⟨0x39, 0x91, 0x91, 0xA8⟩, ⟨0x31, 0x95, 0x95, 0xA4⟩,
    ⟨0xD3, 0xE4, 0xE4, 0x37⟩, ⟨0xF2, 0x79, 0x79, 0x8B⟩, ⟨0xD5, 0xE7, 0xE7, 0x32⟩,
    ⟨0x8B, 0xC8, 0xC8, 0x43⟩, ⟨0x6E, 0x37, 0x37, 0x59⟩, ⟨0xDA, 0x6D, 0x6D, 0xB7⟩,
    ⟨0x01, 0x8D, 0x8D, 0x8C⟩, ⟨0xB1, 0xD5, 0xD5, 0x64⟩, ⟨0x9C, 0x4E, 0x4E, 0xD2⟩,
    ⟨0x49, 0xA9, 0xA9, 0xE0⟩, ⟨0xD8, 0x6C, 0x6C, 0xB4⟩, ⟨0xAC, 0x56, 0x56, 0xFA⟩,
    ⟨0xF3, 0xF4, 0xF4, 0x07⟩, ⟨0xCF, 0xEA, 0xEA, 0x25⟩, ⟨0xCA, 0x65, 0x65, 0xAF⟩,
    ⟨0xF4, 0x7A, 0x7A, 0x8E⟩, ⟨0x47, 0xAE, 0xAE, 0xE9⟩, ⟨0x10, 0x08, 0x08, 0x18⟩,
    ⟨0x6F, 0xBA, 0xBA, 0xD5⟩, ⟨0xF0, 0x78, 0x78, 0x88⟩, ⟨0x4A, 0x25, 0x25, 0x6F⟩,
    ⟨0x5C, 0x2E, 0x2E, 0x72⟩, ⟨0x38, 0x1C, 0x1C, 0x24⟩, ⟨0x57, 0xA6, 0xA6, 0xF1⟩,
    ⟨0x73, 0xB4, 0xB4, 0xC7⟩, ⟨0x97, 0xC6, 0xC6, 0x51⟩, ⟨0xCB, 0xE8, 0xE8, 0x23⟩,
    ⟨0xA1, 0xDD, 0xDD, 0x7C⟩, ⟨0xE8, 0x74, 0x74, 0x9C⟩, ⟨0x3E, 0x1F, 0x1F, 0x21⟩,
    ⟨0x96, 0x4B, 0x4B, 0xDD⟩, ⟨0x61, 0xBD, 0xBD, 0xDC⟩, ⟨0x0D, 0x8B, 0x8B, 0x86⟩,
    ⟨0x0F, 0x8A, 0x8A, 0x85⟩, ⟨0xE0, 0x70, 0x70, 0x90⟩, ⟨0x7C, 0x3E, 0x3E, 0x42⟩,
    ⟨0x71, 0xB5, 0xB5, 0xC4⟩, ⟨0xCC, 0x66, 0x66, 0xAA⟩, ⟨0x90, 0x48, 0x48, 0xD8⟩,
    ⟨0x06, 0x03, 0x03, 0x05⟩, ⟨0xF7, 0xF6, 0xF6, 0x01⟩, ⟨0x1C, 0x0E, 0x0E, 0x12⟩,
    ⟨0xC2, 0x61, 0x61, 0xA3⟩, ⟨0x6A, 0x35, 0x35, 0x5F⟩, ⟨0xAE, 0x57, 0x57, 0xF9⟩,
    ⟨0x69, 0xB9, 0xB9, 0xD0⟩, ⟨0x17, 0x86, 0x86, 0x91⟩, ⟨0x99, 0xC1, 0xC1, 0x58⟩,
    ⟨0x3A, 0x1D, 0x1D, 0x27⟩, ⟨0x27, 0x9E, 0x9E, 0xB9⟩, ⟨0xD9, 0xE1, 0xE1, 0x38⟩,
    ⟨0xEB, 0xF8, 0xF8, 0x13⟩, ⟨0x2B, 0x98, 0x98, 0xB3⟩, ⟨0x22, 0x11, 0x11, 0x33⟩,
    ⟨0xD2, 0x69, 0x69, 0xBB⟩, ⟨0xA9, 0xD9, 0xD9, 0x70⟩, ⟨0x07, 0x8E, 0x8E, 0x89⟩,
    ⟨0x33, 0x94, 0x94, 0xA7⟩, ⟨0x2D, 0x9B, 0x9B, 0xB6⟩, ⟨0x3C, 0x1E, 0x1E, 0x22⟩,
    ⟨0x15, 0x87, 0x87, 0x92⟩, ⟨0xC9, 0xE9, 0xE9, 0x20⟩, ⟨0x87, 0xCE, 0xCE, 0x49⟩,
    ⟨0xAA, 0x55, 0x55, 0xFF⟩, ⟨0x50, 0x28, 0x28, 0x78⟩, ⟨0xA5, 0xDF, 0xDF, 0x7A⟩,
    ⟨0x03, 0x8C, 0x8C, 0x8F⟩, ⟨0x59, 0xA1, 0xA1, 0xF8⟩, ⟨0x09, 0x89, 0x89, 0x80⟩,
    ⟨0x1A, 0x0D, 0x0D, 0x17⟩, ⟨0x65, 0xBF, 0xBF, 0xDA⟩, ⟨0xD7, 0xE6, 0xE6, 0x31⟩,
    ⟨0x84, 0x42, 0x42, 0xC6⟩, ⟨0xD0, 0x68, 0x68, 0xB8⟩, ⟨0x82, 0x41, 0x41, 0xC3⟩,
    ⟨0x29, 0x99, 0x99, 0xB0⟩, ⟨0x5A, 0x2D, 0x2D, 0x77⟩, ⟨0x1E, 0x0F, 0x0F, 0x11⟩,
    ⟨0x7B, 0xB0, 0xB0, 0xCB⟩, ⟨0xA8, 0x54, 0x54, 0xFC⟩, ⟨0x6D, 0xBB, 0xBB, 0xD6⟩,
    ⟨0x2C, 0x16, 0x16, 0x3A⟩]

/-- The macro `RT`. -/
def rtArguments : List (Quad UInt8) :=
  [⟨0x51, 0xF4, 0xA7, 0x50⟩, ⟨0x7E, 0x41, 0x65, 0x53⟩, ⟨0x1A, 0x17, 0xA4, 0xC3⟩,
    ⟨0x3A, 0x27, 0x5E, 0x96⟩, ⟨0x3B, 0xAB, 0x6B, 0xCB⟩, ⟨0x1F, 0x9D, 0x45, 0xF1⟩,
    ⟨0xAC, 0xFA, 0x58, 0xAB⟩, ⟨0x4B, 0xE3, 0x03, 0x93⟩, ⟨0x20, 0x30, 0xFA, 0x55⟩,
    ⟨0xAD, 0x76, 0x6D, 0xF6⟩, ⟨0x88, 0xCC, 0x76, 0x91⟩, ⟨0xF5, 0x02, 0x4C, 0x25⟩,
    ⟨0x4F, 0xE5, 0xD7, 0xFC⟩, ⟨0xC5, 0x2A, 0xCB, 0xD7⟩, ⟨0x26, 0x35, 0x44, 0x80⟩,
    ⟨0xB5, 0x62, 0xA3, 0x8F⟩, ⟨0xDE, 0xB1, 0x5A, 0x49⟩, ⟨0x25, 0xBA, 0x1B, 0x67⟩,
    ⟨0x45, 0xEA, 0x0E, 0x98⟩, ⟨0x5D, 0xFE, 0xC0, 0xE1⟩, ⟨0xC3, 0x2F, 0x75, 0x02⟩,
    ⟨0x81, 0x4C, 0xF0, 0x12⟩, ⟨0x8D, 0x46, 0x97, 0xA3⟩, ⟨0x6B, 0xD3, 0xF9, 0xC6⟩,
    ⟨0x03, 0x8F, 0x5F, 0xE7⟩, ⟨0x15, 0x92, 0x9C, 0x95⟩, ⟨0xBF, 0x6D, 0x7A, 0xEB⟩,
    ⟨0x95, 0x52, 0x59, 0xDA⟩, ⟨0xD4, 0xBE, 0x83, 0x2D⟩, ⟨0x58, 0x74, 0x21, 0xD3⟩,
    ⟨0x49, 0xE0, 0x69, 0x29⟩, ⟨0x8E, 0xC9, 0xC8, 0x44⟩, ⟨0x75, 0xC2, 0x89, 0x6A⟩,
    ⟨0xF4, 0x8E, 0x79, 0x78⟩, ⟨0x99, 0x58, 0x3E, 0x6B⟩, ⟨0x27, 0xB9, 0x71, 0xDD⟩,
    ⟨0xBE, 0xE1, 0x4F, 0xB6⟩, ⟨0xF0, 0x88, 0xAD, 0x17⟩, ⟨0xC9, 0x20, 0xAC, 0x66⟩,
    ⟨0x7D, 0xCE, 0x3A, 0xB4⟩, ⟨0x63, 0xDF, 0x4A, 0x18⟩, ⟨0xE5, 0x1A, 0x31, 0x82⟩,
    ⟨0x97, 0x51, 0x33, 0x60⟩, ⟨0x62, 0x53, 0x7F, 0x45⟩, ⟨0xB1, 0x64, 0x77, 0xE0⟩,
    ⟨0xBB, 0x6B, 0xAE, 0x84⟩, ⟨0xFE, 0x81, 0xA0, 0x1C⟩, ⟨0xF9, 0x08, 0x2B, 0x94⟩,
    ⟨0x70, 0x48, 0x68, 0x58⟩, ⟨0x8F, 0x45, 0xFD, 0x19⟩, ⟨0x94, 0xDE, 0x6C, 0x87⟩,
    ⟨0x52, 0x7B, 0xF8, 0xB7⟩, ⟨0xAB, 0x73, 0xD3, 0x23⟩, ⟨0x72, 0x4B, 0x02, 0xE2⟩,
    ⟨0xE3, 0x1F, 0x8F, 0x57⟩, ⟨0x66, 0x55, 0xAB, 0x2A⟩, ⟨0xB2, 0xEB, 0x28, 0x07⟩,
    ⟨0x2F, 0xB5, 0xC2, 0x03⟩, ⟨0x86, 0xC5, 0x7B, 0x9A⟩, ⟨0xD3, 0x37, 0x08, 0xA5⟩,
    ⟨0x30, 0x28, 0x87, 0xF2⟩, ⟨0x23, 0xBF, 0xA5, 0xB2⟩, ⟨0x02, 0x03, 0x6A, 0xBA⟩,
    ⟨0xED, 0x16, 0x82, 0x5C⟩, ⟨0x8A, 0xCF, 0x1C, 0x2B⟩, ⟨0xA7, 0x79, 0xB4, 0x92⟩,
    ⟨0xF3, 0x07, 0xF2, 0xF0⟩, ⟨0x4E, 0x69, 0xE2, 0xA1⟩, ⟨0x65, 0xDA, 0xF4, 0xCD⟩,
    ⟨0x06, 0x05, 0xBE, 0xD5⟩, ⟨0xD1, 0x34, 0x62, 0x1F⟩, ⟨0xC4, 0xA6, 0xFE, 0x8A⟩,
    ⟨0x34, 0x2E, 0x53, 0x9D⟩, ⟨0xA2, 0xF3, 0x55, 0xA0⟩, ⟨0x05, 0x8A, 0xE1, 0x32⟩,
    ⟨0xA4, 0xF6, 0xEB, 0x75⟩, ⟨0x0B, 0x83, 0xEC, 0x39⟩, ⟨0x40, 0x60, 0xEF, 0xAA⟩,
    ⟨0x5E, 0x71, 0x9F, 0x06⟩, ⟨0xBD, 0x6E, 0x10, 0x51⟩, ⟨0x3E, 0x21, 0x8A, 0xF9⟩,
    ⟨0x96, 0xDD, 0x06, 0x3D⟩, ⟨0xDD, 0x3E, 0x05, 0xAE⟩, ⟨0x4D, 0xE6, 0xBD, 0x46⟩,
    ⟨0x91, 0x54, 0x8D, 0xB5⟩, ⟨0x71, 0xC4, 0x5D, 0x05⟩, ⟨0x04, 0x06, 0xD4, 0x6F⟩,
    ⟨0x60, 0x50, 0x15, 0xFF⟩, ⟨0x19, 0x98, 0xFB, 0x24⟩, ⟨0xD6, 0xBD, 0xE9, 0x97⟩,
    ⟨0x89, 0x40, 0x43, 0xCC⟩, ⟨0x67, 0xD9, 0x9E, 0x77⟩, ⟨0xB0, 0xE8, 0x42, 0xBD⟩,
    ⟨0x07, 0x89, 0x8B, 0x88⟩, ⟨0xE7, 0x19, 0x5B, 0x38⟩, ⟨0x79, 0xC8, 0xEE, 0xDB⟩,
    ⟨0xA1, 0x7C, 0x0A, 0x47⟩, ⟨0x7C, 0x42, 0x0F, 0xE9⟩, ⟨0xF8, 0x84, 0x1E, 0xC9⟩,
    ⟨0x00, 0x00, 0x00, 0x00⟩, ⟨0x09, 0x80, 0x86, 0x83⟩, ⟨0x32, 0x2B, 0xED, 0x48⟩,
    ⟨0x1E, 0x11, 0x70, 0xAC⟩, ⟨0x6C, 0x5A, 0x72, 0x4E⟩, ⟨0xFD, 0x0E, 0xFF, 0xFB⟩,
    ⟨0x0F, 0x85, 0x38, 0x56⟩, ⟨0x3D, 0xAE, 0xD5, 0x1E⟩, ⟨0x36, 0x2D, 0x39, 0x27⟩,
    ⟨0x0A, 0x0F, 0xD9, 0x64⟩, ⟨0x68, 0x5C, 0xA6, 0x21⟩, ⟨0x9B, 0x5B, 0x54, 0xD1⟩,
    ⟨0x24, 0x36, 0x2E, 0x3A⟩, ⟨0x0C, 0x0A, 0x67, 0xB1⟩, ⟨0x93, 0x57, 0xE7, 0x0F⟩,
    ⟨0xB4, 0xEE, 0x96, 0xD2⟩, ⟨0x1B, 0x9B, 0x91, 0x9E⟩, ⟨0x80, 0xC0, 0xC5, 0x4F⟩,
    ⟨0x61, 0xDC, 0x20, 0xA2⟩, ⟨0x5A, 0x77, 0x4B, 0x69⟩, ⟨0x1C, 0x12, 0x1A, 0x16⟩,
    ⟨0xE2, 0x93, 0xBA, 0x0A⟩, ⟨0xC0, 0xA0, 0x2A, 0xE5⟩, ⟨0x3C, 0x22, 0xE0, 0x43⟩,
    ⟨0x12, 0x1B, 0x17, 0x1D⟩, ⟨0x0E, 0x09, 0x0D, 0x0B⟩, ⟨0xF2, 0x8B, 0xC7, 0xAD⟩,
    ⟨0x2D, 0xB6, 0xA8, 0xB9⟩, ⟨0x14, 0x1E, 0xA9, 0xC8⟩, ⟨0x57, 0xF1, 0x19, 0x85⟩,
    ⟨0xAF, 0x75, 0x07, 0x4C⟩, ⟨0xEE, 0x99, 0xDD, 0xBB⟩, ⟨0xA3, 0x7F, 0x60, 0xFD⟩,
    ⟨0xF7, 0x01, 0x26, 0x9F⟩, ⟨0x5C, 0x72, 0xF5, 0xBC⟩, ⟨0x44, 0x66, 0x3B, 0xC5⟩,
    ⟨0x5B, 0xFB, 0x7E, 0x34⟩, ⟨0x8B, 0x43, 0x29, 0x76⟩, ⟨0xCB, 0x23, 0xC6, 0xDC⟩,
    ⟨0xB6, 0xED, 0xFC, 0x68⟩, ⟨0xB8, 0xE4, 0xF1, 0x63⟩, ⟨0xD7, 0x31, 0xDC, 0xCA⟩,
    ⟨0x42, 0x63, 0x85, 0x10⟩, ⟨0x13, 0x97, 0x22, 0x40⟩, ⟨0x84, 0xC6, 0x11, 0x20⟩,
    ⟨0x85, 0x4A, 0x24, 0x7D⟩, ⟨0xD2, 0xBB, 0x3D, 0xF8⟩, ⟨0xAE, 0xF9, 0x32, 0x11⟩,
    ⟨0xC7, 0x29, 0xA1, 0x6D⟩, ⟨0x1D, 0x9E, 0x2F, 0x4B⟩, ⟨0xDC, 0xB2, 0x30, 0xF3⟩,
    ⟨0x0D, 0x86, 0x52, 0xEC⟩, ⟨0x77, 0xC1, 0xE3, 0xD0⟩, ⟨0x2B, 0xB3, 0x16, 0x6C⟩,
    ⟨0xA9, 0x70, 0xB9, 0x99⟩, ⟨0x11, 0x94, 0x48, 0xFA⟩, ⟨0x47, 0xE9, 0x64, 0x22⟩,
    ⟨0xA8, 0xFC, 0x8C, 0xC4⟩, ⟨0xA0, 0xF0, 0x3F, 0x1A⟩, ⟨0x56, 0x7D, 0x2C, 0xD8⟩,
    ⟨0x22, 0x33, 0x90, 0xEF⟩, ⟨0x87, 0x49, 0x4E, 0xC7⟩, ⟨0xD9, 0x38, 0xD1, 0xC1⟩,
    ⟨0x8C, 0xCA, 0xA2, 0xFE⟩, ⟨0x98, 0xD4, 0x0B, 0x36⟩, ⟨0xA6, 0xF5, 0x81, 0xCF⟩,
    ⟨0xA5, 0x7A, 0xDE, 0x28⟩, ⟨0xDA, 0xB7, 0x8E, 0x26⟩, ⟨0x3F, 0xAD, 0xBF, 0xA4⟩,
    ⟨0x2C, 0x3A, 0x9D, 0xE4⟩, ⟨0x50, 0x78, 0x92, 0x0D⟩, ⟨0x6A, 0x5F, 0xCC, 0x9B⟩,
    ⟨0x54, 0x7E, 0x46, 0x62⟩, ⟨0xF6, 0x8D, 0x13, 0xC2⟩, ⟨0x90, 0xD8, 0xB8, 0xE8⟩,
    ⟨0x2E, 0x39, 0xF7, 0x5E⟩, ⟨0x82, 0xC3, 0xAF, 0xF5⟩, ⟨0x9F, 0x5D, 0x80, 0xBE⟩,
    ⟨0x69, 0xD0, 0x93, 0x7C⟩, ⟨0x6F, 0xD5, 0x2D, 0xA9⟩, ⟨0xCF, 0x25, 0x12, 0xB3⟩,
    ⟨0xC8, 0xAC, 0x99, 0x3B⟩, ⟨0x10, 0x18, 0x7D, 0xA7⟩, ⟨0xE8, 0x9C, 0x63, 0x6E⟩,
    ⟨0xDB, 0x3B, 0xBB, 0x7B⟩, ⟨0xCD, 0x26, 0x78, 0x09⟩, ⟨0x6E, 0x59, 0x18, 0xF4⟩,
    ⟨0xEC, 0x9A, 0xB7, 0x01⟩, ⟨0x83, 0x4F, 0x9A, 0xA8⟩, ⟨0xE6, 0x95, 0x6E, 0x65⟩,
    ⟨0xAA, 0xFF, 0xE6, 0x7E⟩, ⟨0x21, 0xBC, 0xCF, 0x08⟩, ⟨0xEF, 0x15, 0xE8, 0xE6⟩,
    ⟨0xBA, 0xE7, 0x9B, 0xD9⟩, ⟨0x4A, 0x6F, 0x36, 0xCE⟩, ⟨0xEA, 0x9F, 0x09, 0xD4⟩,
    ⟨0x29, 0xB0, 0x7C, 0xD6⟩, ⟨0x31, 0xA4, 0xB2, 0xAF⟩, ⟨0x2A, 0x3F, 0x23, 0x31⟩,
    ⟨0xC6, 0xA5, 0x94, 0x30⟩, ⟨0x35, 0xA2, 0x66, 0xC0⟩, ⟨0x74, 0x4E, 0xBC, 0x37⟩,
    ⟨0xFC, 0x82, 0xCA, 0xA6⟩, ⟨0xE0, 0x90, 0xD0, 0xB0⟩, ⟨0x33, 0xA7, 0xD8, 0x15⟩,
    ⟨0xF1, 0x04, 0x98, 0x4A⟩, ⟨0x41, 0xEC, 0xDA, 0xF7⟩, ⟨0x7F, 0xCD, 0x50, 0x0E⟩,
    ⟨0x17, 0x91, 0xF6, 0x2F⟩, ⟨0x76, 0x4D, 0xD6, 0x8D⟩, ⟨0x43, 0xEF, 0xB0, 0x4D⟩,
    ⟨0xCC, 0xAA, 0x4D, 0x54⟩, ⟨0xE4, 0x96, 0x04, 0xDF⟩, ⟨0x9E, 0xD1, 0xB5, 0xE3⟩,
    ⟨0x4C, 0x6A, 0x88, 0x1B⟩, ⟨0xC1, 0x2C, 0x1F, 0xB8⟩, ⟨0x46, 0x65, 0x51, 0x7F⟩,
    ⟨0x9D, 0x5E, 0xEA, 0x04⟩, ⟨0x01, 0x8C, 0x35, 0x5D⟩, ⟨0xFA, 0x87, 0x74, 0x73⟩,
    ⟨0xFB, 0x0B, 0x41, 0x2E⟩, ⟨0xB3, 0x67, 0x1D, 0x5A⟩, ⟨0x92, 0xDB, 0xD2, 0x52⟩,
    ⟨0xE9, 0x10, 0x56, 0x33⟩, ⟨0x6D, 0xD6, 0x47, 0x13⟩, ⟨0x9A, 0xD7, 0x61, 0x8C⟩,
    ⟨0x37, 0xA1, 0x0C, 0x7A⟩, ⟨0x59, 0xF8, 0x14, 0x8E⟩, ⟨0xEB, 0x13, 0x3C, 0x89⟩,
    ⟨0xCE, 0xA9, 0x27, 0xEE⟩, ⟨0xB7, 0x61, 0xC9, 0x35⟩, ⟨0xE1, 0x1C, 0xE5, 0xED⟩,
    ⟨0x7A, 0x47, 0xB1, 0x3C⟩, ⟨0x9C, 0xD2, 0xDF, 0x59⟩, ⟨0x55, 0xF2, 0x73, 0x3F⟩,
    ⟨0x18, 0x14, 0xCE, 0x79⟩, ⟨0x73, 0xC7, 0x37, 0xBF⟩, ⟨0x53, 0xF7, 0xCD, 0xEA⟩,
    ⟨0x5F, 0xFD, 0xAA, 0x5B⟩, ⟨0xDF, 0x3D, 0x6F, 0x14⟩, ⟨0x78, 0x44, 0xDB, 0x86⟩,
    ⟨0xCA, 0xAF, 0xF3, 0x81⟩, ⟨0xB9, 0x68, 0xC4, 0x3E⟩, ⟨0x38, 0x24, 0x34, 0x2C⟩,
    ⟨0xC2, 0xA3, 0x40, 0x5F⟩, ⟨0x16, 0x1D, 0xC3, 0x72⟩, ⟨0xBC, 0xE2, 0x25, 0x0C⟩,
    ⟨0x28, 0x3C, 0x49, 0x8B⟩, ⟨0xFF, 0x0D, 0x95, 0x41⟩, ⟨0x39, 0xA8, 0x01, 0x71⟩,
    ⟨0x08, 0x0C, 0xB3, 0xDE⟩, ⟨0xD8, 0xB4, 0xE4, 0x9C⟩, ⟨0x64, 0x56, 0xC1, 0x90⟩,
    ⟨0x7B, 0xCB, 0x84, 0x61⟩, ⟨0xD5, 0x32, 0xB6, 0x70⟩, ⟨0x48, 0x6C, 0x5C, 0x74⟩,
    ⟨0xD0, 0xB8, 0x57, 0x42⟩]

/-- `0x##a##b##c##d`. -/
def hexWord (a b c d : UInt8) : ULong :=
  (ulong a <<< 24) ||| (ulong b <<< 16) ||| (ulong c <<< 8) ||| ulong d

/-- The tables under `FIXED_TABLES`. -/
def fixedTables : AesTables where
  fsb := fixedFSb
  ft0 := ftArguments.map fun v => hexWord v.a v.b v.c v.d
  ft1 := ftArguments.map fun v => hexWord v.d v.a v.b v.c
  ft2 := ftArguments.map fun v => hexWord v.c v.d v.a v.b
  ft3 := ftArguments.map fun v => hexWord v.b v.c v.d v.a
  rsb := fixedRSb
  rt0 := rtArguments.map fun v => hexWord v.a v.b v.c v.d
  rt1 := rtArguments.map fun v => hexWord v.d v.a v.b v.c
  rt2 := rtArguments.map fun v => hexWord v.c v.d v.a v.b
  rt3 := rtArguments.map fun v => hexWord v.b v.c v.d v.a
  rcon := [0x01000000, 0x02000000, 0x04000000, 0x08000000, 0x10000000, 0x20000000, 0x40000000,
    0x80000000, 0x1B000000, 0x36000000]

theorem getD_set {α : Type} {l : List α} {i : Nat} (hi : i < l.length) (j : Nat) (a d : α) :
    (l.set i a).getD j d = if i = j then a else l.getD j d := by
  rw [List.getD_eq_getElem?_getD, List.getD_eq_getElem?_getD]
  split
  · next heq => rw [← heq, List.getElem?_set_self hi, Option.getD_some]
  · next hne => rw [List.getElem?_set_ne hne]

/-- What holds before pass `n` of the first loop. -/
structure PowLogInv (n : Nat) (s : UInt8 × List UInt8 × List UInt8) : Prop where
  next : s.1 = power n
  pow_length : s.2.1.length = 256
  log_length : s.2.2.length = 256
  pow : ∀ i < n, s.2.1.getD i 0 = power i
  log : ∀ i < n, power (s.2.2.getD (power i).toNat 0).toNat = power i

theorem PowLogInv.step {n : Nat} {s : UInt8 × List UInt8 × List UInt8} (h : PowLogInv n s)
    (hn : n < 256) : PowLogInv (n + 1) (powLogStep s n) where
  next := by
    rw [power, Function.iterate_succ_apply', ← power, ← h.next, triple, ByteField.xtime_eq]
    rfl
  pow_length := List.length_set.trans h.pow_length
  log_length := List.length_set.trans h.log_length
  pow i hi := by
    have hpow : (powLogStep s n).2.1.getD i 0 = if n = i then s.1 else s.2.1.getD i 0 :=
      getD_set (by rw [h.pow_length]; exact hn) i s.1 0
    rw [hpow]
    split
    · next heq => rw [h.next, heq]
    · next hne => exact h.pow i (by omega)
  log i hi := by
    have hlog : (powLogStep s n).2.2.getD (power i).toNat 0 =
        if s.1.toNat = (power i).toNat then UInt8.ofNat n else s.2.2.getD (power i).toNat 0 :=
      getD_set (by rw [h.log_length]; exact s.1.toNat_lt) _ _ 0
    rw [hlog]
    split
    · next heq =>
      rw [UInt8.toNat_ofNat_of_lt' hn, ← h.next]
      exact UInt8.toNat_inj.mp heq
    · next hne =>
      have hin : i ≠ n := by
        rintro rfl
        exact hne (by rw [h.next])
      exact h.log i (by omega)

theorem powLogInv_foldl {n : Nat} (hn : n ≤ 256) : PowLogInv n
    ((List.range n).foldl powLogStep (1, List.replicate 256 0, List.replicate 256 0)) := by
  induction n with
  | zero =>
    exact ⟨rfl, List.length_replicate, List.length_replicate,
      fun _ hi => absurd hi (Nat.not_lt_zero _), fun _ hi => absurd hi (Nat.not_lt_zero _)⟩
  | succ n ih =>
    rw [List.range_succ, List.foldl_append]
    exact (ih (Nat.le_of_succ_le hn)).step hn

theorem pow_eq {i : Nat} (hi : i < 256) : powLog.1.getD i 0 = power i :=
  (powLogInv_foldl (Nat.le_refl 256)).pow i hi

theorem power_log {y : UInt8} (hy : y ≠ 0) : power (powLog.2.getD y.toNat 0).toNat = y := by
  obtain ⟨i, hi, rfl⟩ := exists_power hy
  exact (powLogInv_foldl (Nat.le_refl 256)).log i (by omega)

/-- Sums of logarithms are the logarithms of products. -/
theorem mulLog_eq (x y : UInt8) : mulLog powLog.1 powLog.2 x y = mul x y := by
  unfold mulLog
  split
  · next h =>
    rw [pow_eq (by omega), power_mod, Nat.add_comm, ← power_mul_power, power_log h.1, power_log h.2]
  · next h =>
    by_cases hx : x = 0
    · rw [hx, zero_mul]
    · rw [not_not.mp fun hy => h ⟨hx, hy⟩, mul_zero]

theorem pow_log_inv {y : UInt8} (hy : y ≠ 0) :
    powLog.1.getD (255 - (powLog.2.getD y.toNat 0).toNat) 0 = inv y := by
  have hlt := (powLog.2.getD y.toNat 0).toNat_lt
  have hsum : 255 - (powLog.2.getD y.toNat 0).toNat + (powLog.2.getD y.toNat 0).toNat = 255 := by
    omega
  apply eq_inv_of_mul_eq_one
  rw [pow_eq (by omega)]
  nth_rewrite 1 [← power_log hy]
  rw [power_mul_power, hsum, power_255]

theorem uchar_ulong (x : UInt8) : uchar (ulong x) = x :=
  congrArg UInt8.ofBitVec (BitVec.setWidth_setWidth_of_le x.toBitVec (by decide))

theorem ulong_eq_ofNat (x : UInt8) : ulong x = BitVec.ofNat 32 x.toNat := by
  rw [ulong, ← BitVec.toNat_inj, BitVec.toNat_setWidth, BitVec.toNat_ofNat, UInt8.toNat_toBitVec]

set_option maxRecDepth 2000 in
theorem length_fixedSb : fixedFSb.length = 256 ∧ fixedRSb.length = 256 := ⟨rfl, rfl⟩

set_option maxRecDepth 8000 in
theorem fsb_eq (b : UInt8) : fixedTables.fsb.getD b.toNat 0 = ulong (Rijndael.sbox b) := by
  have hlist : fixedTables.fsb = ByteField.inverses.map fun b => ulong (Rijndael.affine b) := by
    decide
  have hlen : b.toNat < ByteField.inverses.length :=
    Nat.lt_of_lt_of_eq b.toNat_lt ByteField.length_inverses.symm
  rw [hlist, Rijndael.sbox, ByteField.inv_eq, List.getD_eq_getElem _ _ (by simpa using hlen),
    List.getD_eq_getElem _ _ hlen, List.getElem_map]

theorem getElem?_of_getD {l : List ULong} (hlen : l.length = 256) {b : UInt8} {x : ULong}
    (h : l.getD b.toNat 0 = x) : l[b.toNat]? = some x := by
  have hb : b.toNat < l.length := hlen ▸ b.toNat_lt
  rw [List.getElem?_eq_getElem hb, ← h, List.getD_eq_getElem _ _ hb]

set_option maxRecDepth 8000 in
theorem rsb_eq (b : UInt8) : fixedTables.rsb.getD b.toNat 0 = ulong (Rijndael.invSbox b) := by
  have htable : ∀ p ∈ fixedRSb.zipIdx, ulong (uchar p.1) = p.1 ∧
      (Rijndael.invAffine (UInt8.ofNat p.2) = 0 ∧ uchar p.1 = 0 ∨
        mul (Rijndael.invAffine (UInt8.ofNat p.2)) (uchar p.1) = 1) := by
    decide
  have hlen : b.toNat < fixedRSb.length := Nat.lt_of_lt_of_eq b.toNat_lt length_fixedSb.2.symm
  obtain ⟨hbyte, hinv⟩ := htable _
    (List.mk_mem_zipIdx_iff_getElem?.mpr (List.getElem?_eq_getElem hlen))
  have hentry : uchar fixedRSb[b.toNat] = Rijndael.invSbox b := by
    rw [UInt8.ofNat_toNat] at hinv
    rcases hinv with ⟨hzero, hr⟩ | hmul
    · rw [Rijndael.invSbox, hzero, hr, inv_zero]
    · exact eq_inv_of_mul_eq_one hmul
  rw [← hentry, hbyte]
  exact List.getD_eq_getElem _ _ hlen

/-- A loop that only writes what the list `l` has, everywhere where `s` differs, makes it `l`. -/
theorem foldl_set_eq {α β : Type} {l : List α} (idx : β → Nat) (val : β → α) (bs : List β)
    {s : List α} (hlen : s.length = l.length) (hval : ∀ b ∈ bs, l[idx b]? = some (val b))
    (hall : ∀ p, s[p]? = l[p]? ∨ ∃ b ∈ bs, idx b = p) :
    bs.foldl (fun s b => s.set (idx b) (val b)) s = l := by
  induction bs generalizing s with
  | nil =>
    apply List.ext_getElem?
    intro p
    rcases hall p with h | ⟨b, hb, -⟩
    · exact h
    · exact absurd hb List.not_mem_nil
  | cons b bs ih =>
    apply ih (List.length_set.trans hlen) fun c hc => hval c (List.mem_cons_of_mem b hc)
    intro p
    have hb := hval b List.mem_cons_self
    have hlt : idx b < s.length := hlen ▸ (List.getElem?_eq_some_iff.mp hb).1
    rcases eq_or_ne (idx b) p with rfl | hne
    · exact Or.inl ((List.getElem?_set_self hlt).trans hb.symm)
    · rw [List.getElem?_set_ne hne]
      rcases hall p with h | ⟨c, hc, hcp⟩
      · exact Or.inl h
      · rcases List.mem_cons.mp hc with rfl | hc
        · exact absurd hcp hne
        · exact Or.inr ⟨c, hc, hcp⟩

/-- The loop over the S-boxes is one loop over each of them. -/
theorem foldl_sboxStep (pow log : List UInt8) (is : List Nat) (s : List ULong × List ULong) :
    is.foldl (sboxStep pow log) s =
      (is.foldl (fun t i => t.set i
          (ulong (sboxAffine (pow.getD (255 - (log.getD i 0).toNat) 0)))) s.1,
        is.foldl (fun t i => t.set (sboxAffine (pow.getD (255 - (log.getD i 0).toNat) 0)).toNat
          (BitVec.ofNat 32 i)) s.2) := by
  induction is generalizing s with
  | nil => rfl
  | cons i is ih => exact ih (sboxStep pow log s i)

theorem sboxAffine_eq (x : UInt8) : sboxAffine x = Rijndael.affine x := by
  have h : ∀ b : BitVec 8, sboxAffine ⟨b⟩ = Rijndael.affine ⟨b⟩ := by decide
  exact h x.toBitVec

/-- The byte that pass `i` computes. -/
theorem sboxAffine_pow {x : UInt8} (hx : x ≠ 0) :
    sboxAffine (powLog.1.getD (255 - (powLog.2.getD x.toNat 0).toNat) 0) = Rijndael.sbox x := by
  rw [pow_log_inv hx, sboxAffine_eq, Rijndael.sbox]

/-- The passes of the loop are the elements but zero. -/
theorem mem_passes {i : Nat} : i ∈ List.range' 1 255 ↔ ∃ x : UInt8, x ≠ 0 ∧ x.toNat = i := by
  rw [List.mem_range'_1]
  constructor
  · intro hi
    have hnat : (UInt8.ofNat i).toNat = i := UInt8.toNat_ofNat_of_lt' (show i < 2 ^ 8 by omega)
    refine ⟨UInt8.ofNat i, fun h => ?_, hnat⟩
    have hzero : i = 0 := hnat.symm.trans (congrArg UInt8.toNat h)
    omega
  · rintro ⟨x, hx, rfl⟩
    have hlt := x.toNat_lt
    have hpos : x.toNat ≠ 0 := fun h => hx (UInt8.toNat_inj.mp h)
    omega

/-- What a loop over a table that is not defined for zero leaves unwritten. -/
theorem getElem?_or_pass {l s : List ULong} (hl : l.length = 256) (hs : s.length = 256)
    {f : UInt8 → UInt8} (hf : ∀ y, ∃ x, f x = y) (hzero : s[(f 0).toNat]? = l[(f 0).toNat]?)
    (p : Nat) : s[p]? = l[p]? ∨ ∃ x : UInt8, x ≠ 0 ∧ (f x).toNat = p := by
  by_cases hp : p < 256
  · have hnat : (UInt8.ofNat p).toNat = p := UInt8.toNat_ofNat_of_lt' hp
    obtain ⟨x, hx⟩ := hf (UInt8.ofNat p)
    by_cases hx0 : x = 0
    · rw [← hnat, ← hx, hx0]
      exact Or.inl hzero
    · exact Or.inr ⟨x, hx0, by rw [hx, hnat]⟩
  · left
    rw [List.getElem?_eq_none (by omega), List.getElem?_eq_none (by omega)]

theorem sboxes_powLog : sboxes powLog.1 powLog.2 = (fixedFSb, fixedRSb) := by
  have hlen (i : Nat) (a : ULong) : ((List.replicate 256 (0 : ULong)).set i a).length = 256 :=
    List.length_set.trans List.length_replicate
  rw [sboxes, foldl_sboxStep, Prod.mk.injEq]
  dsimp only
  constructor
  · refine foldl_set_eq _ _ _ ((hlen _ _).trans length_fixedSb.1.symm) (fun i hi => ?_) fun p => ?_
    · obtain ⟨x, hx, rfl⟩ := mem_passes.mp hi
      rw [sboxAffine_pow hx]
      exact getElem?_of_getD length_fixedSb.1 (fsb_eq x)
    · rcases getElem?_or_pass (f := id) length_fixedSb.1 (hlen 0 0x63) (fun y => ⟨y, rfl⟩) rfl p
        with h | ⟨x, hx, hp⟩
      · exact Or.inl h
      · exact Or.inr ⟨x.toNat, mem_passes.mpr ⟨x, hx, rfl⟩, hp⟩
  · refine foldl_set_eq _ _ _ ((hlen _ _).trans length_fixedSb.2.symm) (fun i hi => ?_) fun p => ?_
    · obtain ⟨x, hx, rfl⟩ := mem_passes.mp hi
      have hentry := getElem?_of_getD length_fixedSb.2 (rsb_eq (Rijndael.sbox x))
      rw [Rijndael.invSbox_sbox] at hentry
      rw [sboxAffine_pow hx, ← ulong_eq_ofNat]
      exact hentry
    · have hsurj (y : UInt8) : ∃ x, Rijndael.sbox x = y :=
        ⟨Rijndael.invSbox y, Rijndael.sbox_invSbox y⟩
      have hzero : Rijndael.sbox 0 = 0x63 := by
        rw [Rijndael.sbox, inv_zero]
        decide
      rcases getElem?_or_pass length_fixedSb.2 (hlen 0x63 0) hsurj (by rw [hzero]; rfl) p
        with h | ⟨x, hx, hp⟩
      · exact Or.inl h
      · exact Or.inr ⟨x.toNat, mem_passes.mpr ⟨x, hx, rfl⟩, by rw [sboxAffine_pow hx, hp]⟩

set_option maxRecDepth 8000 in
theorem ft0_eq_map : fixedTables.ft0 = fixedFSb.map ft0Entry := by
  decide

/-- The bytes of a word from the top. -/
def columnOf (w : ULong) : Rijndael.Word :=
  ⟨uchar (w >>> 24), uchar (w >>> 16), uchar (w >>> 8), uchar w⟩

theorem columnOf_getUint32 (b : Nat → UInt8) (i : Nat) :
    columnOf (getUint32 b i) = ⟨b i, b (i + 1), b (i + 2), b (i + 3)⟩ := by
  have h0 := putUint32_getUint32 b i (show 0 < 4 by decide)
  have h1 := putUint32_getUint32 b i (show 1 < 4 by decide)
  have h2 := putUint32_getUint32 b i (show 2 < 4 by decide)
  have h3 := putUint32_getUint32 b i (show 3 < 4 by decide)
  exact Quad.mk.injEq .. ▸ ⟨h0, h1, h2, h3⟩

theorem putUint32_eq_columnOf (w : ULong) :
    putUint32 w = #v[(columnOf w).a, (columnOf w).b, (columnOf w).c, (columnOf w).d] := rfl

theorem columnOf_injective {v w : ULong} (h : columnOf v = columnOf w) : v = w := by
  have hget (w : ULong) : getUint32 (fun k => (putUint32 w).toList.getD k 0) 0 = w := by
    apply getUint32_eq
    intro k hk
    simp [hk]
  rw [← hget v, ← hget w, putUint32_eq_columnOf, putUint32_eq_columnOf, h]

theorem columnOf_hexWord (a b c d : UInt8) : columnOf (hexWord a b c d) = ⟨a, b, c, d⟩ :=
  columnOf_getUint32 (fun k => [a, b, c, d].getD k 0) 0

theorem uchar_xor (v w : ULong) : uchar (v ^^^ w) = uchar v ^^^ uchar w := by
  rw [uchar, BitVec.setWidth_xor]
  rfl

theorem columnOf_xor (v w : ULong) :
    columnOf (v ^^^ w) = Rijndael.addWord (columnOf v) (columnOf w) := by
  simp only [columnOf, BitVec.ushiftRight_xor_distrib, uchar_xor, Rijndael.addWord, Quad.zip]

/-- Four bytes that are shifted apart and added are a word. -/
theorem xor_eq_hexWord (a b c d : UInt8) :
    ulong d ^^^ (ulong c <<< 8) ^^^ (ulong b <<< 16) ^^^ (ulong a <<< 24) = hexWord a b c d := by
  unfold hexWord ulong
  ext i hi
  interval_cases i <;> simp

theorem columnOf_rotr8 (w : ULong) : columnOf (rotr8 w) = Rijndael.rotDown (columnOf w) := by
  simp only [columnOf, Rijndael.rotDown, Quad.mk.injEq]
  refine ⟨?_, ?_, ?_, ?_⟩
  all_goals
    rw [← UInt8.toBitVec_inj]
    simp only [uchar]
    ext j hj
    interval_cases j <;> simp [rotr8]

theorem rotr8_hexWord (a b c d : UInt8) : rotr8 (hexWord a b c d) = hexWord d a b c := by
  apply columnOf_injective
  rw [columnOf_rotr8, columnOf_hexWord, columnOf_hexWord]
  rfl

theorem map_rotr8_ft : fixedTables.ft0.map rotr8 = fixedTables.ft1 ∧
    fixedTables.ft1.map rotr8 = fixedTables.ft2 ∧ fixedTables.ft2.map rotr8 = fixedTables.ft3 := by
  simp only [fixedTables, List.map_map, Function.comp_def, rotr8_hexWord, and_self]

theorem map_rotr8_rt : fixedTables.rt0.map rotr8 = fixedTables.rt1 ∧
    fixedTables.rt1.map rotr8 = fixedTables.rt2 ∧ fixedTables.rt2.map rotr8 = fixedTables.rt3 := by
  simp only [fixedTables, List.map_map, Function.comp_def, rotr8_hexWord, and_self]

theorem xTime_eq (x : UInt8) : xTime x = mul 2 x ∧ x ^^^ xTime x = mul 3 x := by
  have h : ∀ b : BitVec 8, xTime ⟨b⟩ = mul 2 ⟨b⟩ ∧ (⟨b⟩ : UInt8) ^^^ xTime ⟨b⟩ = mul 3 ⟨b⟩ := by
    decide
  exact h x.toBitVec

/-- What a byte of the substituted state adds to its column, if it is the top one. -/
def ftColumn (s : UInt8) : Rijndael.Word := ⟨mul 2 s, s, s, mul 3 s⟩

def rtColumn (s : UInt8) : Rijndael.Word := ⟨mul 14 s, mul 9 s, mul 13 s, mul 11 s⟩

theorem columnOf_ft0Entry (x : UInt8) : columnOf (ft0Entry (ulong x)) = ftColumn x := by
  have hmask (w : ULong) : w &&& 0xFFFFFFFF = w := BitVec.and_allOnes
  unfold ft0Entry
  simp only [uchar_ulong]
  rw [hmask, xor_eq_hexWord, columnOf_hexWord, (xTime_eq x).2, (xTime_eq x).1]
  rfl

/-- The same products, with the multiplications by x written out. -/
theorem rtColumn_eq (s : UInt8) : rtColumn s =
    ⟨xtime (xtime (xtime s)) ^^^ xtime (xtime s) ^^^ xtime s, xtime (xtime (xtime s)) ^^^ s,
      xtime (xtime (xtime s)) ^^^ xtime (xtime s) ^^^ s,
      xtime (xtime (xtime s)) ^^^ xtime s ^^^ s⟩ := by
  have h14 : (14 : UInt8) = xtime (xtime (xtime 1)) ^^^ xtime (xtime 1) ^^^ xtime 1 := by decide
  have h9 : (9 : UInt8) = xtime (xtime (xtime 1)) ^^^ 1 := by decide
  have h13 : (13 : UInt8) = xtime (xtime (xtime 1)) ^^^ xtime (xtime 1) ^^^ 1 := by decide
  have h11 : (11 : UInt8) = xtime (xtime (xtime 1)) ^^^ xtime 1 ^^^ 1 := by decide
  rw [rtColumn, h14, h9, h13, h11]
  simp only [xor_mul, xtime_mul, mul_one_left]

theorem rt0Entry_eq (s : ULong) : rt0Entry powLog.1 powLog.2 s = hexWord (rtColumn (uchar s)).a
    (rtColumn (uchar s)).b (rtColumn (uchar s)).c (rtColumn (uchar s)).d := by
  have hmask (w : ULong) : w &&& 0xFFFFFFFF = w := BitVec.and_allOnes
  simp only [rt0Entry, mulLog_eq]
  rw [hmask, xor_eq_hexWord]
  rfl

set_option maxRecDepth 8000 in
theorem rt0_eq_map : fixedTables.rt0 = fixedRSb.map (rt0Entry powLog.1 powLog.2) := by
  have hcolumns : rtArguments = fixedRSb.map fun s => rtColumn (uchar s) := by
    simp only [rtColumn_eq]
    decide
  simp only [fixedTables, hcolumns, List.map_map]
  exact List.map_congr_left fun s _ => (rt0Entry_eq s).symm

theorem columnOf_rt0Entry (y : UInt8) :
    columnOf (rt0Entry powLog.1 powLog.2 (ulong y)) = rtColumn y := by
  rw [rt0Entry_eq, columnOf_hexWord, uchar_ulong]

/-- Both ways to the tables give the same ones. -/
theorem aesGenTables_eq_fixedTables : aesGenTables = fixedTables := by
  have hfsb : (sboxes powLog.1 powLog.2).1 = fixedTables.fsb := congrArg Prod.fst sboxes_powLog
  have hrsb : (sboxes powLog.1 powLog.2).2 = fixedTables.rsb := congrArg Prod.snd sboxes_powLog
  have hft0 : fixedTables.fsb.map ft0Entry = fixedTables.ft0 := ft0_eq_map.symm
  have hrt0 : fixedTables.rsb.map (rt0Entry powLog.1 powLog.2) = fixedTables.rt0 := rt0_eq_map.symm
  have hrcon : rconLoop 10 1 = fixedTables.rcon := by decide
  simp only [aesGenTables, hfsb, hrsb, hft0, hrt0, map_rotr8_ft, map_rotr8_rt, hrcon]

/-- A rotated table holds the rotated columns. -/
theorem columnOf_map_rotr8 (l : List ULong) (n : Nat) :
    columnOf ((l.map rotr8).getD n 0) = Rijndael.rotDown (columnOf (l.getD n 0)) := by
  rw [← columnOf_rotr8, ← List.getD_map l 0 rotr8]
  rfl

theorem columnOf_ft0 (b : UInt8) :
    columnOf (fixedTables.ft0.getD b.toNat 0) = ftColumn (Rijndael.sbox b) := by
  have hget : (fixedFSb.map ft0Entry).getD b.toNat (ft0Entry 0) =
      ft0Entry (fixedFSb.getD b.toNat 0) := List.getD_map _ _ _
  have hzero : ft0Entry 0 = 0 := by decide
  rw [hzero] at hget
  rw [ft0_eq_map, hget, ← columnOf_ft0Entry, ← fsb_eq]
  rfl

theorem columnOf_rt0 (b : UInt8) :
    columnOf (fixedTables.rt0.getD b.toNat 0) = rtColumn (Rijndael.invSbox b) := by
  have hget : (fixedRSb.map (rt0Entry powLog.1 powLog.2)).getD b.toNat
      (rt0Entry powLog.1 powLog.2 0) =
        rt0Entry powLog.1 powLog.2 (fixedRSb.getD b.toNat 0) := List.getD_map _ _ _
  have hzero : rt0Entry powLog.1 powLog.2 0 = 0 := by
    rw [rt0Entry_eq]
    decide
  rw [hzero] at hget
  rw [rt0_eq_map, hget, ← columnOf_rt0Entry, ← rsb_eq]
  rfl

end BackupSoftware.Encryption

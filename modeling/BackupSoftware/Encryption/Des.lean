import BackupSoftware.Library.Blocks
import BackupSoftware.Library.Feistel
import Mathlib.Tactic.IntervalCases

/-!
# DES and Triple-DES on blocks of eight bytes

The block functions of `encryption/des.c`: the tables, the key schedule, the
permutations and the rounds. The subkeys of a round are the pair that `*SK++` reads
twice in it. A pointer to bytes is the function that reads at an offset from it.

A block that was encrypted is decrypted again under the same key. The key schedule
and the tables play no part in this: decryption takes the same subkeys in reverse.
-/

namespace BackupSoftware.Encryption

open Library

/-- An `unsigned long int`; no value of the program needs more than 32 bits. -/
abbrev ULong := BitVec 32

def sb1 : List ULong :=
  [0x01010400, 0x00000000, 0x00010000, 0x01010404, 0x01010004, 0x00010404, 0x00000004, 0x00010000,
    0x00000400, 0x01010400, 0x01010404, 0x00000400, 0x01000404, 0x01010004, 0x01000000, 0x00000004,
    0x00000404, 0x01000400, 0x01000400, 0x00010400, 0x00010400, 0x01010000, 0x01010000, 0x01000404,
    0x00010004, 0x01000004, 0x01000004, 0x00010004, 0x00000000, 0x00000404, 0x00010404, 0x01000000,
    0x00010000, 0x01010404, 0x00000004, 0x01010000, 0x01010400, 0x01000000, 0x01000000, 0x00000400,
    0x01010004, 0x00010000, 0x00010400, 0x01000004, 0x00000400, 0x00000004, 0x01000404, 0x00010404,
    0x01010404, 0x00010004, 0x01010000, 0x01000404, 0x01000004, 0x00000404, 0x00010404, 0x01010400,
    0x00000404, 0x01000400, 0x01000400, 0x00000000, 0x00010004, 0x00010400, 0x00000000, 0x01010004]

def sb2 : List ULong :=
  [0x80108020, 0x80008000, 0x00008000, 0x00108020, 0x00100000, 0x00000020, 0x80100020, 0x80008020,
    0x80000020, 0x80108020, 0x80108000, 0x80000000, 0x80008000, 0x00100000, 0x00000020, 0x80100020,
    0x00108000, 0x00100020, 0x80008020, 0x00000000, 0x80000000, 0x00008000, 0x00108020, 0x80100000,
    0x00100020, 0x80000020, 0x00000000, 0x00108000, 0x00008020, 0x80108000, 0x80100000, 0x00008020,
    0x00000000, 0x00108020, 0x80100020, 0x00100000, 0x80008020, 0x80100000, 0x80108000, 0x00008000,
    0x80100000, 0x80008000, 0x00000020, 0x80108020, 0x00108020, 0x00000020, 0x00008000, 0x80000000,
    0x00008020, 0x80108000, 0x00100000, 0x80000020, 0x00100020, 0x80008020, 0x80000020, 0x00100020,
    0x00108000, 0x00000000, 0x80008000, 0x00008020, 0x80000000, 0x80100020, 0x80108020, 0x00108000]

def sb3 : List ULong :=
  [0x00000208, 0x08020200, 0x00000000, 0x08020008, 0x08000200, 0x00000000, 0x00020208, 0x08000200,
    0x00020008, 0x08000008, 0x08000008, 0x00020000, 0x08020208, 0x00020008, 0x08020000, 0x00000208,
    0x08000000, 0x00000008, 0x08020200, 0x00000200, 0x00020200, 0x08020000, 0x08020008, 0x00020208,
    0x08000208, 0x00020200, 0x00020000, 0x08000208, 0x00000008, 0x08020208, 0x00000200, 0x08000000,
    0x08020200, 0x08000000, 0x00020008, 0x00000208, 0x00020000, 0x08020200, 0x08000200, 0x00000000,
    0x00000200, 0x00020008, 0x08020208, 0x08000200, 0x08000008, 0x00000200, 0x00000000, 0x08020008,
    0x08000208, 0x00020000, 0x08000000, 0x08020208, 0x00000008, 0x00020208, 0x00020200, 0x08000008,
    0x08020000, 0x08000208, 0x00000208, 0x08020000, 0x00020208, 0x00000008, 0x08020008, 0x00020200]

def sb4 : List ULong :=
  [0x00802001, 0x00002081, 0x00002081, 0x00000080, 0x00802080, 0x00800081, 0x00800001, 0x00002001,
    0x00000000, 0x00802000, 0x00802000, 0x00802081, 0x00000081, 0x00000000, 0x00800080, 0x00800001,
    0x00000001, 0x00002000, 0x00800000, 0x00802001, 0x00000080, 0x00800000, 0x00002001, 0x00002080,
    0x00800081, 0x00000001, 0x00002080, 0x00800080, 0x00002000, 0x00802080, 0x00802081, 0x00000081,
    0x00800080, 0x00800001, 0x00802000, 0x00802081, 0x00000081, 0x00000000, 0x00000000, 0x00802000,
    0x00002080, 0x00800080, 0x00800081, 0x00000001, 0x00802001, 0x00002081, 0x00002081, 0x00000080,
    0x00802081, 0x00000081, 0x00000001, 0x00002000, 0x00800001, 0x00002001, 0x00802080, 0x00800081,
    0x00002001, 0x00002080, 0x00800000, 0x00802001, 0x00000080, 0x00800000, 0x00002000, 0x00802080]

def sb5 : List ULong :=
  [0x00000100, 0x02080100, 0x02080000, 0x42000100, 0x00080000, 0x00000100, 0x40000000, 0x02080000,
    0x40080100, 0x00080000, 0x02000100, 0x40080100, 0x42000100, 0x42080000, 0x00080100, 0x40000000,
    0x02000000, 0x40080000, 0x40080000, 0x00000000, 0x40000100, 0x42080100, 0x42080100, 0x02000100,
    0x42080000, 0x40000100, 0x00000000, 0x42000000, 0x02080100, 0x02000000, 0x42000000, 0x00080100,
    0x00080000, 0x42000100, 0x00000100, 0x02000000, 0x40000000, 0x02080000, 0x42000100, 0x40080100,
    0x02000100, 0x40000000, 0x42080000, 0x02080100, 0x40080100, 0x00000100, 0x02000000, 0x42080000,
    0x42080100, 0x00080100, 0x42000000, 0x42080100, 0x02080000, 0x00000000, 0x40080000, 0x42000000,
    0x00080100, 0x02000100, 0x40000100, 0x00080000, 0x00000000, 0x40080000, 0x02080100, 0x40000100]

def sb6 : List ULong :=
  [0x20000010, 0x20400000, 0x00004000, 0x20404010, 0x20400000, 0x00000010, 0x20404010, 0x00400000,
    0x20004000, 0x00404010, 0x00400000, 0x20000010, 0x00400010, 0x20004000, 0x20000000, 0x00004010,
    0x00000000, 0x00400010, 0x20004010, 0x00004000, 0x00404000, 0x20004010, 0x00000010, 0x20400010,
    0x20400010, 0x00000000, 0x00404010, 0x20404000, 0x00004010, 0x00404000, 0x20404000, 0x20000000,
    0x20004000, 0x00000010, 0x20400010, 0x00404000, 0x20404010, 0x00400000, 0x00004010, 0x20000010,
    0x00400000, 0x20004000, 0x20000000, 0x00004010, 0x20000010, 0x20404010, 0x00404000, 0x20400000,
    0x00404010, 0x20404000, 0x00000000, 0x20400010, 0x00000010, 0x00004000, 0x20400000, 0x00404010,
    0x00004000, 0x00400010, 0x20004010, 0x00000000, 0x20404000, 0x20000000, 0x00400010, 0x20004010]

def sb7 : List ULong :=
  [0x00200000, 0x04200002, 0x04000802, 0x00000000, 0x00000800, 0x04000802, 0x00200802, 0x04200800,
    0x04200802, 0x00200000, 0x00000000, 0x04000002, 0x00000002, 0x04000000, 0x04200002, 0x00000802,
    0x04000800, 0x00200802, 0x00200002, 0x04000800, 0x04000002, 0x04200000, 0x04200800, 0x00200002,
    0x04200000, 0x00000800, 0x00000802, 0x04200802, 0x00200800, 0x00000002, 0x04000000, 0x00200800,
    0x04000000, 0x00200800, 0x00200000, 0x04000802, 0x04000802, 0x04200002, 0x04200002, 0x00000002,
    0x00200002, 0x04000000, 0x04000800, 0x00200000, 0x04200800, 0x00000802, 0x00200802, 0x04200800,
    0x00000802, 0x04000002, 0x04200802, 0x04200000, 0x00200800, 0x00000000, 0x00000002, 0x04200802,
    0x00000000, 0x00200802, 0x04200000, 0x00000800, 0x04000002, 0x04000800, 0x00000800, 0x00200002]

def sb8 : List ULong :=
  [0x10001040, 0x00001000, 0x00040000, 0x10041040, 0x10000000, 0x10001040, 0x00000040, 0x10000000,
    0x00040040, 0x10040000, 0x10041040, 0x00041000, 0x10041000, 0x00041040, 0x00001000, 0x00000040,
    0x10040000, 0x10000040, 0x10001000, 0x00001040, 0x00041000, 0x00040040, 0x10040040, 0x10041000,
    0x00001040, 0x00000000, 0x00000000, 0x10040040, 0x10000040, 0x10001000, 0x00041040, 0x00040000,
    0x00041040, 0x00040000, 0x10041000, 0x00001000, 0x00000040, 0x10040040, 0x00001000, 0x00041040,
    0x10001000, 0x00000040, 0x10000040, 0x10040000, 0x10040040, 0x10000000, 0x00040000, 0x10001040,
    0x00000000, 0x10041040, 0x00040040, 0x10000040, 0x10040000, 0x10001000, 0x10001040, 0x00000000,
    0x10041040, 0x00041000, 0x00041000, 0x00001040, 0x00001040, 0x00040040, 0x10000000, 0x10041000]

def lHs : List ULong :=
  [0x00000000, 0x00000001, 0x00000100, 0x00000101, 0x00010000, 0x00010001, 0x00010100, 0x00010101,
    0x01000000, 0x01000001, 0x01000100, 0x01000101, 0x01010000, 0x01010001, 0x01010100, 0x01010101]

def rHs : List ULong :=
  [0x00000000, 0x01000000, 0x00010000, 0x01010000, 0x00000100, 0x01000100, 0x00010100, 0x01010100,
    0x00000001, 0x01000001, 0x00010001, 0x01010001, 0x00000101, 0x01000101, 0x00010101, 0x01010101]

/-- `GET_UINT32_BE(n, b, i)`. -/
def getUint32 (b : Nat → UInt8) (i : Nat) : ULong :=
  ((b i).toBitVec.setWidth 32 <<< 24) ||| ((b (i + 1)).toBitVec.setWidth 32 <<< 16)
    ||| ((b (i + 2)).toBitVec.setWidth 32 <<< 8) ||| (b (i + 3)).toBitVec.setWidth 32

/-- The bytes that `PUT_UINT32_BE(n, b, i)` writes from `b[i]` on. -/
def putUint32 (n : ULong) : Vector UInt8 4 :=
  #v[⟨(n >>> 24).setWidth 8⟩, ⟨(n >>> 16).setWidth 8⟩, ⟨(n >>> 8).setWidth 8⟩, ⟨n.setWidth 8⟩]

/-- `T = ((X >> s) ^ Y) & mask; Y ^= T; X ^= (T << s)`, on the pair of `X` and `Y`. -/
def exchange (s : Nat) (mask : ULong) (b : ULong × ULong) : ULong × ULong :=
  let t := ((b.1 >>> s) ^^^ b.2) &&& mask
  (b.1 ^^^ (t <<< s), b.2 ^^^ t)

/-- `((X << 1) | (X >> 31)) & 0xFFFFFFFF`. -/
def rotl1 (x : ULong) : ULong := (x <<< 1) ||| (x >>> 31)

/-- `((X << 31) | (X >> 1)) & 0xFFFFFFFF`. -/
def rotr1 (x : ULong) : ULong := (x <<< 31) ||| (x >>> 1)

/-- `DES_IP(X, Y)`. Its third and fourth lines exchange bits of `Y` with bits of `X`. -/
def desIp (b : ULong × ULong) : ULong × ULong :=
  let b := exchange 4 0x0F0F0F0F b
  let b := exchange 16 0x0000FFFF b
  let b := (exchange 2 0x33333333 b.swap).swap
  let b := (exchange 8 0x00FF00FF b.swap).swap
  let b := (b.1, rotl1 b.2)
  let b := exchange 0 0xAAAAAAAA b
  (rotl1 b.1, b.2)

/-- `DES_FP(X, Y)`. -/
def desFp (b : ULong × ULong) : ULong × ULong :=
  let b := (rotr1 b.1, b.2)
  let b := exchange 0 0xAAAAAAAA b
  let b := (b.1, rotr1 b.2)
  let b := (exchange 8 0x00FF00FF b.swap).swap
  let b := (exchange 2 0x33333333 b.swap).swap
  let b := exchange 16 0x0000FFFF b
  exchange 4 0x0F0F0F0F b

/-- `SB[(T >> s) & 0x3F]`. -/
def sbox (sb : List ULong) (t : ULong) (s : Nat) : ULong :=
  sb.getD ((t >>> s) &&& 0x3F).toNat 0

/-- What `DES_ROUND(X, Y)` xors into `Y`, with the two subkeys that it reads. -/
def desRound (sk : ULong × ULong) (x : ULong) : ULong :=
  let t := sk.1 ^^^ x
  let y := sbox sb8 t 0 ^^^ sbox sb6 t 8 ^^^ sbox sb4 t 16 ^^^ sbox sb2 t 24
  let t := sk.2 ^^^ ((x <<< 28) ||| (x >>> 4))
  y ^^^ (sbox sb7 t 0 ^^^ sbox sb5 t 8 ^^^ sbox sb3 t 16 ^^^ sbox sb1 t 24)

/-- `DES_ROUND(Y, X); DES_ROUND(X, Y); ..`, one round for each pair of subkeys: the
word that is changed first stands first. -/
def desRounds (sk : List (ULong × ULong)) (b : ULong × ULong) : ULong × ULong :=
  Feistel.rounds (· ^^^ ·) desRound sk b

/-- Permuted choice 1 of `des_main_ks`. -/
def permutedChoice1 (key : Nat → UInt8) : ULong × ULong :=
  let b := (exchange 4 0x0F0F0F0F (getUint32 key 4, getUint32 key 0)).swap
  let b := (exchange 0 0x10101010 b.swap).swap
  let lh (s : Nat) : ULong := lHs.getD ((b.1 >>> s) &&& 0xF).toNat 0
  let rh (s : Nat) : ULong := rHs.getD ((b.2 >>> s) &&& 0xF).toNat 0
  let x := (lh 0 <<< 3) ||| (lh 8 <<< 2) ||| (lh 16 <<< 1) ||| lh 24
    ||| (lh 5 <<< 7) ||| (lh 13 <<< 6) ||| (lh 21 <<< 5) ||| (lh 29 <<< 4)
  let y := (rh 1 <<< 3) ||| (rh 9 <<< 2) ||| (rh 17 <<< 1) ||| rh 25
    ||| (rh 4 <<< 7) ||| (rh 12 <<< 6) ||| (rh 20 <<< 5) ||| (rh 28 <<< 4)
  (x &&& 0x0FFFFFFF, y &&& 0x0FFFFFFF)

/-- The rotation of a half of the key in pass `i` of the loop. -/
def rotateHalf (i : Nat) (x : ULong) : ULong :=
  if i < 2 ∨ i = 8 ∨ i = 15 then ((x <<< 1) ||| (x >>> 27)) &&& 0x0FFFFFFF
  else ((x <<< 2) ||| (x >>> 26)) &&& 0x0FFFFFFF

/-- The two words written at `*SK++` in a pass of the loop. -/
def subkeys (x y : ULong) : ULong × ULong :=
  (((x <<< 4) &&& 0x24000000) ||| ((x <<< 28) &&& 0x10000000)
    ||| ((x <<< 14) &&& 0x08000000) ||| ((x <<< 18) &&& 0x02080000)
    ||| ((x <<< 6) &&& 0x01000000) ||| ((x <<< 9) &&& 0x00200000)
    ||| ((x >>> 1) &&& 0x00100000) ||| ((x <<< 10) &&& 0x00040000)
    ||| ((x <<< 2) &&& 0x00020000) ||| ((x >>> 10) &&& 0x00010000)
    ||| ((y >>> 13) &&& 0x00002000) ||| ((y >>> 4) &&& 0x00001000)
    ||| ((y <<< 6) &&& 0x00000800) ||| ((y >>> 1) &&& 0x00000400)
    ||| ((y >>> 14) &&& 0x00000200) ||| (y &&& 0x00000100)
    ||| ((y >>> 5) &&& 0x00000020) ||| ((y >>> 10) &&& 0x00000010)
    ||| ((y >>> 3) &&& 0x00000008) ||| ((y >>> 18) &&& 0x00000004)
    ||| ((y >>> 26) &&& 0x00000002) ||| ((y >>> 24) &&& 0x00000001),
   ((x <<< 15) &&& 0x20000000) ||| ((x <<< 17) &&& 0x10000000)
    ||| ((x <<< 10) &&& 0x08000000) ||| ((x <<< 22) &&& 0x04000000)
    ||| ((x >>> 2) &&& 0x02000000) ||| ((x <<< 1) &&& 0x01000000)
    ||| ((x <<< 16) &&& 0x00200000) ||| ((x <<< 11) &&& 0x00100000)
    ||| ((x <<< 3) &&& 0x00080000) ||| ((x >>> 6) &&& 0x00040000)
    ||| ((x <<< 15) &&& 0x00020000) ||| ((x >>> 4) &&& 0x00010000)
    ||| ((y >>> 2) &&& 0x00002000) ||| ((y <<< 8) &&& 0x00001000)
    ||| ((y >>> 14) &&& 0x00000808) ||| ((y >>> 9) &&& 0x00000400)
    ||| (y &&& 0x00000200) ||| ((y <<< 7) &&& 0x00000100)
    ||| ((y >>> 7) &&& 0x00000020) ||| ((y >>> 3) &&& 0x00000011)
    ||| ((y <<< 2) &&& 0x00000004) ||| ((y >>> 21) &&& 0x00000002))

/-- The loop of `des_main_ks`, over the passes of the list. -/
def subkeyLoop : List Nat → ULong × ULong → List (ULong × ULong)
  | [], _ => []
  | i :: is, b =>
      let b := (rotateHalf i b.1, rotateHalf i b.2)
      subkeys b.1 b.2 :: subkeyLoop is b

/-- `des_main_ks`: the subkeys of the sixteen rounds. -/
def desMainKs (key : Nat → UInt8) : List (ULong × ULong) :=
  subkeyLoop (List.range 16) (permutedChoice1 key)

/-- `des_context` and `des3_context`: the subkeys to encrypt and to decrypt. -/
structure DesContext where
  esk : List (ULong × ULong)
  dsk : List (ULong × ULong)
  deriving DecidableEq, Repr

/-- `des_set_key`. -/
def desSetKey (key : Nat → UInt8) : DesContext :=
  let esk := desMainKs key
  { esk := esk, dsk := esk.reverse }

/-- `des3_set_2keys`: the second key of the pair is at `key + 8`. -/
def des3Set2keys (key : Nat → UInt8) : DesContext :=
  let sk := desMainKs key
  let sk' := desMainKs fun k => key (8 + k)
  { esk := sk ++ sk'.reverse ++ sk, dsk := sk.reverse ++ sk' ++ sk.reverse }

/-- The two words `X` and `Y` of an input block. -/
def getBlock (input : Nat → UInt8) : ULong × ULong := (getUint32 input 0, getUint32 input 4)

/-- The output block of two words. -/
def putBlock (b : ULong × ULong) : Vector UInt8 8 := putUint32 b.1 ++ putUint32 b.2

/-- What `des_crypt` makes of the words of a block. -/
def desWords (sk : List (ULong × ULong)) (b : ULong × ULong) : ULong × ULong :=
  desFp (desRounds sk (desIp b)).swap

/-- What `des3_crypt` makes of the words of a block. The sixteen rounds in the middle
start with the other word. -/
def des3Words (sk : List (ULong × ULong)) (b : ULong × ULong) : ULong × ULong :=
  let b := desRounds (sk.take 16) (desIp b)
  let b := (desRounds ((sk.drop 16).take 16) b.swap).swap
  desFp (desRounds (sk.drop 32) b).swap

/-- `des_crypt`: the bytes written at `output`. -/
def desCrypt (sk : List (ULong × ULong)) (input : Nat → UInt8) : Vector UInt8 8 :=
  putBlock (desWords sk (getBlock input))

/-- `des3_crypt`. -/
def des3Crypt (sk : List (ULong × ULong)) (input : Nat → UInt8) : Vector UInt8 8 :=
  putBlock (des3Words sk (getBlock input))

/-- `lib_des`: the bytes written at `out`. -/
def libDes (input key : Nat → UInt8) (direct : Nat) : Vector UInt8 8 :=
  let ctx := desSetKey key
  if direct = 1 then desCrypt ctx.dsk input else desCrypt ctx.esk input

/-- `lib_des3`. -/
def libDes3 (input key : Nat → UInt8) (direct : Nat) : Vector UInt8 8 :=
  let ctx := des3Set2keys key
  if direct = 1 then des3Crypt ctx.dsk input else des3Crypt ctx.esk input

theorem shift_masked {s : Nat} {mask : ULong} (hmask : (mask <<< s) >>> s = mask) (u : ULong) :
    ((u &&& mask) <<< s) >>> s = u &&& mask := by
  ext i hi
  have hbit := congrArg (fun v : ULong => v.getLsbD i) hmask
  simp at hbit ⊢
  grind

/-- An exchange is its own inverse if the mask keeps clear of the bits shifted out. -/
theorem exchange_exchange (s : Nat) (mask : ULong) (hmask : (mask <<< s) >>> s = mask)
    (b : ULong × ULong) : exchange s mask (exchange s mask b) = b := by
  obtain ⟨x, y⟩ := b
  have ht := shift_masked hmask ((x >>> s) ^^^ y)
  generalize htdef : ((x >>> s) ^^^ y) &&& mask = t at ht
  have hsame : (((x ^^^ (t <<< s)) >>> s) ^^^ (y ^^^ t)) &&& mask = t := by
    rw [BitVec.ushiftRight_xor_distrib, ht, BitVec.xor_comm y, ← BitVec.xor_assoc,
      BitVec.xor_assoc (x >>> s), BitVec.xor_self, BitVec.xor_zero, htdef]
  have hfirst : exchange s mask (x, y) = (x ^^^ (t <<< s), y ^^^ t) := by
    simp only [exchange, htdef]
  have hsecond : exchange s mask (x ^^^ (t <<< s), y ^^^ t) =
      (x ^^^ (t <<< s) ^^^ (t <<< s), y ^^^ t ^^^ t) := by
    simp only [exchange, hsame]
  rw [hfirst, hsecond, BitVec.xor_assoc, BitVec.xor_assoc, BitVec.xor_self, BitVec.xor_self,
    BitVec.xor_zero, BitVec.xor_zero]

theorem rotr1_rotl1 (x : ULong) : rotr1 (rotl1 x) = x := by
  unfold rotr1 rotl1
  ext i hi
  interval_cases i <;> simp

theorem rotl1_rotr1 (x : ULong) : rotl1 (rotr1 x) = x := by
  unfold rotr1 rotl1
  ext i hi
  interval_cases i <;> simp

/-- The final permutation undoes the initial one, line by line from the last. -/
theorem desFp_desIp (b : ULong × ULong) : desFp (desIp b) = b := by
  simp only [desFp, desIp, rotr1_rotl1, Prod.mk.eta, Prod.swap_swap,
    exchange_exchange 0 0xAAAAAAAA (by decide), exchange_exchange 8 0x00FF00FF (by decide),
    exchange_exchange 2 0x33333333 (by decide), exchange_exchange 16 0x0000FFFF (by decide),
    exchange_exchange 4 0x0F0F0F0F (by decide)]

theorem desIp_desFp (b : ULong × ULong) : desIp (desFp b) = b := by
  simp only [desFp, desIp, rotl1_rotr1, Prod.mk.eta, Prod.swap_swap,
    exchange_exchange 0 0xAAAAAAAA (by decide), exchange_exchange 8 0x00FF00FF (by decide),
    exchange_exchange 2 0x33333333 (by decide), exchange_exchange 16 0x0000FFFF (by decide),
    exchange_exchange 4 0x0F0F0F0F (by decide)]

theorem desRounds_reverse_swap (sk : List (ULong × ULong)) (b : ULong × ULong) :
    desRounds sk.reverse (desRounds sk b).swap = b.swap := by
  refine Feistel.rounds_reverse_swap (fun x y => ?_) desRound sk b
  rw [BitVec.xor_assoc, BitVec.xor_self, BitVec.xor_zero]

theorem length_subkeyLoop (is : List Nat) (b : ULong × ULong) :
    (subkeyLoop is b).length = is.length := by
  induction is generalizing b with
  | nil => rfl
  | cons i is ih => rw [subkeyLoop, List.length_cons, List.length_cons, ih]

theorem length_desMainKs (key : Nat → UInt8) : (desMainKs key).length = 16 :=
  length_subkeyLoop _ _

theorem desWords_reverse (sk : List (ULong × ULong)) (b : ULong × ULong) :
    desWords sk.reverse (desWords sk b) = b := by
  rw [desWords, desWords, desIp_desFp, desRounds_reverse_swap, Prod.swap_swap, desFp_desIp]

theorem des3Words_stages {sk₁ sk₂ : List (ULong × ULong)} (h₁ : sk₁.length = 16)
    (h₂ : sk₂.length = 16) (sk₃ : List (ULong × ULong)) (b : ULong × ULong) :
    des3Words (sk₁ ++ sk₂ ++ sk₃) b =
      desFp (desRounds sk₃ (desRounds sk₂ (desRounds sk₁ (desIp b)).swap).swap).swap := by
  have hfirst : (sk₁ ++ sk₂ ++ sk₃).take 16 = sk₁ := by
    rw [List.append_assoc, List.take_left' h₁]
  have hmiddle : ((sk₁ ++ sk₂ ++ sk₃).drop 16).take 16 = sk₂ := by
    rw [List.append_assoc, List.drop_left' h₁, List.take_left' h₂]
  have hlast : (sk₁ ++ sk₂ ++ sk₃).drop 32 = sk₃ :=
    List.drop_left' (by rw [List.length_append, h₁, h₂])
  rw [des3Words, hfirst, hmiddle, hlast]

/-- Every stage is undone by its own subkeys in reverse, the last stage first. -/
theorem des3Words_reverse {sk sk' : List (ULong × ULong)} (h : sk.length = 16)
    (h' : sk'.length = 16) (b : ULong × ULong) :
    des3Words (sk.reverse ++ sk' ++ sk.reverse) (des3Words (sk ++ sk'.reverse ++ sk) b) = b := by
  have hr : sk.reverse.length = 16 := by rw [List.length_reverse, h]
  have hr' : sk'.reverse.length = 16 := by rw [List.length_reverse, h']
  have hback (c : ULong × ULong) : desRounds sk' (desRounds sk'.reverse c).swap = c.swap := by
    have := desRounds_reverse_swap sk'.reverse c
    rwa [List.reverse_reverse] at this
  rw [des3Words_stages hr h', des3Words_stages h hr', desIp_desFp, desRounds_reverse_swap,
    Prod.swap_swap, hback, Prod.swap_swap, desRounds_reverse_swap, Prod.swap_swap, desFp_desIp]

theorem getUint32_eq {b : Nat → UInt8} {i : Nat} {n : ULong}
    (h : ∀ k (hk : k < 4), b (i + k) = (putUint32 n)[k]) : getUint32 b i = n := by
  have h0 : b i = ⟨(n >>> 24).setWidth 8⟩ := h 0 (by decide)
  have h1 : b (i + 1) = ⟨(n >>> 16).setWidth 8⟩ := h 1 (by decide)
  have h2 : b (i + 2) = ⟨(n >>> 8).setWidth 8⟩ := h 2 (by decide)
  have h3 : b (i + 3) = ⟨n.setWidth 8⟩ := h 3 (by decide)
  rw [getUint32, h0, h1, h2, h3]
  ext j hj
  interval_cases j <;> simp

theorem putUint32_getUint32 (b : Nat → UInt8) (i : Nat) {k : Nat} (hk : k < 4) :
    (putUint32 (getUint32 b i))[k] = b (i + k) := by
  rw [← UInt8.toBitVec_inj]
  ext j hj
  interval_cases k
  all_goals
    show (BitVec.setWidth 8 _)[j] = _
    interval_cases j <;> simp [getUint32]

theorem getElem_putBlock_left (b : ULong × ULong) {k : Nat} (hk : k < 4) :
    (putBlock b)[k] = (putUint32 b.1)[k] :=
  Vector.getElem_append_left hk

theorem getElem_putBlock_right (b : ULong × ULong) {k : Nat} (hk : k < 4) :
    (putBlock b)[4 + k] = (putUint32 b.2)[k] := by
  have h : (putUint32 b.1 ++ putUint32 b.2)[4 + k] = (putUint32 b.2)[4 + k - 4] :=
    Vector.getElem_append_right (by omega) (by omega)
  simp only [Nat.add_sub_cancel_left] at h
  exact h

theorem getBlock_eq {b : Nat → UInt8} {w : ULong × ULong}
    (h : ∀ k (hk : k < 8), b k = (putBlock w)[k]) : getBlock b = w := by
  have hfst : getUint32 b 0 = w.1 := getUint32_eq fun k hk => by
    rw [Nat.zero_add, h k (by omega), getElem_putBlock_left w hk]
  have hsnd : getUint32 b 4 = w.2 := getUint32_eq fun k hk => by
    rw [h (4 + k) (by omega), getElem_putBlock_right w hk]
  rw [getBlock, hfst, hsnd]

theorem putBlock_getBlock (b : Nat → UInt8) {k : Nat} (hk : k < 8) :
    (putBlock (getBlock b))[k] = b k := by
  by_cases hlow : k < 4
  · rw [getElem_putBlock_left _ hlow, getBlock, putUint32_getUint32 b 0 hlow, Nat.zero_add]
  · obtain ⟨j, rfl⟩ := Nat.exists_eq_add_of_le (Nat.le_of_not_lt hlow)
    rw [getElem_putBlock_right _ (by omega), getBlock, putUint32_getUint32 b 4 (by omega)]

/-- `decrypt` restores what `encrypt` was given, under every key. -/
def BlockInverse (encrypt decrypt : (Nat → UInt8) → (Nat → UInt8) → Vector UInt8 8) : Prop :=
  ∀ key input output : Nat → UInt8,
    (∀ k (hk : k < 8), output k = (encrypt input key)[k]) →
      ∀ k (hk : k < 8), (decrypt output key)[k] = input k

theorem libDes_inverse : BlockInverse (libDes · · 0) (libDes · · 1) := by
  intro key input output hout k hk
  have hwords : getBlock output = desWords (desMainKs key) (getBlock input) := getBlock_eq hout
  show (putBlock (desWords (desMainKs key).reverse (getBlock output)))[k] = input k
  rw [hwords, desWords_reverse, putBlock_getBlock input hk]

example : libDes (fun k => [0x01, 0x23, 0x45, 0x67, 0x89, 0xAB, 0xCD, 0xEF].getD k 0)
    (fun k => [0x13, 0x34, 0x57, 0x79, 0x9B, 0xBC, 0xDF, 0xF1].getD k 0) 0 =
    #v[0x85, 0xE8, 0x13, 0x54, 0x0F, 0x0A, 0xB4, 0x05] := by
  decide

theorem libDes3_inverse : BlockInverse (libDes3 · · 0) (libDes3 · · 1) := by
  intro key input output hout k hk
  have hwords : getBlock output = des3Words (des3Set2keys key).esk (getBlock input) :=
    getBlock_eq hout
  show (putBlock (des3Words (des3Set2keys key).dsk (getBlock output)))[k] = input k
  rw [hwords, des3Set2keys, des3Words_reverse (length_desMainKs _) (length_desMainKs _),
    putBlock_getBlock input hk]

end BackupSoftware.Encryption

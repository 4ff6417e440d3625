import BackupSoftware.Library.BlockHash
import BackupSoftware.Library.Quad

/-!
# The message digest MD5

The digest as it is specified: the message is padded to blocks of 64 bytes, and each
block is compressed in 64 steps of one form, with the function, the message word, the
constant and the rotation of the step.
-/

namespace BackupSoftware.Library.Md5

open BlockHash (littleEndian)

abbrev Word := BitVec 32

/-- Step `i` adds the integer part of 2^32 times the sine of `i + 1`, without its sign. -/
def constants : List Word :=
  [0xD76AA478, 0xE8C7B756, 0x242070DB, 0xC1BDCEEE, 0xF57C0FAF, 0x4787C62A, 0xA8304613, 0xFD469501,
    0x698098D8, 0x8B44F7AF, 0xFFFF5BB1, 0x895CD7BE, 0x6B901122, 0xFD987193, 0xA679438E, 0x49B40821,
    0xF61E2562, 0xC040B340, 0x265E5A51, 0xE9B6C7AA, 0xD62F105D, 0x02441453, 0xD8A1E681, 0xE7D3FBC8,
    0x21E1CDE6, 0xC33707D6, 0xF4D50D87, 0x455A14ED, 0xA9E3E905, 0xFCEFA3F8, 0x676F02D9, 0x8D2A4C8A,
    0xFFFA3942, 0x8771F681, 0x6D9D6122, 0xFDE5380C, 0xA4BEEA44, 0x4BDECFA9, 0xF6BB4B60, 0xBEBFBC70,
    0x289B7EC6, 0xEAA127FA, 0xD4EF3085, 0x04881D05, 0xD9D4D039, 0xE6DB99E5, 0x1FA27CF8, 0xC4AC5665,
    0xF4292244, 0x432AFF97, 0xAB9423A7, 0xFC93A039, 0x655B59C3, 0x8F0CCC92, 0xFFEFF47D, 0x85845DD1,
    0x6FA87E4F, 0xFE2CE6E0, 0xA3014314, 0x4E0811A1, 0xF7537E82, 0xBD3AF235, 0x2AD7D2BB, 0xEB86D391]

/-- The functions of the four rounds. -/
def function (i : Nat) (x y z : Word) : Word :=
  if i < 16 then (x &&& y) ||| (~~~x &&& z)
  else if i < 32 then (x &&& z) ||| (y &&& ~~~z)
  else if i < 48 then x ^^^ y ^^^ z
  else y ^^^ (x ||| ~~~z)

/-- The word of the block that a step reads. -/
def index (i : Nat) : Nat :=
  if i < 16 then i
  else if i < 32 then (5 * i + 1) % 16
  else if i < 48 then (3 * i + 5) % 16
  else (7 * i) % 16

def shift (i : Nat) : Nat :=
  (([[7, 12, 17, 22], [5, 9, 14, 20], [4, 11, 16, 23], [6, 10, 15, 21]].getD (i / 16) []).getD
    (i % 4) 0)

def step (x : Nat → Word) (s : Quad Word) (i : Nat) : Quad Word :=
  ⟨s.d, s.b + (s.a + function i s.b s.c s.d + x (index i) + constants.getD i 0).rotateLeft (shift i),
    s.b, s.c⟩

/-- Word `i` of a block, with its lowest byte first. -/
def wordOf (block : List UInt8) (i : Nat) : Word :=
  (block.getD (4 * i + 3) 0).toBitVec ++ (block.getD (4 * i + 2) 0).toBitVec
    ++ (block.getD (4 * i + 1) 0).toBitVec ++ (block.getD (4 * i) 0).toBitVec

def compress (s : Quad Word) (block : List UInt8) : Quad Word :=
  s.zip (· + ·) ((List.range 64).foldl (step (wordOf block)) s)

def initial : Quad Word := ⟨0x67452301, 0xEFCDAB89, 0x98BADCFE, 0x10325476⟩

/-- The message with its padding and its length in bits. -/
def padded (msg : List UInt8) : List UInt8 :=
  BlockHash.padded (fun len => littleEndian 8 (8 * len)) msg

def digest (msg : List UInt8) : List UInt8 :=
  let s := BlockHash.hashBlocks 64 compress initial (padded msg)
  littleEndian 4 s.a.toNat ++ littleEndian 4 s.b.toNat ++ littleEndian 4 s.c.toNat
    ++ littleEndian 4 s.d.toNat

end BackupSoftware.Library.Md5

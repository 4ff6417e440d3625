import BackupSoftware.Library.BlockHash

/-!
# The message digest SHA-256

The digest as it is specified: the message is padded to blocks of 64 bytes, each block
gives a schedule of 64 words, and each word is taken in by one round. The constants are
the first bits of the fractional parts of roots of the first primes.
-/

namespace BackupSoftware.Library.Sha256

open BlockHash (bigEndian)

abbrev Word := BitVec 32

/-- The eight variables of the algorithm. -/
structure State where
  a : Word
  b : Word
  c : Word
  d : Word
  e : Word
  f : Word
  g : Word
  h : Word
  deriving DecidableEq, Repr

def State.add (s t : State) : State :=
  ⟨s.a + t.a, s.b + t.b, s.c + t.c, s.d + t.d, s.e + t.e, s.f + t.f, s.g + t.g, s.h + t.h⟩

/-- The first 64 primes. A number below 18 * 18 that is not prime has a divisor below 18. -/
def primes : List Nat :=
  (List.range 312).filter fun p => 2 ≤ p ∧ (List.range' 2 16).all fun d => d ∣ p → d = p

/-- The largest `r` with `r ^ k ≤ n`, from the highest of its bits on. -/
def floorRoot (k n : Nat) (bits : Nat) : Nat :=
  (List.range bits).foldr (fun i r => if (r + 1 <<< i) ^ k ≤ n then r + 1 <<< i else r) 0

/-- The first 32 bits of the fractional part of the `k`-th root of `p`. -/
def rootBits (k p : Nat) : Word := BitVec.ofNat 32 (floorRoot k (p <<< (32 * k)) 40)

/-- The cube roots of the first 64 primes. -/
def constants : List Word := primes.map (rootBits 3)

/-- The square roots of the first eight primes. -/
def initial : State :=
  ⟨rootBits 2 2, rootBits 2 3, rootBits 2 5, rootBits 2 7, rootBits 2 11, rootBits 2 13,
    rootBits 2 17, rootBits 2 19⟩

def ch (x y z : Word) : Word := (x &&& y) ^^^ (~~~x &&& z)
def maj (x y z : Word) : Word := (x &&& y) ^^^ (x &&& z) ^^^ (y &&& z)
def bigSigma0 (x : Word) : Word := x.rotateRight 2 ^^^ x.rotateRight 13 ^^^ x.rotateRight 22
def bigSigma1 (x : Word) : Word := x.rotateRight 6 ^^^ x.rotateRight 11 ^^^ x.rotateRight 25
def sigma0 (x : Word) : Word := x.rotateRight 7 ^^^ x.rotateRight 18 ^^^ (x >>> 3)
def sigma1 (x : Word) : Word := x.rotateRight 17 ^^^ x.rotateRight 19 ^^^ (x >>> 10)

/-- Word `i` of a block, with its highest byte first. -/
def wordOf (block : List UInt8) (i : Nat) : Word :=
  (block.getD (4 * i) 0).toBitVec ++ (block.getD (4 * i + 1) 0).toBitVec
    ++ (block.getD (4 * i + 2) 0).toBitVec ++ (block.getD (4 * i + 3) 0).toBitVec

/-- Word `t` of the schedule, from the words of the block. -/
def schedule (m : Nat → Word) (t : Nat) : Word :=
  if t < 16 then m t
  else sigma1 (schedule m (t - 2)) + schedule m (t - 7) + sigma0 (schedule m (t - 15))
    + schedule m (t - 16)

/-- A round with the sum of its constant and its word. -/
def round (s : State) (kw : Word) : State :=
  let t1 := s.h + bigSigma1 s.e + ch s.e s.f s.g + kw
  let t2 := bigSigma0 s.a + maj s.a s.b s.c
  ⟨t1 + t2, s.a, s.b, s.c, s.d + t1, s.e, s.f, s.g⟩

def compress (s : State) (block : List UInt8) : State :=
  s.add ((List.range 64).foldl
    (fun v t => round v (constants.getD t 0 + schedule (wordOf block) t)) s)

/-- The message with its padding and its length in bits. -/
def padded (msg : List UInt8) : List UInt8 :=
  BlockHash.padded (fun len => bigEndian 8 (8 * len)) msg

def State.bytes (s : State) : List UInt8 :=
  [s.a, s.b, s.c, s.d, s.e, s.f, s.g, s.h].flatMap fun w => bigEndian 4 w.toNat

def digest (msg : List UInt8) : List UInt8 :=
  (BlockHash.hashBlocks 64 compress initial (padded msg)).bytes

end BackupSoftware.Library.Sha256

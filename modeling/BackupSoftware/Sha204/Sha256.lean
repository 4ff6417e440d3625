import Mathlib.Data.List.GetD
import Mathlib.Tactic.IntervalCases
import BackupSoftware.Library.Sha256

/-!
# SHA-256

`sha204_test/sha256/newsha256.c`: the context, `SHA256Guts` on the block in its buffer,
`SHA256Update` and `SHA256Final`, on a little-endian machine. Every piece of the message
goes through the buffer; however the pieces are cut, no copy leaves the buffer and the
digest is that of the specification.
-/

namespace BackupSoftware.Sha204

open Library
open Library.BlockHash (absorb copyTo bigEndian littleEndian)

abbrev Word := BitVec 32

/-- `SHA256Context`, with the bytes of the union `buffer`. -/
structure SHA256Context where
  totalLength : Nat
  hash : Sha256.State
  bufferLength : Nat
  buffer : List UInt8
  deriving DecidableEq, Repr

/-- `ROTL(x, n)` and `ROTR(x, n)`. -/
def rotl (x : Word) (n : Nat) : Word := (x <<< n) ||| (x >>> (32 - n))
def rotr (x : Word) (n : Nat) : Word := (x >>> n) ||| (x <<< (32 - n))

/-- The macros of a round. -/
def ch (x y z : Word) : Word := z ^^^ (x &&& (y ^^^ z))
def maj (x y z : Word) : Word := (x &&& (y ||| z)) ||| (y &&& z)
def bigSigma0 (x : Word) : Word := rotr x 2 ^^^ rotr x 13 ^^^ rotr x 22
def bigSigma1 (x : Word) : Word := rotr x 6 ^^^ rotr x 11 ^^^ rotr x 25
def sigma0 (x : Word) : Word := rotr x 7 ^^^ rotr x 18 ^^^ (x >>> 3)
def sigma1 (x : Word) : Word := rotr x 17 ^^^ rotr x 19 ^^^ (x >>> 10)

/-- The table `K`. -/
def tableK : List Word :=
  [0x428a2f98, 0x71374491, 0xb5c0fbcf, 0xe9b5dba5,
    0x3956c25b, 0x59f111f1, 0x923f82a4, 0xab1c5ed5,
    0xd807aa98, 0x12835b01, 0x243185be, 0x550c7dc3,
    0x72be5d74, 0x80deb1fe, 0x9bdc06a7, 0xc19bf174,
    0xe49b69c1, 0xefbe4786, 0x0fc19dc6, 0x240ca1cc,
    0x2de92c6f, 0x4a7484aa, 0x5cb0a9dc, 0x76f988da,
    0x983e5152, 0xa831c66d, 0xb00327c8, 0xbf597fc7,
    0xc6e00bf3, 0xd5a79147, 0x06ca6351, 0x14292967,
    0x27b70a85, 0x2e1b2138, 0x4d2c6dfc, 0x53380d13,
    0x650a7354, 0x766a0abb, 0x81c2c92e, 0x92722c85,
    0xa2bfe8a1, 0xa81a664b, 0xc24b8b70, 0xc76c51a3,
    0xd192e819, 0xd6990624, 0xf40e3585, 0x106aa070,
    0x19a4c116, 0x1e376c08, 0x2748774c, 0x34b0bcb5,
    0x391c0cb3, 0x4ed8aa4a, 0x5b9cca4f, 0x682e6ff3,
    0x748f82ee, 0x78a5636f, 0x84c87814, 0x8cc70208,
    0x90befffa, 0xa4506ceb, 0xbef9a3f7, 0xc67178f2]

/-- `BYTESWAP(x)` and `BYTESWAP64(x)`. -/
def byteswap (x : Word) : Word := (rotr x 8 &&& 0xff00ff00) ||| (rotl x 8 &&& 0x00ff00ff)

def byteswap64 (x : BitVec 64) : BitVec 64 :=
  let a := (x >>> 32).setWidth 32
  let b := x.setWidth 32
  (byteswap b).setWidth 64 <<< 32 ||| (byteswap a).setWidth 64

/-- `SHA256Init`. The buffer is not initialised. -/
def sha256Init (buffer : List UInt8) : SHA256Context :=
  { totalLength := 0, bufferLength := 0, buffer
    hash := ⟨0x6a09e667, 0xbb67ae85, 0x3c6ef372, 0xa54ff53a, 0x510e527f, 0x9b05688c, 0x1f83d9ab,
      0x5be0cd19⟩ }

/-- The word of the buffer at index `i`, as the machine reads it. -/
def bufferWord (buffer : List UInt8) (i : Nat) : Word :=
  (buffer.getD (4 * i + 3) 0).toBitVec ++ (buffer.getD (4 * i + 2) 0).toBitVec
    ++ (buffer.getD (4 * i + 1) 0).toBitVec ++ (buffer.getD (4 * i) 0).toBitVec

/-- The words that the two loops at the start of `SHA256Guts` leave in `buf`. -/
def gutsWords (buffer : List UInt8) : List Word :=
  (List.range 48).foldl
    (fun buf i => buf ++ [sigma1 (buf.getD (14 + i) 0) + buf.getD (9 + i) 0
      + sigma0 (buf.getD (1 + i) 0) + buf.getD i 0])
    ((List.range 16).map fun i => byteswap (bufferWord buffer i))

/-- `DO_ROUND()` with `*Kp` and `*W`. -/
def doRound (s : Sha256.State) (k w : Word) : Sha256.State :=
  let t1 := s.h + bigSigma1 s.e + ch s.e s.f s.g + k + w
  let t2 := bigSigma0 s.a + maj s.a s.b s.c
  ⟨t1 + t2, s.a, s.b, s.c, s.d + t1, s.e, s.f, s.g⟩

/-- `SHA256Guts` on the words of the buffer: the new `sc->hash`. -/
def sha256Guts (hash : Sha256.State) (buffer : List UInt8) : Sha256.State :=
  let v := (tableK.zip (gutsWords buffer)).foldl (fun s kw => doRound s kw.1 kw.2) hash
  ⟨hash.a + v.a, hash.b + v.b, hash.c + v.c, hash.d + v.d, hash.e + v.e, hash.f + v.f,
    hash.g + v.g, hash.h + v.h⟩

/-- What `sizeof (long_t)` depends on: the number of bits of `unsigned long`. -/
inductive LongBits where
  | ilp32
  | lp64
  deriving DecidableEq, Repr

def LongBits.modulus : LongBits → Nat
  | ilp32 => 0x100000000
  | lp64 => 0x10000000000000000

/-- One turn of the loop of `SHA256Update`, with the bytes that are copied; `none` if the copy
leaves the buffer. -/
def updateTurn (long : LongBits) (sc : SHA256Context) (piece : List UInt8) :
    Option SHA256Context :=
  (copyTo sc.buffer sc.bufferLength piece).map fun buffer =>
    let totalLength := (sc.totalLength + piece.length * 8) % long.modulus
    let bufferLength := sc.bufferLength + piece.length
    if bufferLength = 64 then
      { totalLength, hash := sha256Guts sc.hash buffer, bufferLength := 0, buffer }
    else { totalLength, hash := sc.hash, bufferLength, buffer }

/-- The loop, with `data` at offset `off`; `none` also if it makes more than `fuel` turns. -/
def updateLoop (long : LongBits) (data : Nat → UInt8) :
    Nat → SHA256Context → Nat → Nat → Option SHA256Context
  | _, sc, _, 0 => some sc
  | 0, _, _, _ + 1 => none
  | fuel + 1, sc, off, len + 1 =>
    let bytesToCopy := min (64 - sc.bufferLength) (len + 1)
    (updateTurn long sc (Memory.load data off bytesToCopy)).bind fun sc =>
      updateLoop long data fuel sc (off + bytesToCopy) (len + 1 - bytesToCopy)

/-- `SHA256Update`. Every turn takes a byte at least. -/
def sha256Update (long : LongBits) (sc : SHA256Context) (data : Nat → UInt8) (len : UInt32) :
    Option SHA256Context :=
  updateLoop long data len.toNat sc 0 len.toNat

/-- `padding`. -/
def padding (k : Nat) : UInt8 := if k = 0 then 0x80 else 0

/-- The bytes that `SHA256Final` writes for a word of the hash. -/
def hashBytes (w : Word) : List UInt8 :=
  [⟨(w >>> 24).setWidth 8⟩, ⟨(w >>> 16).setWidth 8⟩, ⟨(w >>> 8).setWidth 8⟩, ⟨w.setWidth 8⟩]

/-- `SHA256Final`: the bytes written at `hash`, if it is not `NULL`. -/
def sha256Final (long : LongBits) (sc : SHA256Context) : Option (List UInt8) :=
  let bytesToPad := 120 - sc.bufferLength
  let bytesToPad := if bytesToPad > 64 then bytesToPad - 64 else bytesToPad
  let lengthPad := byteswap64 (BitVec.ofNat 64 sc.totalLength)
  (sha256Update long sc padding (UInt32.ofNat bytesToPad)).bind fun sc =>
    (sha256Update long sc ((littleEndian 8 lengthPad.toNat).getD · 0) 8).map fun sc =>
      [sc.hash.a, sc.hash.b, sc.hash.c, sc.hash.d, sc.hash.e, sc.hash.f, sc.hash.g,
        sc.hash.h].flatMap hashBytes

/-- `SHA256Update` for each of the pieces. -/
def sha256Updates (long : LongBits) (sc : SHA256Context)
    (pieces : List ((Nat → UInt8) × UInt32)) : Option SHA256Context :=
  pieces.foldlM (fun sc piece => sha256Update long sc piece.1 piece.2) sc

set_option maxRecDepth 8000 in
theorem tableK_eq : tableK = Sha256.constants := by decide

set_option maxRecDepth 8000 in
theorem sha256Init_hash (buffer : List UInt8) : (sha256Init buffer).hash = Sha256.initial :=
  (by decide : (sha256Init []).hash = Sha256.initial)

theorem rotr_eq (x : Word) {n : Nat} (hn : n < 32) : rotr x n = x.rotateRight n := by
  rw [rotr, BitVec.rotateRight_def, Nat.mod_eq_of_lt hn]

theorem bigSigma0_eq (x : Word) : bigSigma0 x = Sha256.bigSigma0 x := by
  simp only [bigSigma0, Sha256.bigSigma0, rotr_eq x (show 2 < 32 by decide),
    rotr_eq x (show 13 < 32 by decide), rotr_eq x (show 22 < 32 by decide)]

theorem bigSigma1_eq (x : Word) : bigSigma1 x = Sha256.bigSigma1 x := by
  simp only [bigSigma1, Sha256.bigSigma1, rotr_eq x (show 6 < 32 by decide),
    rotr_eq x (show 11 < 32 by decide), rotr_eq x (show 25 < 32 by decide)]

theorem sigma0_eq (x : Word) : sigma0 x = Sha256.sigma0 x := by
  simp only [sigma0, Sha256.sigma0, rotr_eq x (show 7 < 32 by decide),
    rotr_eq x (show 18 < 32 by decide)]

theorem sigma1_eq (x : Word) : sigma1 x = Sha256.sigma1 x := by
  simp only [sigma1, Sha256.sigma1, rotr_eq x (show 17 < 32 by decide),
    rotr_eq x (show 19 < 32 by decide)]

theorem ch_eq (x y z : Word) : ch x y z = Sha256.ch x y z := by
  unfold ch Sha256.ch
  ext i hi
  simp only [BitVec.getElem_xor, BitVec.getElem_and, BitVec.getElem_not]
  cases x[i] <;> cases y[i] <;> cases z[i] <;> rfl

theorem maj_eq (x y z : Word) : maj x y z = Sha256.maj x y z := by
  unfold maj Sha256.maj
  ext i hi
  simp only [BitVec.getElem_xor, BitVec.getElem_and, BitVec.getElem_or]
  cases x[i] <;> cases y[i] <;> cases z[i] <;> rfl

theorem byteswap_append (a b c d : BitVec 8) :
    byteswap (a ++ b ++ c ++ d) = d ++ c ++ b ++ a := by
  apply BitVec.eq_of_getLsbD_eq
  intro j hj
  simp only [byteswap, rotr, rotl, BitVec.getLsbD_or, BitVec.getLsbD_and, BitVec.getLsbD_append,
    BitVec.getLsbD_shiftLeft, BitVec.getLsbD_ushiftRight]
  interval_cases j <;> simp

theorem byteswap_bufferWord (buffer : List UInt8) (i : Nat) :
    byteswap (bufferWord buffer i) = Sha256.wordOf buffer i := byteswap_append _ _ _ _

/-- The words of the schedule, one after the other. -/
theorem gutsWords_eq (buffer : List UInt8) :
    gutsWords buffer = (List.range 64).map (Sha256.schedule (Sha256.wordOf buffer)) := by
  have hword : ∀ n t, t < 16 + n →
      ((List.range (16 + n)).map (Sha256.schedule (Sha256.wordOf buffer))).getD t 0 =
        Sha256.schedule (Sha256.wordOf buffer) t := by
    intro n t ht
    rw [List.getD_eq_getElem _ _ (by simpa using ht), List.getElem_map, List.getElem_range]
  have hfold : ∀ n, (List.range n).foldl
      (fun buf i => buf ++ [sigma1 (buf.getD (14 + i) 0) + buf.getD (9 + i) 0
        + sigma0 (buf.getD (1 + i) 0) + buf.getD i 0])
      ((List.range 16).map fun i => byteswap (bufferWord buffer i)) =
        (List.range (16 + n)).map (Sha256.schedule (Sha256.wordOf buffer)) := by
    intro n
    induction n with
    | zero =>
      apply List.map_congr_left
      intro t ht
      rw [byteswap_bufferWord, Sha256.schedule, if_pos (List.mem_range.mp ht)]
    | succ n ih =>
      have hnew : Sha256.schedule (Sha256.wordOf buffer) (16 + n) =
          Sha256.sigma1 (Sha256.schedule (Sha256.wordOf buffer) (14 + n))
            + Sha256.schedule (Sha256.wordOf buffer) (9 + n)
            + Sha256.sigma0 (Sha256.schedule (Sha256.wordOf buffer) (1 + n))
            + Sha256.schedule (Sha256.wordOf buffer) n := by
        rw [Sha256.schedule, if_neg (by omega), show 16 + n - 2 = 14 + n by omega,
          show 16 + n - 7 = 9 + n by omega, show 16 + n - 15 = 1 + n by omega,
          show 16 + n - 16 = n by omega]
      rw [List.range_succ (n := n), List.foldl_append, ih, List.foldl_cons, List.foldl_nil,
        hword n _ (by omega), hword n _ (by omega), hword n _ (by omega), hword n _ (by omega),
        sigma1_eq, sigma0_eq, ← hnew, ← Nat.add_assoc, List.range_succ (n := 16 + n),
        List.map_append]
      rfl
  exact hfold 48

theorem doRound_eq (s : Sha256.State) (k w : Word) : doRound s k w = Sha256.round s (k + w) := by
  simp only [doRound, Sha256.round, bigSigma0_eq, bigSigma1_eq, ch_eq, maj_eq, BitVec.add_assoc]

theorem sha256Guts_eq : sha256Guts = Sha256.compress := by
  funext hash buffer
  have htable : tableK = (List.range 64).map fun t => Sha256.constants.getD t 0 := by
    rw [← tableK_eq]
    decide
  have hrounds : (tableK.zip (gutsWords buffer)).foldl (fun s kw => doRound s kw.1 kw.2) hash =
      (List.range 64).foldl (fun v t => Sha256.round v
        (Sha256.constants.getD t 0 + Sha256.schedule (Sha256.wordOf buffer) t)) hash := by
    rw [htable, gutsWords_eq, List.zip_map', List.foldl_map]
    simp only [doRound_eq]
  simp only [sha256Guts, hrounds]
  rfl

/-- The context after the bytes of `msg`. -/
structure SHA256Context.Absorbed (sc : SHA256Context) (long : LongBits) (msg : List UInt8) :
    Prop where
  total : sc.totalLength = 8 * msg.length % long.modulus
  bufferLength : sc.bufferLength = msg.length % 64
  length_buffer : sc.buffer.length = 64
  rest : (sc.hash, sc.buffer.take sc.bufferLength) =
    absorb 64 Sha256.compress (Sha256.initial, []) msg

variable {long : LongBits}

theorem sha256Init_absorbed {buffer : List UInt8} (h : buffer.length = 64) :
    (sha256Init buffer).Absorbed long [] where
  total := (Nat.zero_mod long.modulus).symm
  bufferLength := rfl
  length_buffer := h
  rest := congrArg (fun hash => (hash, ([] : List UInt8))) (sha256Init_hash buffer)

theorem updateTurn_absorbed {sc : SHA256Context} {msg piece : List UInt8}
    (h : sc.Absorbed long msg) (hfit : sc.bufferLength + piece.length ≤ 64) :
    ∃ sc', updateTurn long sc piece = some sc' ∧ sc'.Absorbed long (msg ++ piece) := by
  have hlt : sc.bufferLength < 64 := by
    rw [h.bufferLength]
    omega
  have hmod := h.bufferLength
  obtain ⟨buffer, hcopy, hlength, hinit⟩ := BlockHash.copyTo_eq sc.buffer sc.bufferLength piece
    (by rw [h.length_buffer]; exact hfit)
  have htake : (sc.buffer.take sc.bufferLength).length = sc.bufferLength := by
    rw [List.length_take, h.length_buffer]
    omega
  have htotal : (sc.totalLength + piece.length * 8) % long.modulus =
      8 * (msg ++ piece).length % long.modulus := by
    rw [h.total, Nat.mod_add_mod, List.length_append, Nat.mul_add, Nat.mul_comm piece.length]
  rw [updateTurn, hcopy, Option.map_some]
  by_cases hfull : sc.bufferLength + piece.length = 64
  · refine ⟨_, congrArg some (if_pos hfull), htotal, ?_, hlength.trans h.length_buffer, ?_⟩
    · show 0 = (msg ++ piece).length % 64
      rw [List.length_append]
      omega
    · rw [hfull, List.take_of_length_le (by rw [hlength, h.length_buffer])] at hinit
      rw [BlockHash.absorb_append, ← h.rest, BlockHash.absorb_full (htake.trans_lt hlt)
        (by rw [htake]; exact hfull), ← hinit, sha256Guts_eq]
      rfl
  · refine ⟨_, congrArg some (if_neg hfull), htotal, ?_, hlength.trans h.length_buffer, ?_⟩
    · show sc.bufferLength + piece.length = (msg ++ piece).length % 64
      rw [List.length_append]
      omega
    · rw [BlockHash.absorb_append, ← h.rest, BlockHash.absorb_short (by rw [htake]; omega),
        ← hinit]

/-- The loop takes in what fits into the buffer, turn after turn. -/
theorem updateLoop_absorbed (data : Nat → UInt8) {fuel off len : Nat} {sc : SHA256Context}
    {msg : List UInt8} (h : sc.Absorbed long msg) (hfuel : len ≤ fuel) :
    ∃ sc', updateLoop long data fuel sc off len = some sc' ∧
      sc'.Absorbed long (msg ++ Memory.load data off len) := by
  induction fuel generalizing off len sc msg with
  | zero =>
    obtain rfl : len = 0 := by omega
    exact ⟨sc, by rw [updateLoop], (List.append_nil msg).symm ▸ h⟩
  | succ fuel ih =>
    cases len with
    | zero => exact ⟨sc, by rw [updateLoop], (List.append_nil msg).symm ▸ h⟩
    | succ len =>
      have hmod := h.bufferLength
      rw [updateLoop]
      generalize hn : min (64 - sc.bufferLength) (len + 1) = n
      obtain ⟨sc', hturn, h'⟩ := updateTurn_absorbed h
        (show sc.bufferLength + (Memory.load data off n).length ≤ 64 by
          rw [Memory.length_load]
          omega)
      have hsplit : Memory.load data off (len + 1) =
          Memory.load data off n ++ Memory.load data (off + n) (len + 1 - n) := by
        rw [← Memory.load_add, Nat.add_sub_of_le (by omega)]
      rw [hturn, hsplit, ← List.append_assoc]
      exact ih h' (by omega)

theorem sha256Update_absorbed {sc : SHA256Context} {msg : List UInt8} (h : sc.Absorbed long msg)
    (data : Nat → UInt8) (len : UInt32) :
    ∃ sc', sha256Update long sc data len = some sc' ∧
      sc'.Absorbed long (msg ++ Memory.load data 0 len.toNat) :=
  updateLoop_absorbed data h (Nat.le_refl _)

theorem sha256Updates_absorbed {sc : SHA256Context} {msg : List UInt8} (h : sc.Absorbed long msg)
    (pieces : List ((Nat → UInt8) × UInt32)) :
    ∃ sc', sha256Updates long sc pieces = some sc' ∧ sc'.Absorbed long
      (msg ++ pieces.flatMap fun piece => Memory.load piece.1 0 piece.2.toNat) := by
  induction pieces generalizing sc msg with
  | nil => exact ⟨sc, rfl, (List.append_nil msg).symm ▸ h⟩
  | cons piece pieces ih =>
    obtain ⟨sc1, hrun1, h1⟩ := sha256Update_absorbed h piece.1 piece.2
    obtain ⟨sc', hrun, h'⟩ := ih h1
    refine ⟨sc', ?_, ?_⟩
    · rw [sha256Updates, List.foldlM_cons, hrun1]
      exact hrun
    · rwa [List.flatMap_cons, ← List.append_assoc]

theorem load_padding (k : Nat) : Memory.load padding 0 (k + 1) = 0x80 :: List.replicate k 0 := by
  have hzeros : Memory.load padding (0 + 1) k = (List.range k).map fun _ => 0 :=
    List.map_congr_left fun i _ => if_neg (by omega)
  rw [Memory.load_succ, hzeros, List.map_const', List.length_range]
  rfl

theorem hashBytes_eq (w : Word) : hashBytes w = bigEndian 4 w.toNat := by
  rw [bigEndian, BlockHash.littleEndian_word]
  rfl

theorem byteswap_bytes (w : Word) :
    (byteswap w).setWidth 8 = (w >>> 24).setWidth 8 ∧
      (byteswap w >>> 8).setWidth 8 = (w >>> 16).setWidth 8 ∧
      (byteswap w >>> 16).setWidth 8 = (w >>> 8).setWidth 8 ∧
      (byteswap w >>> 24).setWidth 8 = w.setWidth 8 := by
  refine ⟨?_, ?_, ?_, ?_⟩ <;>
  · apply BitVec.eq_of_getLsbD_eq
    intro j hj
    simp only [byteswap, rotr, rotl, BitVec.getLsbD_setWidth, BitVec.getLsbD_or,
      BitVec.getLsbD_and, BitVec.getLsbD_shiftLeft, BitVec.getLsbD_ushiftRight]
    interval_cases j <;> simp

theorem littleEndian_byteswap (w : Word) :
    littleEndian 4 (byteswap w).toNat = bigEndian 4 w.toNat := by
  obtain ⟨h0, h1, h2, h3⟩ := byteswap_bytes w
  rw [bigEndian, BlockHash.littleEndian_word, BlockHash.littleEndian_word, h0, h1, h2, h3]
  rfl

/-- The bytes of `lengthPad` in memory. -/
theorem littleEndian_byteswap64 (x : BitVec 64) :
    littleEndian 8 (byteswap64 x).toNat = bigEndian 8 x.toNat := by
  have hx := x.isLt
  have hb : (x.setWidth 32).toNat = x.toNat % 0x100000000 := BitVec.toNat_setWidth 32 x
  have ha : ((x >>> 32).setWidth 32).toNat = x.toNat / 256 ^ 4 := by
    rw [BitVec.toNat_setWidth, BitVec.toNat_ushiftRight, Nat.shiftRight_eq_div_pow]
    omega
  generalize hA : byteswap ((x >>> 32).setWidth 32) = A
  generalize hB : byteswap (x.setWidth 32) = B
  have hsum : (byteswap64 x).toNat = B.toNat * 0x100000000 + A.toNat := by
    have hlt := A.isLt
    have hltB := B.isLt
    have hor := Nat.shiftLeft_add_eq_or_of_lt hlt B.toNat
    rw [byteswap64, hA, hB, BitVec.toNat_or, BitVec.toNat_shiftLeft, BitVec.toNat_setWidth,
      BitVec.toNat_setWidth, Nat.mod_eq_of_lt (a := A.toNat) (by omega),
      Nat.mod_eq_of_lt (a := B.toNat) (by omega), Nat.mod_eq_of_lt (by
        rw [Nat.shiftLeft_eq]; omega), ← hor, Nat.shiftLeft_eq]
  have hlow : littleEndian 4 (byteswap64 x).toNat = littleEndian 4 A.toNat :=
    BlockHash.littleEndian_congr (by rw [hsum]; omega)
  have hhigh : (byteswap64 x).toNat / 256 ^ 4 = B.toNat := by
    have hlt := A.isLt
    rw [hsum]
    omega
  have hlow' : littleEndian 4 x.toNat = littleEndian 4 (x.setWidth 32).toNat :=
    BlockHash.littleEndian_congr (by rw [hb]; omega)
  rw [bigEndian, BlockHash.littleEndian_add 4 4, BlockHash.littleEndian_add 4 4, hlow, hhigh,
    List.reverse_append, hlow', ← ha, ← hA, ← hB, littleEndian_byteswap, littleEndian_byteswap]
  rfl

/-- Whether `totalLength` can count the bits of `len` bytes. In 64 bits it counts as the
specification does. -/
def LongBits.Counts : LongBits → Nat → Prop
  | ilp32, len => 8 * len < 0x100000000
  | lp64, _ => True

theorem bigEndian_total {len : Nat} (h : long.Counts len) :
    bigEndian 8 (BitVec.ofNat 64 (8 * len % long.modulus)).toNat = bigEndian 8 (8 * len) := by
  apply BlockHash.bigEndian_congr
  rw [BitVec.toNat_ofNat]
  cases long with
  | ilp32 =>
    have hlt : 8 * len < 0x100000000 := h
    rw [LongBits.modulus, Nat.mod_eq_of_lt hlt]
    omega
  | lp64 =>
    rw [LongBits.modulus]
    omega

/-- `SHA256Final` gives the digest of what the context holds. -/
theorem sha256Final_eq {sc : SHA256Context} {msg : List UInt8} (h : sc.Absorbed long msg)
    (hlong : long.Counts msg.length) : sha256Final long sc = some (Sha256.digest msg) := by
  have hmod := h.bufferLength
  have hpad : (if 120 - sc.bufferLength > 64 then 120 - sc.bufferLength - 64
      else 120 - sc.bufferLength) = (119 - msg.length % 64) % 64 + 1 := by
    split <;> omega
  obtain ⟨sc1, hrun1, h1⟩ := sha256Update_absorbed h padding
    (UInt32.ofNat ((119 - msg.length % 64) % 64 + 1))
  have hlen : (UInt32.ofNat ((119 - msg.length % 64) % 64 + 1)).toNat =
      (119 - msg.length % 64) % 64 + 1 := by
    rw [UInt32.toNat_ofNat']
    omega
  obtain ⟨sc2, hrun2, h2⟩ := sha256Update_absorbed h1
    ((littleEndian 8 (byteswap64 (BitVec.ofNat 64 sc.totalLength)).toNat).getD · 0) 8
  have hbytes : Memory.load
      ((littleEndian 8 (byteswap64 (BitVec.ofNat 64 sc.totalLength)).toNat).getD · 0) 0
        (8 : UInt32).toNat = bigEndian 8 (8 * msg.length) := by
    rw [littleEndian_byteswap64, h.total, bigEndian_total hlong]
    exact Memory.load_getD _ 0
  rw [hlen, load_padding, hbytes] at h2
  have hhash : sc2.hash =
      BlockHash.hashBlocks 64 Sha256.compress Sha256.initial (Sha256.padded msg) := by
    have habsorb : absorb 64 Sha256.compress (Sha256.initial, []) (Sha256.padded msg) =
        (BlockHash.hashBlocks 64 Sha256.compress Sha256.initial (Sha256.padded msg), []) :=
      BlockHash.absorb_blocks (by decide) Sha256.initial
        (BlockHash.length_padded (fun k => BlockHash.length_bigEndian 8 (8 * k)) msg)
    exact congrArg Prod.fst (h2.rest.trans habsorb)
  simp only [sha256Final, hpad, hrun1, hrun2, Option.bind_some, Option.map_some, hhash]
  simp only [funext hashBytes_eq, Sha256.digest, Sha256.State.bytes]

/-- However a message is cut into calls of `SHA256Update`, `SHA256Final` gives its digest. -/
theorem sha256_pieces_digest {buffer : List UInt8} (hbuf : buffer.length = 64)
    (pieces : List ((Nat → UInt8) × UInt32))
    (hlong : long.Counts (pieces.flatMap fun piece => Memory.load piece.1 0 piece.2.toNat).length) :
    (sha256Updates long (sha256Init buffer) pieces).bind (sha256Final long) =
      some (Sha256.digest (pieces.flatMap fun piece => Memory.load piece.1 0 piece.2.toNat)) := by
  obtain ⟨sc, hrun, h⟩ := sha256Updates_absorbed (sha256Init_absorbed hbuf) pieces
  rw [hrun]
  exact sha256Final_eq h hlong

theorem sha256_pieces_digest_two :
    (sha256Updates .ilp32 (sha256Init (List.replicate 64 0xFF))
        [(([0x61].getD · 0), 1), (([0x62, 0x63].getD · 0), 2)]).bind (sha256Final .ilp32) =
      some (Sha256.digest [0x61, 0x62, 0x63]) :=
  sha256_pieces_digest (by decide) _ (show 8 * 3 < 0x100000000 by decide)

example : ((sha256Updates .lp64 (sha256Init (List.replicate 64 0xFF))
      [(([0x61, 0x62, 0x63].getD · 0), 3)]).bind (sha256Final .lp64)) =
    some [0xba, 0x78, 0x16, 0xbf, 0x8f, 0x01, 0xcf, 0xea, 0x41, 0x41, 0x40, 0xde, 0x5d, 0xae, 0x22,
      0x23, 0xb0, 0x03, 0x61, 0xa3, 0x96, 0x17, 0x7a, 0x9c, 0xb4, 0x10, 0xff, 0x61, 0xf2, 0x00,
      0x15, 0xad] := by decide +kernel

end BackupSoftware.Sha204

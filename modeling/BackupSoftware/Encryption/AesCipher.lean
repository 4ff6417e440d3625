import BackupSoftware.Encryption.AesTables

/-!
# AES on one block

`aes_set_key`, `aes_encrypt` and `aes_decrypt` of `encryption/aes.c`, on words and tables.
The words are the columns of the cipher on bytes: the key schedule is its key expansion,
a round with the forward tables is one of its rounds, and the round keys of the
decryption are those of its equivalent inverse.
-/

namespace BackupSoftware.Encryption

open Library
open Library.ByteField (xtime mul mul_one_left)

/-- `aes_context`. -/
structure AesContext where
  erk : List ULong
  drk : List ULong
  nr : Nat
  deriving DecidableEq, Repr

/-- `RK[j]`. -/
def word (rk : List ULong) (j : Nat) : ULong := rk.getD j 0

/-- The array after the words were written from index `p` on. -/
def storeWords (rk : List ULong) (p : Nat) (ws : List ULong) : List ULong :=
  rk.take p ++ ws ++ rk.drop (p + ws.length)

/-- The first word of a pass of the schedule, at `RK[n]`: `last` is `RK[n - 1]`. -/
def firstWord (t : AesTables) (i : Nat) (first last : ULong) : ULong :=
  first ^^^ t.rcon.getD i 0 ^^^ (entry t.fsb last 16 <<< 24) ^^^ (entry t.fsb last 8 <<< 16)
    ^^^ (entry t.fsb last 0 <<< 8) ^^^ entry t.fsb last 24

/-- Pass `i` of the schedule for ten rounds, in which `RK` is at `4 * i`. -/
def pass10 (t : AesTables) (rk : List ULong) (i : Nat) : List ULong :=
  let p := 4 * i
  let k4 := firstWord t i (word rk p) (word rk (p + 3))
  let k5 := word rk (p + 1) ^^^ k4
  let k6 := word rk (p + 2) ^^^ k5
  let k7 := word rk (p + 3) ^^^ k6
  storeWords rk (p + 4) [k4, k5, k6, k7]

/-- The schedule for twelve rounds, with `RK` at `6 * i`. -/
def pass12 (t : AesTables) (rk : List ULong) (i : Nat) : List ULong :=
  let p := 6 * i
  let k6 := firstWord t i (word rk p) (word rk (p + 5))
  let k7 := word rk (p + 1) ^^^ k6
  let k8 := word rk (p + 2) ^^^ k7
  let k9 := word rk (p + 3) ^^^ k8
  let k10 := word rk (p + 4) ^^^ k9
  let k11 := word rk (p + 5) ^^^ k10
  storeWords rk (p + 6) [k6, k7, k8, k9, k10, k11]

/-- The schedule for fourteen rounds, with `RK` at `8 * i`. -/
def pass14 (t : AesTables) (rk : List ULong) (i : Nat) : List ULong :=
  let p := 8 * i
  let k8 := firstWord t i (word rk p) (word rk (p + 7))
  let k9 := word rk (p + 1) ^^^ k8
  let k10 := word rk (p + 2) ^^^ k9
  let k11 := word rk (p + 3) ^^^ k10
  let k12 := word rk (p + 4) ^^^ (entry t.fsb k11 24 <<< 24) ^^^ (entry t.fsb k11 16 <<< 16)
    ^^^ (entry t.fsb k11 8 <<< 8) ^^^ entry t.fsb k11 0
  let k13 := word rk (p + 5) ^^^ k12
  let k14 := word rk (p + 6) ^^^ k13
  let k15 := word rk (p + 7) ^^^ k14
  storeWords rk (p + 8) [k8, k9, k10, k11, k12, k13, k14, k15]

/-- `ctx->nr`. -/
def nrOf (keysize : UInt32) : Nat :=
  if keysize = 256 then 14 else if keysize = 192 then 12 else 10

/-- The words of the key that are read into `erk`, which held zeros. -/
def keyWords (key : Nat → UInt8) (keysize : UInt32) : List ULong :=
  storeWords (List.replicate 64 0) 0
    ((List.range (keysize >>> 5).toNat).map fun i => getUint32 key (i * 4))

/-- The encryption round keys. -/
def erkOf (t : AesTables) (key : Nat → UInt8) (keysize : UInt32) : List ULong :=
  let rk := keyWords key keysize
  match nrOf keysize with
  | 10 => (List.range 10).foldl (pass10 t) rk
  | 12 => (List.range 8).foldl (pass12 t) rk
  | 14 => (List.range 7).foldl (pass14 t) rk
  | _ => rk

/-- `KT0[i] = RT0[FSb[i]]` and so on. -/
def ktTables (t : AesTables) : Quad (List ULong) :=
  (⟨t.rt0, t.rt1, t.rt2, t.rt3⟩ : Quad (List ULong)).map fun rt =>
    t.fsb.map fun s => rt.getD s.toNat 0

/-- What is stored at `*SK++` for the word at `*RK`. -/
def ktWord (kt : Quad (List ULong)) (w : ULong) : ULong :=
  entry kt.a w 24 ^^^ entry kt.b w 16 ^^^ entry kt.c w 8 ^^^ entry kt.d w 0

/-- The four words of a round. -/
def roundWords (rk : List ULong) (r : Nat) : List ULong :=
  [word rk (4 * r), word rk (4 * r + 1), word rk (4 * r + 2), word rk (4 * r + 3)]

/-- The decryption round keys, in the order in which they are stored. After the schedule
`RK` is at the words of the last round, and every `RK -= 8` takes it one round back. -/
def drkWords (kt : Quad (List ULong)) (rk : List ULong) (nr : Nat) : List ULong :=
  roundWords rk nr
    ++ (List.range' 1 (nr - 1)).flatMap (fun i => (roundWords rk (nr - i)).map (ktWord kt))
    ++ roundWords rk 0

/-- The context that `aes_set_key` makes of one of zeros. -/
def contextOf (t : AesTables) (kt : Quad (List ULong)) (key : Nat → UInt8) (keysize : UInt32) :
    AesContext :=
  let erk := erkOf t key keysize
  { erk := erk, nr := nrOf keysize
    drk := storeWords (List.replicate 64 0) 0 (drkWords kt erk (nrOf keysize)) }

/-- `AES_FROUND` with `RK` at the words of round `r`. -/
def fround (t : AesTables) (rk : List ULong) (r : Nat) (y : Quad ULong) : Quad ULong :=
  ⟨word rk (4 * r) ^^^ entry t.ft0 y.a 24 ^^^ entry t.ft1 y.b 16 ^^^ entry t.ft2 y.c 8
      ^^^ entry t.ft3 y.d 0,
    word rk (4 * r + 1) ^^^ entry t.ft0 y.b 24 ^^^ entry t.ft1 y.c 16 ^^^ entry t.ft2 y.d 8
      ^^^ entry t.ft3 y.a 0,
    word rk (4 * r + 2) ^^^ entry t.ft0 y.c 24 ^^^ entry t.ft1 y.d 16 ^^^ entry t.ft2 y.a 8
      ^^^ entry t.ft3 y.b 0,
    word rk (4 * r + 3) ^^^ entry t.ft0 y.d 24 ^^^ entry t.ft1 y.a 16 ^^^ entry t.ft2 y.b 8
      ^^^ entry t.ft3 y.c 0⟩

/-- The last round of `aes_encrypt`. -/
def flast (t : AesTables) (rk : List ULong) (r : Nat) (y : Quad ULong) : Quad ULong :=
  ⟨word rk (4 * r) ^^^ (entry t.fsb y.a 24 <<< 24) ^^^ (entry t.fsb y.b 16 <<< 16)
      ^^^ (entry t.fsb y.c 8 <<< 8) ^^^ entry t.fsb y.d 0,
    word rk (4 * r + 1) ^^^ (entry t.fsb y.b 24 <<< 24) ^^^ (entry t.fsb y.c 16 <<< 16)
      ^^^ (entry t.fsb y.d 8 <<< 8) ^^^ entry t.fsb y.a 0,
    word rk (4 * r + 2) ^^^ (entry t.fsb y.c 24 <<< 24) ^^^ (entry t.fsb y.d 16 <<< 16)
      ^^^ (entry t.fsb y.a 8 <<< 8) ^^^ entry t.fsb y.b 0,
    word rk (4 * r + 3) ^^^ (entry t.fsb y.d 24 <<< 24) ^^^ (entry t.fsb y.a 16 <<< 16)
      ^^^ (entry t.fsb y.b 8 <<< 8) ^^^ entry t.fsb y.c 0⟩

/-- `AES_RROUND`. -/
def rround (t : AesTables) (rk : List ULong) (r : Nat) (y : Quad ULong) : Quad ULong :=
  ⟨word rk (4 * r) ^^^ entry t.rt0 y.a 24 ^^^ entry t.rt1 y.d 16 ^^^ entry t.rt2 y.c 8
      ^^^ entry t.rt3 y.b 0,
    word rk (4 * r + 1) ^^^ entry t.rt0 y.b 24 ^^^ entry t.rt1 y.a 16 ^^^ entry t.rt2 y.d 8
      ^^^ entry t.rt3 y.c 0,
    word rk (4 * r + 2) ^^^ entry t.rt0 y.c 24 ^^^ entry t.rt1 y.b 16 ^^^ entry t.rt2 y.a 8
      ^^^ entry t.rt3 y.d 0,
    word rk (4 * r + 3) ^^^ entry t.rt0 y.d 24 ^^^ entry t.rt1 y.c 16 ^^^ entry t.rt2 y.b 8
      ^^^ entry t.rt3 y.a 0⟩

/-- The last round of `aes_decrypt`. -/
def rlast (t : AesTables) (rk : List ULong) (r : Nat) (y : Quad ULong) : Quad ULong :=
  ⟨word rk (4 * r) ^^^ (entry t.rsb y.a 24 <<< 24) ^^^ (entry t.rsb y.d 16 <<< 16)
      ^^^ (entry t.rsb y.c 8 <<< 8) ^^^ entry t.rsb y.b 0,
    word rk (4 * r + 1) ^^^ (entry t.rsb y.b 24 <<< 24) ^^^ (entry t.rsb y.a 16 <<< 16)
      ^^^ (entry t.rsb y.d 8 <<< 8) ^^^ entry t.rsb y.c 0,
    word rk (4 * r + 2) ^^^ (entry t.rsb y.c 24 <<< 24) ^^^ (entry t.rsb y.b 16 <<< 16)
      ^^^ (entry t.rsb y.a 8 <<< 8) ^^^ entry t.rsb y.d 0,
    word rk (4 * r + 3) ^^^ (entry t.rsb y.d 24 <<< 24) ^^^ (entry t.rsb y.c 16 <<< 16)
      ^^^ (entry t.rsb y.b 8 <<< 8) ^^^ entry t.rsb y.a 0⟩

/-- The number of rounds with tables: nine, two more if `nr > 10` and two more if
`nr > 12`. -/
def tableRounds (nr : Nat) : Nat := 9 + (if nr > 10 then 2 else 0) + (if nr > 12 then 2 else 0)

/-- The words of the input block, to which the first round key is added. -/
def firstWords (rk : List ULong) (input : Nat → UInt8) : Quad ULong :=
  ⟨getUint32 input 0 ^^^ word rk 0, getUint32 input 4 ^^^ word rk 1,
    getUint32 input 8 ^^^ word rk 2, getUint32 input 12 ^^^ word rk 3⟩

/-- The bytes written at `output`. -/
def putWords (x : Quad ULong) : Vector UInt8 16 :=
  putUint32 x.a ++ putUint32 x.b ++ putUint32 x.c ++ putUint32 x.d

/-- `aes_encrypt`. -/
def aesEncrypt (t : AesTables) (ctx : AesContext) (input : Nat → UInt8) : Vector UInt8 16 :=
  let n := tableRounds ctx.nr
  let y := (List.range' 1 n).foldl (fun y r => fround t ctx.erk r y) (firstWords ctx.erk input)
  putWords (flast t ctx.erk (n + 1) y)

/-- `aes_decrypt`. -/
def aesDecrypt (t : AesTables) (ctx : AesContext) (input : Nat → UInt8) : Vector UInt8 16 :=
  let n := tableRounds ctx.nr
  let y := (List.range' 1 n).foldl (fun y r => rround t ctx.drk r y) (firstWords ctx.drk input)
  putWords (rlast t ctx.drk (n + 1) y)

end BackupSoftware.Encryption

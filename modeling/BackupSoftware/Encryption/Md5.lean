import Mathlib.Data.List.GetD
import BackupSoftware.Encryption.Des
import BackupSoftware.Library.Md5

/-!
# MD5

`encryption/md5.c`: the context, `md5_process` on a block, `md5_update`, `md5_finish` and
`lib_md5_checksum`. However the message is cut into calls of `md5_update`, the context
holds the hash of the full blocks and the start of the next one, no copy leaves the
buffer, and the digest is that of the specification.
-/

namespace BackupSoftware.Encryption

open Library
open Library.BlockHash (absorb copyTo)

/-- `md5_context`; of the words only the lower 32 bits get into the digest. -/
structure Md5Context where
  total0 : ULong
  total1 : ULong
  state : Quad ULong
  buffer : List UInt8
  deriving DecidableEq, Repr

/-- `GET_UINT32_LE(n, b, i)`. -/
def getUint32Le (b : List UInt8) (i : Nat) : ULong :=
  (b.getD i 0).toBitVec.setWidth 32 ||| ((b.getD (i + 1) 0).toBitVec.setWidth 32 <<< 8)
    ||| ((b.getD (i + 2) 0).toBitVec.setWidth 32 <<< 16)
    ||| ((b.getD (i + 3) 0).toBitVec.setWidth 32 <<< 24)

/-- The bytes that `PUT_UINT32_LE(n, b, i)` writes. -/
def putUint32Le (n : ULong) : List UInt8 :=
  [⟨n.setWidth 8⟩, ⟨(n >>> 8).setWidth 8⟩, ⟨(n >>> 16).setWidth 8⟩, ⟨(n >>> 24).setWidth 8⟩]

/-- `md5_starts`. The buffer is not initialised. -/
def md5Starts (buffer : List UInt8) : Md5Context :=
  { total0 := 0, total1 := 0, buffer
    state := ⟨0x67452301, 0xEFCDAB89, 0x98BADCFE, 0x10325476⟩ }

/-- `S(x,n)`. -/
def rotateS (x : ULong) (n : Nat) : ULong := (x <<< n) ||| ((x &&& 0xFFFFFFFF) >>> (32 - n))

/-- `P(a,b,c,d,k,s,t)`, and the variables in the order in which the next one names them:
`P(A, B, C, D, ..)` is followed by `P(D, A, B, C, ..)`. -/
def stepP (f : ULong → ULong → ULong → ULong) (x : List ULong) (v : Quad ULong)
    (kst : Nat × Nat × ULong) : Quad ULong :=
  let a := v.a + (f v.b v.c v.d + x.getD kst.1 0 + kst.2.2)
  ⟨v.d, rotateS a kst.2.1 + v.b, v.b, v.c⟩

/-- The four definitions of `F`. -/
def f1 (x y z : ULong) : ULong := z ^^^ (x &&& (y ^^^ z))
def f2 (x y z : ULong) : ULong := y ^^^ (z &&& (x ^^^ y))
def f3 (x y z : ULong) : ULong := x ^^^ y ^^^ z
def f4 (x y z : ULong) : ULong := y ^^^ (x ||| ~~~z)

/-- The last three arguments of the sixteen `P` in each round. -/
def round1 : List (Nat × Nat × ULong) :=
  [(0, 7, 0xD76AA478), (1, 12, 0xE8C7B756), (2, 17, 0x242070DB), (3, 22, 0xC1BDCEEE),
    (4, 7, 0xF57C0FAF), (5, 12, 0x4787C62A), (6, 17, 0xA8304613), (7, 22, 0xFD469501),
    (8, 7, 0x698098D8), (9, 12, 0x8B44F7AF), (10, 17, 0xFFFF5BB1), (11, 22, 0x895CD7BE),
    (12, 7, 0x6B901122), (13, 12, 0xFD987193), (14, 17, 0xA679438E), (15, 22, 0x49B40821)]

def round2 : List (Nat × Nat × ULong) :=
  [(1, 5, 0xF61E2562), (6, 9, 0xC040B340), (11, 14, 0x265E5A51), (0, 20, 0xE9B6C7AA),
    (5, 5, 0xD62F105D), (10, 9, 0x02441453), (15, 14, 0xD8A1E681), (4, 20, 0xE7D3FBC8),
    (9, 5, 0x21E1CDE6), (14, 9, 0xC33707D6), (3, 14, 0xF4D50D87), (8, 20, 0x455A14ED),
    (13, 5, 0xA9E3E905), (2, 9, 0xFCEFA3F8), (7, 14, 0x676F02D9), (12, 20, 0x8D2A4C8A)]

def round3 : List (Nat × Nat × ULong) :=
  [(5, 4, 0xFFFA3942), (8, 11, 0x8771F681), (11, 16, 0x6D9D6122), (14, 23, 0xFDE5380C),
    (1, 4, 0xA4BEEA44), (4, 11, 0x4BDECFA9), (7, 16, 0xF6BB4B60), (10, 23, 0xBEBFBC70),
    (13, 4, 0x289B7EC6), (0, 11, 0xEAA127FA), (3, 16, 0xD4EF3085), (6, 23, 0x04881D05),
    (9, 4, 0xD9D4D039), (12, 11, 0xE6DB99E5), (15, 16, 0x1FA27CF8), (2, 23, 0xC4AC5665)]

def round4 : List (Nat × Nat × ULong) :=
  [(0, 6, 0xF4292244), (7, 10, 0x432AFF97), (14, 15, 0xAB9423A7), (5, 21, 0xFC93A039),
    (12, 6, 0x655B59C3), (3, 10, 0x8F0CCC92), (10, 15, 0xFFEFF47D), (1, 21, 0x85845DD1),
    (8, 6, 0x6FA87E4F), (15, 10, 0xFE2CE6E0), (6, 15, 0xA3014314), (13, 21, 0x4E0811A1),
    (4, 6, 0xF7537E82), (11, 10, 0xBD3AF235), (2, 15, 0x2AD7D2BB), (9, 21, 0xEB86D391)]

/-- `md5_process`: the new `ctx->state`. -/
def md5Process (state : Quad ULong) (data : List UInt8) : Quad ULong :=
  let x := (List.range 16).map fun i => getUint32Le data (4 * i)
  let v := round1.foldl (stepP f1 x) state
  let v := round2.foldl (stepP f2 x) v
  let v := round3.foldl (stepP f3 x) v
  let v := round4.foldl (stepP f4 x) v
  ⟨state.a + v.a, state.b + v.b, state.c + v.c, state.d + v.d⟩

/-- `md5_update` from the loop on, with `input` at offset `off`. -/
def md5UpdateRest (ctx : Md5Context) (left : Nat) (input : Nat → UInt8) (off ilen : Nat) :
    Option Md5Context :=
  let state := (List.range (ilen / 64)).foldl
    (fun s i => md5Process s (Memory.load input (off + 64 * i) 64)) ctx.state
  let off := off + 64 * (ilen / 64)
  let ilen := ilen % 64
  if ilen > 0 then
    (copyTo ctx.buffer left (Memory.load input off ilen)).map fun buffer =>
      { ctx with state, buffer }
  else some { ctx with state }

/-- `md5_update`; `none` if a copy leaves the buffer. -/
def md5Update (ctx : Md5Context) (input : Nat → UInt8) (ilen : Int) : Option Md5Context :=
  if ilen ≤ 0 then some ctx
  else
    let left := (ctx.total0 &&& 0x3F).toNat
    let fill := 64 - left
    let total0 := ctx.total0 + BitVec.ofInt 32 ilen
    let total1 := if total0 < BitVec.ofInt 32 ilen then ctx.total1 + 1 else ctx.total1
    let ctx := { ctx with total0, total1 }
    if left ≠ 0 ∧ ilen ≥ fill then
      (copyTo ctx.buffer left (Memory.load input 0 fill)).bind fun buffer =>
        md5UpdateRest { ctx with buffer, state := md5Process ctx.state buffer } 0 input fill
          (ilen - fill).toNat
    else md5UpdateRest ctx left input 0 ilen.toNat

/-- `md5_padding`. -/
def md5Padding (k : Nat) : UInt8 := if k = 0 then 0x80 else 0

/-- `md5_finish`: the bytes written at `output`. -/
def md5Finish (ctx : Md5Context) : Option (List UInt8) :=
  let high := (ctx.total0 >>> 29) ||| (ctx.total1 <<< 3)
  let low := ctx.total0 <<< 3
  let msglen := putUint32Le low ++ putUint32Le high
  let last := (ctx.total0 &&& 0x3F).toNat
  let padn := if last < 56 then 56 - last else 120 - last
  (md5Update ctx md5Padding padn).bind fun ctx =>
    (md5Update ctx (msglen.getD · 0) 8).map fun ctx =>
      putUint32Le ctx.state.a ++ putUint32Le ctx.state.b ++ putUint32Le ctx.state.c
        ++ putUint32Le ctx.state.d

/-- `lib_md5_checksum`, with what is in the buffer of its context at first. -/
def libMd5Checksum (buffer : List UInt8) (inp : Nat → UInt8) (inlen : Int) : Option (List UInt8) :=
  (md5Update (md5Starts buffer) inp inlen).bind md5Finish

theorem or_reverse (a b c d : ULong) : a ||| b ||| c ||| d = d ||| c ||| b ||| a := by
  ac_rfl

theorem getUint32Le_eq (b : List UInt8) (i : Nat) : getUint32Le b (4 * i) = Md5.wordOf b i := by
  rw [getUint32Le, Md5.wordOf, BlockHash.append_eq_or, or_reverse]

theorem rotateS_eq (x : ULong) {n : Nat} (hn : n < 32) : rotateS x n = x.rotateLeft n := by
  have hmask : x &&& 0xFFFFFFFF = x := BitVec.and_allOnes
  rw [rotateS, hmask, BitVec.rotateLeft_def, Nat.mod_eq_of_lt hn]

theorem f1_eq (x y z : ULong) : f1 x y z = (x &&& y) ||| (~~~x &&& z) := by
  unfold f1
  ext i hi
  simp only [BitVec.getElem_xor, BitVec.getElem_and, BitVec.getElem_or, BitVec.getElem_not]
  cases x[i] <;> cases y[i] <;> cases z[i] <;> rfl

theorem f2_eq (x y z : ULong) : f2 x y z = (x &&& z) ||| (y &&& ~~~z) := by
  unfold f2
  ext i hi
  simp only [BitVec.getElem_xor, BitVec.getElem_and, BitVec.getElem_or, BitVec.getElem_not]
  cases x[i] <;> cases y[i] <;> cases z[i] <;> rfl

theorem index_shift_lt {i : Nat} (hi : i < 64) : Md5.index i < 16 ∧ Md5.shift i < 32 :=
  (by decide : ∀ i, i < 64 → Md5.index i < 16 ∧ Md5.shift i < 32) i hi

/-- The lines of a round are the steps of the specification, in their order. -/
theorem round_eq {f : ULong → ULong → ULong → ULong} {r : List (Nat × Nat × ULong)} {n : Nat}
    (hn : n + 16 ≤ 64)
    (hr : r = (List.range' n 16).map fun i => (Md5.index i, Md5.shift i, Md5.constants.getD i 0))
    (hf : ∀ i, n ≤ i → i < n + 16 → f = Md5.function i) (data : List UInt8) (v : Quad ULong) :
    r.foldl (stepP f ((List.range 16).map fun i => getUint32Le data (4 * i))) v =
      (List.range' n 16).foldl (Md5.step (Md5.wordOf data)) v := by
  rw [hr, List.foldl_map]
  apply List.foldl_ext
  intro v i hi
  have hrange := List.mem_range'_1.mp hi
  obtain ⟨hindex, hshift⟩ := index_shift_lt (show i < 64 by omega)
  have hword : ((List.range 16).map fun i => getUint32Le data (4 * i)).getD (Md5.index i) 0 =
      Md5.wordOf data (Md5.index i) := by
    rw [List.getD_eq_getElem _ _ (by simpa using hindex), List.getElem_map, List.getElem_range,
      getUint32Le_eq]
  simp only [stepP, Md5.step, hword, rotateS_eq _ hshift, hf i hrange.1 hrange.2]
  rw [BitVec.add_comm v.b, BitVec.add_assoc v.a, BitVec.add_assoc v.a, BitVec.add_assoc]

theorem md5Process_eq : md5Process = Md5.compress := by
  funext state data
  have h1 : ∀ i, 0 ≤ i → i < 0 + 16 → f1 = Md5.function i := by
    intro i _ hi
    funext x y z
    rw [f1_eq, Md5.function, if_pos (by omega)]
  have h2 : ∀ i, 16 ≤ i → i < 16 + 16 → f2 = Md5.function i := by
    intro i hle hi
    funext x y z
    rw [f2_eq, Md5.function, if_neg (by omega), if_pos (by omega)]
  have h3 : ∀ i, 32 ≤ i → i < 32 + 16 → f3 = Md5.function i := by
    intro i hle hi
    funext x y z
    rw [f3, Md5.function, if_neg (by omega), if_neg (by omega), if_pos (by omega)]
  have h4 : ∀ i, 48 ≤ i → i < 48 + 16 → f4 = Md5.function i := by
    intro i hle hi
    funext x y z
    rw [f4, Md5.function, if_neg (by omega), if_neg (by omega), if_neg (by omega)]
  have hsteps : List.range 64 = List.range' 0 16 ++ List.range' 16 16 ++ List.range' 32 16
      ++ List.range' 48 16 := by decide
  simp only [md5Process, Md5.compress, hsteps, List.foldl_append, Quad.zip]
  rw [round_eq (by decide) (by decide) h1, round_eq (by decide) (by decide) h2,
    round_eq (by decide) (by decide) h3, round_eq (by decide) (by decide) h4]

/-- The context after the bytes of `msg`: their number, the hash of the full blocks and the
start of the next one. -/
structure Md5Context.Absorbed (ctx : Md5Context) (msg : List UInt8) : Prop where
  total : ctx.total0.toNat + 0x100000000 * ctx.total1.toNat = msg.length % 0x10000000000000000
  length_buffer : ctx.buffer.length = 64
  rest : (ctx.state, ctx.buffer.take (msg.length % 64)) =
    absorb 64 Md5.compress (Md5.initial, []) msg

theorem md5Starts_absorbed {buffer : List UInt8} (h : buffer.length = 64) :
    (md5Starts buffer).Absorbed [] := ⟨rfl, h, rfl⟩

/-- A carry out of the lower word of the count is seen from the sum. -/
theorem total_add (a b : ULong) {n : Nat} (hn : n < 0x100000000) :
    (a + BitVec.ofNat 32 n).toNat + 0x100000000 *
        (if a + BitVec.ofNat 32 n < BitVec.ofNat 32 n then b + 1 else b).toNat =
      (a.toNat + 0x100000000 * b.toNat + n) % 0x10000000000000000 := by
  have ha := a.isLt
  have hb := b.isLt
  have hsum : (a + BitVec.ofNat 32 n).toNat = (a.toNat + n) % 0x100000000 := by
    rw [BitVec.toNat_add, BitVec.toNat_ofNat, Nat.add_mod_mod]
  have hcarry : a + BitVec.ofNat 32 n < BitVec.ofNat 32 n ↔ 0x100000000 ≤ a.toNat + n := by
    rw [BitVec.lt_def, hsum, BitVec.toNat_ofNat, Nat.mod_eq_of_lt hn]
    omega
  rw [hsum]
  by_cases h : 0x100000000 ≤ a.toNat + n
  · rw [if_pos (hcarry.mpr h), BitVec.toNat_add]
    have hone : (1 : ULong).toNat = 1 := rfl
    rw [hone]
    omega
  · rw [if_neg (fun h' => h (hcarry.mp h'))]
    omega

theorem toNat_left (w : ULong) : (w &&& 0x3F).toNat = w.toNat % 64 := by
  rw [BitVec.toNat_and]
  exact Nat.and_two_pow_sub_one_eq_mod w.toNat 6

/-- The loop over full blocks and the last copy: a block that was begun is not completed. -/
theorem md5UpdateRest_eq (ctx : Md5Context) (hbuf : ctx.buffer.length = 64) {left : Nat}
    (hleft : left < 64) (input : Nat → UInt8) (off : Nat) {n : Nat}
    (h : left = 0 ∨ left + n < 64) :
    ∃ ctx', md5UpdateRest ctx left input off n = some ctx' ∧ ctx'.total0 = ctx.total0 ∧
      ctx'.total1 = ctx.total1 ∧ ctx'.buffer.length = 64 ∧
      (ctx'.state, ctx'.buffer.take ((left + n) % 64)) =
        absorb 64 Md5.compress (ctx.state, ctx.buffer.take left) (Memory.load input off n) := by
  have hmod : (left + n) % 64 = left + n % 64 := by omega
  have hsplit : Memory.load input off n = Memory.load input off (64 * (n / 64)) ++
      Memory.load input (off + 64 * (n / 64)) (n % 64) := by
    rw [← Memory.load_add, Nat.div_add_mod]
  have hfull : absorb 64 Md5.compress (ctx.state, ctx.buffer.take left)
      (Memory.load input off (64 * (n / 64))) =
        ((List.range (n / 64)).foldl
          (fun s i => Md5.compress s (Memory.load input (off + 64 * i) 64)) ctx.state,
          ctx.buffer.take left) := by
    rcases h with rfl | h
    · exact BlockHash.absorb_load (by decide) ctx.state input off (n / 64)
    · have hzero : n / 64 = 0 := by omega
      rw [hzero]
      rfl
  have htake : (ctx.buffer.take left).length = left := by
    rw [List.length_take]
    omega
  rw [hmod, hsplit, BlockHash.absorb_append, hfull, BlockHash.absorb_short
    (by rw [htake, Memory.length_load]; omega), md5UpdateRest, md5Process_eq]
  by_cases hrest : n % 64 > 0
  · obtain ⟨buffer, hcopy, hlen, hinit⟩ := BlockHash.copyTo_eq ctx.buffer left
      (Memory.load input (off + 64 * (n / 64)) (n % 64)) (by rw [Memory.length_load]; omega)
    rw [Memory.length_load] at hinit
    refine ⟨_, (if_pos hrest).trans (congrArg (Option.map _) hcopy), rfl, rfl, hlen.trans hbuf, ?_⟩
    exact congrArg _ hinit
  · have hzero : n % 64 = 0 := by omega
    refine ⟨_, if_neg hrest, rfl, rfl, hbuf, ?_⟩
    rw [hzero]
    exact congrArg _ (List.append_nil _).symm

/-- `md5_update` returns, and the context holds the longer message. -/
theorem md5Update_absorbed {ctx : Md5Context} {msg : List UInt8} (h : ctx.Absorbed msg)
    (input : Nat → UInt8) (ilen : Int) (hlen : ilen < 0x80000000) :
    ∃ ctx', md5Update ctx input ilen = some ctx' ∧
      ctx'.Absorbed (msg ++ Memory.load input 0 ilen.toNat) := by
  by_cases hpos : ilen ≤ 0
  · refine ⟨ctx, if_pos hpos, ?_⟩
    rw [Int.toNat_of_nonpos hpos]
    exact (List.append_nil msg).symm ▸ h
  obtain ⟨n, rfl⟩ := Int.eq_ofNat_of_zero_le (show 0 ≤ ilen by omega)
  rw [Int.toNat_natCast]
  have hbuf := h.length_buffer
  have hleft : (ctx.total0 &&& 0x3F).toNat = msg.length % 64 := by
    have := h.total
    rw [toNat_left]
    omega
  have htotal := total_add ctx.total0 ctx.total1 (show n < 0x100000000 by omega)
  rw [h.total, Nat.mod_add_mod] at htotal
  have hlength : (msg ++ Memory.load input 0 n).length = msg.length + n := by
    rw [List.length_append, Memory.length_load]
  have htake : (ctx.buffer.take (msg.length % 64)).length = msg.length % 64 := by
    rw [List.length_take]
    omega
  simp only [md5Update, if_neg hpos, hleft, BitVec.ofInt_natCast]
  by_cases hfill : msg.length % 64 ≠ 0 ∧ (n : Int) ≥ ((64 - msg.length % 64 : Nat) : Int)
  · obtain ⟨buffer, hcopy, hlen', hinit⟩ := BlockHash.copyTo_eq ctx.buffer
      (msg.length % 64) (Memory.load input 0 (64 - msg.length % 64))
      (by rw [Memory.length_load]; omega)
    rw [Memory.length_load, show msg.length % 64 + (64 - msg.length % 64) = 64 by omega,
      List.take_of_length_le (by omega)] at hinit
    have hsplit : Memory.load input 0 n = Memory.load input 0 (64 - msg.length % 64) ++
        Memory.load input (64 - msg.length % 64) (n - (64 - msg.length % 64)) := by
      have hadd := Memory.load_add input 0 (64 - msg.length % 64) (n - (64 - msg.length % 64))
      rwa [Nat.add_sub_of_le (by omega), Nat.zero_add] at hadd
    have hnat : ((n : Int) - ((64 - msg.length % 64 : Nat) : Int)).toNat =
        n - (64 - msg.length % 64) := by omega
    obtain ⟨ctx', hrun, htotal0, htotal1, hbuf', hrest⟩ := md5UpdateRest_eq
      ⟨_, _, md5Process ctx.state buffer, buffer⟩ (hlen'.trans hbuf) (show 0 < 64 by decide)
      input (64 - msg.length % 64) (n := n - (64 - msg.length % 64)) (Or.inl rfl)
    have hblock : absorb 64 Md5.compress (ctx.state, ctx.buffer.take (msg.length % 64))
        (Memory.load input 0 (64 - msg.length % 64)) = (Md5.compress ctx.state buffer, []) := by
      rw [hinit]
      exact BlockHash.absorb_full (htake.trans_lt (by omega))
        (by rw [htake, Memory.length_load]; omega)
    rw [if_pos hfill, hcopy, Option.bind_some, hnat]
    refine ⟨ctx', hrun, ?_, hbuf', ?_⟩
    · rw [htotal0, htotal1, hlength]
      exact htotal
    · have hmod : (0 + (n - (64 - msg.length % 64))) % 64 = (msg.length + n) % 64 := by omega
      rw [hlength, BlockHash.absorb_append, ← h.rest, hsplit, BlockHash.absorb_append, hblock,
        ← hmod, hrest, md5Process_eq]
      rfl
  · have hshort : msg.length % 64 = 0 ∨ msg.length % 64 + n < 64 := by omega
    obtain ⟨ctx', hrun, htotal0, htotal1, hbuf', hrest⟩ := md5UpdateRest_eq
      ⟨ctx.total0 + BitVec.ofNat 32 n, if ctx.total0 + BitVec.ofNat 32 n <
        BitVec.ofNat 32 n then ctx.total1 + 1 else ctx.total1, ctx.state, ctx.buffer⟩
      hbuf (show msg.length % 64 < 64 by omega) input 0 hshort
    rw [if_neg hfill, Int.toNat_natCast]
    refine ⟨ctx', hrun, ?_, hbuf', ?_⟩
    · rw [htotal0, htotal1, hlength]
      exact htotal
    · rw [hlength, BlockHash.absorb_append, ← h.rest, ← hrest, Nat.mod_add_mod]

/-- The context of a sequence of calls. -/
def md5Updates (ctx : Md5Context) (pieces : List ((Nat → UInt8) × Int)) : Option Md5Context :=
  pieces.foldlM (fun ctx piece => md5Update ctx piece.1 piece.2) ctx

theorem md5Updates_absorbed {ctx : Md5Context} {msg : List UInt8} (h : ctx.Absorbed msg)
    {pieces : List ((Nat → UInt8) × Int)} (hlen : ∀ piece ∈ pieces, piece.2 < 0x80000000) :
    ∃ ctx', md5Updates ctx pieces = some ctx' ∧
      ctx'.Absorbed (msg ++ pieces.flatMap fun piece => Memory.load piece.1 0 piece.2.toNat) := by
  induction pieces generalizing ctx msg with
  | nil => exact ⟨ctx, rfl, (List.append_nil msg).symm ▸ h⟩
  | cons piece pieces ih =>
    obtain ⟨ctx1, hrun1, h1⟩ := md5Update_absorbed h piece.1 piece.2 (hlen _ List.mem_cons_self)
    obtain ⟨ctx', hrun, h'⟩ := ih h1 fun q hq => hlen q (List.mem_cons_of_mem _ hq)
    refine ⟨ctx', ?_, ?_⟩
    · rw [md5Updates, List.foldlM_cons, hrun1]
      exact hrun
    · rwa [List.flatMap_cons, ← List.append_assoc]

theorem putUint32Le_eq (w : ULong) : putUint32Le w = BlockHash.littleEndian 4 w.toNat :=
  (BlockHash.littleEndian_word w).symm

/-- The number of bits, from the words of the number of bytes. -/
theorem msglen_eq (lo hi : ULong) {len : Nat}
    (h : lo.toNat + 0x100000000 * hi.toNat = len % 0x10000000000000000) :
    putUint32Le (lo <<< 3) ++ putUint32Le ((lo >>> 29) ||| (hi <<< 3)) =
      BlockHash.littleEndian 8 (8 * len) := by
  have hlow : (lo <<< 3).toNat = lo.toNat * 8 % 0x100000000 := by
    rw [BitVec.toNat_shiftLeft, Nat.shiftLeft_eq]
  have hhigh : ((lo >>> 29) ||| (hi <<< 3)).toNat =
      (hi.toNat * 8 + lo.toNat / 0x20000000) % 0x100000000 := by
    have hlt : lo.toNat / 0x20000000 < 2 ^ 3 := by
      have := lo.isLt
      omega
    have hor := Nat.shiftLeft_add_eq_or_of_lt hlt (hi.toNat % 0x20000000)
    rw [BitVec.toNat_or, BitVec.toNat_ushiftRight, BitVec.toNat_shiftLeft,
      Nat.shiftRight_eq_div_pow, Nat.or_comm]
    have hmod : hi.toNat <<< 3 % 2 ^ 32 = (hi.toNat % 0x20000000) <<< 3 := by
      rw [Nat.shiftLeft_eq, Nat.shiftLeft_eq]
      omega
    rw [hmod, ← hor, Nat.shiftLeft_eq]
    omega
  have hfirst : BlockHash.littleEndian 4 (lo <<< 3).toNat = BlockHash.littleEndian 4 (8 * len) :=
    BlockHash.littleEndian_congr (by rw [hlow]; omega)
  have hsecond : BlockHash.littleEndian 4 ((lo >>> 29) ||| (hi <<< 3)).toNat =
      BlockHash.littleEndian 4 (8 * len / 256 ^ 4) :=
    BlockHash.littleEndian_congr (by rw [hhigh]; omega)
  rw [putUint32Le_eq, putUint32Le_eq, BlockHash.littleEndian_add 4 4, hfirst, hsecond]

theorem load_md5Padding (k : Nat) :
    Memory.load md5Padding 0 (k + 1) = 0x80 :: List.replicate k 0 := by
  have hzeros : Memory.load md5Padding (0 + 1) k = (List.range k).map fun _ => 0 :=
    List.map_congr_left fun i _ => if_neg (by omega)
  rw [Memory.load_succ, hzeros, List.map_const', List.length_range]
  rfl

/-- `md5_finish` gives the digest of what the context holds. -/
theorem md5Finish_eq {ctx : Md5Context} {msg : List UInt8} (h : ctx.Absorbed msg) :
    md5Finish ctx = some (Md5.digest msg) := by
  have hlast : (ctx.total0 &&& 0x3F).toNat = msg.length % 64 := by
    have := h.total
    rw [toNat_left]
    omega
  have hpadn : (if msg.length % 64 < 56 then 56 - msg.length % 64 else 120 - msg.length % 64) =
      (119 - msg.length % 64) % 64 + 1 := by
    split <;> omega
  have hmsglen := msglen_eq ctx.total0 ctx.total1 h.total
  obtain ⟨ctx1, hrun1, h1⟩ := md5Update_absorbed h md5Padding
    ((119 - msg.length % 64) % 64 + 1 : Nat) (by omega)
  obtain ⟨ctx2, hrun2, h2⟩ := md5Update_absorbed h1
    ((BlockHash.littleEndian 8 (8 * msg.length)).getD · 0) 8 (by decide)
  have hbytes : Memory.load ((BlockHash.littleEndian 8 (8 * msg.length)).getD · 0) 0 8 =
      BlockHash.littleEndian 8 (8 * msg.length) := Memory.load_getD _ 0
  rw [Int.toNat_natCast, load_md5Padding, show (8 : Int).toNat = 8 from rfl, hbytes] at h2
  have hstate : ctx2.state = BlockHash.hashBlocks 64 Md5.compress Md5.initial (Md5.padded msg) := by
    have habsorb : absorb 64 Md5.compress (Md5.initial, []) (Md5.padded msg) =
        (BlockHash.hashBlocks 64 Md5.compress Md5.initial (Md5.padded msg), []) :=
      BlockHash.absorb_blocks (by decide) Md5.initial
        (BlockHash.length_padded (fun k => BlockHash.length_littleEndian 8 (8 * k)) msg)
    exact congrArg Prod.fst (h2.rest.trans habsorb)
  simp only [md5Finish, hlast, hpadn, hmsglen, hrun1, hrun2, Option.bind_some, Option.map_some,
    hstate]
  simp only [putUint32Le_eq, Md5.digest]

/-- However a message is cut into calls of `md5_update`, `md5_finish` gives its digest. -/
theorem md5_pieces_digest {buffer : List UInt8} (hbuf : buffer.length = 64)
    {pieces : List ((Nat → UInt8) × Int)} (hlen : ∀ piece ∈ pieces, piece.2 < 0x80000000) :
    (md5Updates (md5Starts buffer) pieces).bind md5Finish =
      some (Md5.digest (pieces.flatMap fun piece => Memory.load piece.1 0 piece.2.toNat)) := by
  obtain ⟨ctx, hrun, h⟩ := md5Updates_absorbed (md5Starts_absorbed hbuf) hlen
  rw [hrun]
  exact md5Finish_eq h

theorem md5_pieces_digest_two :
    (md5Updates (md5Starts (List.replicate 64 0xFF))
        [(([0x61].getD · 0), 1), (([0x62, 0x63].getD · 0), 2)]).bind md5Finish =
      some (Md5.digest [0x61, 0x62, 0x63]) :=
  md5_pieces_digest (by decide) (by decide)

/-- `lib_md5_checksum` is `md5_update` with one piece. -/
theorem libMd5Checksum_eq {buffer : List UInt8} (hbuf : buffer.length = 64) (inp : Nat → UInt8)
    {inlen : Int} (hlen : inlen < 0x80000000) : libMd5Checksum buffer inp inlen =
      some (Md5.digest (Memory.load inp 0 inlen.toNat)) := by
  obtain ⟨ctx, hrun, h⟩ := md5Update_absorbed (md5Starts_absorbed hbuf) inp inlen hlen
  rw [libMd5Checksum, hrun]
  exact md5Finish_eq h

example : libMd5Checksum (List.replicate 64 0xFF) ([0x61, 0x62, 0x63].getD · 0) 3 =
    some [0x90, 0x01, 0x50, 0x98, 0x3C, 0xD2, 0x4F, 0xB0, 0xD6, 0x96, 0x3F, 0x7D, 0x28, 0xE1, 0x7F,
      0x72] := by decide +kernel

end BackupSoftware.Encryption

import Mathlib.Data.List.GetD
import Mathlib.Tactic.Common
import Mathlib.Tactic.IntervalCases

/-!
# Base64

The encoder and the decoder of `encryption/lib_base64.c`. Both write their output
byte after byte, so it is a list. The decoder reads four characters at a time from
a buffer of which the string is the start, and stops at the first character of a
group that is NUL; a read outside the buffer is a fault. Their counters are `int`s, and
so is an addition that overflows.
-/

namespace BackupSoftware.Encryption

/-- The characters of the digits, as ASCII codes. -/
def base64char : List UInt8 :=
  ['A', 'B', 'C', 'D', 'E', 'F', 'G', 'H', 'I', 'J', 'K', 'L', 'M', 'N', 'O', 'P', 'Q', 'R', 'S',
    'T', 'U', 'V', 'W', 'X', 'Y', 'Z', 'a', 'b', 'c', 'd', 'e', 'f', 'g', 'h', 'i', 'j', 'k', 'l',
    'm', 'n', 'o', 'p', 'q', 'r', 's', 't', 'u', 'v', 'w', 'x', 'y', 'z', '0', '1', '2', '3', '4',
    '5', '6', '7', '8', '9', '+', '/'].map fun c => c.toNat.toUInt8

/-- The character `=`. -/
def padChar : UInt8 := 61

/-- `base64char[(int)current]`. -/
def base64Digit (current : UInt8) : UInt8 := base64char.getD current.toNat 0

/-! The values of `current` in the encoder: the four digits of a group of three bytes.
The second and the third are started from one byte and completed from the next. -/

def digit0 (b0 : UInt8) : UInt8 := (b0 >>> 2) &&& 0x3F
def digit1Start (b0 : UInt8) : UInt8 := (b0 <<< 4) &&& 0x30
def digit1 (b0 b1 : UInt8) : UInt8 := digit1Start b0 ||| ((b1 >>> 4) &&& 0x0F : UInt8)
def digit2Start (b1 : UInt8) : UInt8 := (b1 <<< 2) &&& 0x3C
def digit2 (b1 b2 : UInt8) : UInt8 := digit2Start b1 ||| ((b2 >>> 6) &&& 0x03 : UInt8)
def digit3 (b2 : UInt8) : UInt8 := b2 &&& 0x3F

/-- A read outside the buffer that holds the string, or the overflow of a counter. -/
inductive Base64Fault where
  | outside
  | overflow
  deriving DecidableEq, Repr

/-- `v + n` for a counter `v` of type `int`. -/
def count (v n : Nat) : Except Base64Fault Nat :=
  if v + n < 2 ^ 31 then .ok (v + n) else .error .overflow

/-- The loop of `lib_base64_encode`, on the bytes from index `i` on. -/
def encodeLoop (i j : Nat) : List UInt8 → Except Base64Fault (List UInt8)
  | [] => .ok []
  | [b0] => do
      let _ ← count j 4
      .ok [base64Digit (digit0 b0), base64Digit (digit1Start b0), padChar, padChar]
  | [b0, b1] => do
      let _ ← count j 4
      .ok [base64Digit (digit0 b0), base64Digit (digit1 b0 b1), base64Digit (digit2Start b1), padChar]
  | b0 :: b1 :: b2 :: rest => do
      let j ← count j 4
      let i ← count i 3
      let chars ← encodeLoop i j rest
      .ok ([base64Digit (digit0 b0), base64Digit (digit1 b0 b1), base64Digit (digit2 b1 b2),
        base64Digit (digit3 b2)] ++ chars)

/-- Everything that is written at `base64`. -/
def libBase64Encode (bindata : List UInt8) : Except Base64Fault (List UInt8) := do
  let chars ← encodeLoop 0 0 bindata
  .ok (chars ++ [0])

/-- The characters of the encoder, without its counters. -/
def encodeGroups : List UInt8 → List UInt8
  | [] => []
  | [b0] => [base64Digit (digit0 b0), base64Digit (digit1Start b0), padChar, padChar]
  | [b0, b1] =>
      [base64Digit (digit0 b0), base64Digit (digit1 b0 b1), base64Digit (digit2Start b1), padChar]
  | b0 :: b1 :: b2 :: rest =>
      [base64Digit (digit0 b0), base64Digit (digit1 b0 b1), base64Digit (digit2 b1 b2),
        base64Digit (digit3 b2)] ++ encodeGroups rest

/-- The search for a digit: the last `k` with this character, 0xFF if there is none. -/
def findDigit (c : UInt8) : UInt8 :=
  (List.range 64).foldl (fun temp k => if base64char.getD k 0 = c then k.toUInt8 else temp) 0xFF

/-! The bytes that the decoder makes of `temp`. -/

def byte0 (t0 t1 : UInt8) : UInt8 := ((t0 <<< 2) &&& 0xFC : UInt8) ||| ((t1 >>> 4) &&& 0x03 : UInt8)
def byte1 (t1 t2 : UInt8) : UInt8 := ((t1 <<< 4) &&& 0xF0 : UInt8) ||| ((t2 >>> 2) &&& 0x0F : UInt8)
def byte2 (t2 t3 : UInt8) : UInt8 := ((t2 <<< 6) &&& 0xF0 : UInt8) ||| (t3 &&& 0x3F : UInt8)

/-- The loop of `lib_base64_decode`, on the buffer from index `i` on: the bytes written. -/
def decodeLoop (i j : Nat) : List UInt8 → Except Base64Fault (List UInt8)
  | [] => .error .outside
  | c0 :: rest =>
      if c0 = 0 then .ok []
      else
        match rest with
        | c1 :: c2 :: c3 :: rest => do
            let t0 := findDigit c0
            let t1 := findDigit c1
            let t2 := findDigit c2
            let t3 := findDigit c3
            let j ← count j 1
            if c2 = padChar then .ok [byte0 t0 t1]
            else do
              let j ← count j 1
              if c3 = padChar then .ok [byte0 t0 t1, byte1 t1 t2]
              else do
                let j ← count j 1
                let i ← count i 4
                let bytes ← decodeLoop i j rest
                .ok ([byte0 t0 t1, byte1 t1 t2, byte2 t2 t3] ++ bytes)
        | _ => .error .outside

/-- The return value `j`, and the bytes written at `bindata`. -/
def libBase64Decode (base64 : List UInt8) : Except Base64Fault (Nat × List UInt8) :=
  (decodeLoop 0 0 base64).map fun bytes => (bytes.length, bytes)

/-- The bytes of the decoder, without its counters. -/
def decodeGroups : List UInt8 → Except Base64Fault (List UInt8)
  | [] => .error .outside
  | c0 :: rest =>
      if c0 = 0 then .ok []
      else
        match rest with
        | c1 :: c2 :: c3 :: rest =>
            let t0 := findDigit c0
            let t1 := findDigit c1
            let t2 := findDigit c2
            let t3 := findDigit c3
            if c2 = padChar then .ok [byte0 t0 t1]
            else if c3 = padChar then .ok [byte0 t0 t1, byte1 t1 t2]
            else (decodeGroups rest).map ([byte0 t0 t1, byte1 t1 t2, byte2 t2 t3] ++ ·)
        | _ => .error .outside

theorem findDigit_base64Digit {d : UInt8} (h : d < 64) : findDigit (base64Digit d) = d := by
  have hall : ∀ k : Fin 64, findDigit (base64Digit k.val.toUInt8) = k.val.toUInt8 := by
    decide
  have hd := hall ⟨d.toNat, h⟩
  simpa using hd

theorem base64Digit_mem {d : UInt8} (h : d < 64) : base64Digit d ∈ base64char := by
  have hlt : d.toNat < base64char.length := h
  rw [base64Digit, List.getD_eq_getElem _ _ hlt]
  exact List.getElem_mem hlt

set_option maxRecDepth 2000 in
theorem base64char_ne : ∀ c ∈ base64char, c ≠ 0 ∧ c ≠ padChar := by decide

theorem base64char_ne_zero {c : UInt8} (h : c ∈ base64char) : c ≠ 0 := (base64char_ne c h).1

theorem base64char_ne_padChar {c : UInt8} (h : c ∈ base64char) : c ≠ padChar :=
  (base64char_ne c h).2

theorem masked_lt (d : UInt8) : d &&& 0x3F < 64 :=
  UInt8.lt_of_le_of_lt UInt8.and_le_right (by decide)

theorem digit0_lt (b0 : UInt8) : digit0 b0 < 64 := masked_lt (b0 >>> 2)

theorem digit1_lt (b0 b1 : UInt8) : digit1 b0 b1 < 64 := by
  have hmask : digit1 b0 b1 &&& 0x3F = digit1 b0 b1 := by
    rw [← UInt8.toBitVec_inj]
    ext i hi
    interval_cases i <;> simp [digit1, digit1Start]
  rw [← hmask]
  exact masked_lt _

theorem digit2_lt (b1 b2 : UInt8) : digit2 b1 b2 < 64 := by
  have hmask : digit2 b1 b2 &&& 0x3F = digit2 b1 b2 := by
    rw [← UInt8.toBitVec_inj]
    ext i hi
    interval_cases i <;> simp [digit2, digit2Start]
  rw [← hmask]
  exact masked_lt _

theorem digit3_lt (b2 : UInt8) : digit3 b2 < 64 := masked_lt b2

theorem byte0_digits (b0 b1 : UInt8) : byte0 (digit0 b0) (digit1 b0 b1) = b0 := by
  rw [← UInt8.toBitVec_inj]
  ext i hi
  interval_cases i <;> simp [byte0, digit0, digit1, digit1Start]

theorem byte1_digits (b0 b1 b2 : UInt8) : byte1 (digit1 b0 b1) (digit2 b1 b2) = b1 := by
  rw [← UInt8.toBitVec_inj]
  ext i hi
  interval_cases i <;> simp [byte1, digit1, digit1Start, digit2, digit2Start]

/-- The mask 0xF0 does no harm: after the shift only the two upper bits are left. -/
theorem byte2_digits (b1 b2 : UInt8) : byte2 (digit2 b1 b2) (digit3 b2) = b2 := by
  rw [← UInt8.toBitVec_inj]
  ext i hi
  interval_cases i <;> simp [byte2, digit2, digit2Start, digit3]

theorem digit1_zero (b0 : UInt8) : digit1 b0 0 = digit1Start b0 := by
  simp [digit1]

theorem digit2_zero (b1 : UInt8) : digit2 b1 0 = digit2Start b1 := by
  simp [digit2]

theorem decodeGroups_nul (rest : List UInt8) : decodeGroups (0 :: rest) = .ok [] := by
  rw [decodeGroups.eq_def]
  rfl

/-- A group that the buffer cuts off is read to its end all the same. -/
theorem decodeGroups_short {c0 : UInt8} {rest : List UInt8} (hne : ¬ c0 = 0)
    (hshort : ∀ c1 c2 c3 tail, rest = c1 :: c2 :: c3 :: tail → False) :
    decodeGroups (c0 :: rest) = .error .outside := by
  rw [decodeGroups.eq_def]
  simp only [if_neg hne]

/-- One group of characters that starts with a digit. -/
theorem decodeGroups_group {d0 : UInt8} (h0 : d0 < 64) (c1 c2 c3 : UInt8) (rest : List UInt8) :
    decodeGroups (base64Digit d0 :: c1 :: c2 :: c3 :: rest) =
      if c2 = padChar then .ok [byte0 d0 (findDigit c1)]
      else if c3 = padChar then
        .ok [byte0 d0 (findDigit c1), byte1 (findDigit c1) (findDigit c2)]
      else (decodeGroups rest).map ([byte0 d0 (findDigit c1),
        byte1 (findDigit c1) (findDigit c2), byte2 (findDigit c2) (findDigit c3)] ++ ·) := by
  rw [decodeGroups, if_neg (base64char_ne_zero (base64Digit_mem h0)), findDigit_base64Digit h0]

theorem base64Digit_ne_padChar {d : UInt8} (h : d < 64) : base64Digit d ≠ padChar :=
  base64char_ne_padChar (base64Digit_mem h)

/-- Decoding what the encoder has written gives the bytes back. -/
theorem decodeGroups_encodeGroups (x : List UInt8) : decodeGroups (encodeGroups x ++ [0]) = .ok x := by
  induction x using encodeGroups.induct with
  | case1 => exact decodeGroups_nul []
  | case2 b0 =>
    have h1 := digit1_lt b0 0
    rw [digit1_zero] at h1
    have hb0 := byte0_digits b0 0
    rw [digit1_zero] at hb0
    simp only [encodeGroups, List.cons_append]
    rw [decodeGroups_group (digit0_lt b0), if_pos rfl, findDigit_base64Digit h1, hb0]
  | case3 b0 b1 =>
    have h1 := digit1_lt b0 b1
    have h2 := digit2_lt b1 0
    have hb1 := byte1_digits b0 b1 0
    rw [digit2_zero] at h2 hb1
    simp only [encodeGroups, List.cons_append]
    rw [decodeGroups_group (digit0_lt b0), if_neg (base64Digit_ne_padChar h2), if_pos rfl,
      findDigit_base64Digit h1, findDigit_base64Digit h2, byte0_digits, hb1]
  | case4 b0 b1 b2 rest ih =>
    have h1 := digit1_lt b0 b1
    have h2 := digit2_lt b1 b2
    have h3 := digit3_lt b2
    simp only [encodeGroups, List.cons_append, List.nil_append]
    rw [decodeGroups_group (digit0_lt b0), if_neg (base64Digit_ne_padChar h2),
      if_neg (base64Digit_ne_padChar h3), ih, findDigit_base64Digit h1, findDigit_base64Digit h2,
      findDigit_base64Digit h3, byte0_digits, byte1_digits, byte2_digits]
    rfl

theorem length_encodeGroups (x : List UInt8) : (encodeGroups x).length = 4 * ((x.length + 2) / 3) := by
  induction x using encodeGroups.induct with
  | case1 => rfl
  | case2 b0 => simp [encodeGroups]
  | case3 b0 b1 => simp [encodeGroups]
  | case4 b0 b1 b2 rest ih =>
    simp only [encodeGroups, List.length_append, List.length_cons, List.length_nil, ih]
    omega

theorem encodeGroups_alphabet (x : List UInt8) :
    ∀ c ∈ encodeGroups x, c ∈ base64char ∨ c = padChar := by
  have hdigit : ∀ d : UInt8, d < 64 → base64Digit d ∈ base64char ∨ base64Digit d = padChar :=
    fun d hd => Or.inl (base64Digit_mem hd)
  induction x using encodeGroups.induct with
  | case1 => intro c hc; cases hc
  | case2 b0 =>
    have h1 := digit1_lt b0 0
    rw [digit1_zero] at h1
    simp only [encodeGroups, List.forall_mem_cons, or_true, true_and]
    exact ⟨hdigit _ (digit0_lt b0), hdigit _ h1, fun c hc => absurd hc List.not_mem_nil⟩
  | case3 b0 b1 =>
    have h2 := digit2_lt b1 0
    rw [digit2_zero] at h2
    simp only [encodeGroups, List.forall_mem_cons, or_true, true_and]
    exact ⟨hdigit _ (digit0_lt b0), hdigit _ (digit1_lt b0 b1), hdigit _ h2,
      fun c hc => absurd hc List.not_mem_nil⟩
  | case4 b0 b1 b2 rest ih =>
    simp only [encodeGroups, List.cons_append, List.nil_append, List.forall_mem_cons]
    exact ⟨hdigit _ (digit0_lt b0), hdigit _ (digit1_lt b0 b1), hdigit _ (digit2_lt b1 b2),
      hdigit _ (digit3_lt b2), ih⟩

theorem count_of_lt {v n : Nat} (h : v + n < 2 ^ 31) : count v n = .ok (v + n) := if_pos h

theorem count_of_le {v n : Nat} (h : 2 ^ 31 ≤ v + n) : count v n = .error .overflow :=
  if_neg (Nat.not_lt.mpr h)

/-- If the larger counter stays in the range, the encoder writes the characters. -/
theorem encodeLoop_of_lt {x : List UInt8} {i j : Nat} (hij : i ≤ j)
    (hfits : j + 4 * ((x.length + 2) / 3) < 2 ^ 31) : encodeLoop i j x = .ok (encodeGroups x) := by
  induction x using encodeGroups.induct generalizing i j with
  | case1 => rfl
  | case2 b0 =>
    rw [List.length_singleton] at hfits
    rw [encodeLoop, count_of_lt (by omega)]
    rfl
  | case3 b0 b1 =>
    simp only [List.length_cons, List.length_nil] at hfits
    rw [encodeLoop, count_of_lt (by omega)]
    rfl
  | case4 b0 b1 b2 rest ih =>
    simp only [List.length_cons] at hfits
    rw [encodeLoop, count_of_lt (by omega), count_of_lt (by omega)]
    show (encodeLoop (i + 3) (j + 4) rest).bind _ = _
    rw [ih (by omega) (by omega)]
    rfl

/-- Otherwise a counter overflows. -/
theorem encodeLoop_of_le {x : List UInt8} {i j : Nat} (hij : i ≤ j) (hj : j < 2 ^ 31)
    (hlong : 2 ^ 31 ≤ j + 4 * ((x.length + 2) / 3)) : encodeLoop i j x = .error .overflow := by
  induction x using encodeGroups.induct generalizing i j with
  | case1 =>
    rw [List.length_nil] at hlong
    omega
  | case2 b0 =>
    rw [List.length_singleton] at hlong
    rw [encodeLoop, count_of_le (by omega)]
    rfl
  | case3 b0 b1 =>
    simp only [List.length_cons, List.length_nil] at hlong
    rw [encodeLoop, count_of_le (by omega)]
    rfl
  | case4 b0 b1 b2 rest ih =>
    simp only [List.length_cons] at hlong
    by_cases hfits : j + 4 < 2 ^ 31
    · rw [encodeLoop, count_of_lt hfits, count_of_lt (by omega)]
      show (encodeLoop (i + 3) (j + 4) rest).bind _ = _
      rw [ih (by omega) hfits (by omega)]
      rfl
    · rw [encodeLoop, count_of_le (by omega)]
      rfl

/-- The value of `i` when the loop of `lib_base64_decode` ends. -/
def decodeIndex : List UInt8 → Nat
  | c0 :: _ :: c2 :: c3 :: rest =>
      if c0 = 0 ∨ c2 = padChar ∨ c3 = padChar then 0 else decodeIndex rest + 4
  | _ => 0

theorem decodeIndex_nul (rest : List UInt8) : decodeIndex (0 :: rest) = 0 := by
  unfold decodeIndex
  split
  · next h =>
    cases h
    exact if_pos (Or.inl rfl)
  · rfl

theorem decodeIndex_stop {c0 c1 c2 c3 : UInt8} {rest : List UInt8}
    (hpad : c2 = padChar ∨ c3 = padChar) : decodeIndex (c0 :: c1 :: c2 :: c3 :: rest) = 0 :=
  if_pos (Or.inr hpad)

theorem decodeIndex_group {c0 c1 c2 c3 : UInt8} {rest : List UInt8} (h0 : ¬ c0 = 0)
    (h2 : ¬ c2 = padChar) (h3 : ¬ c3 = padChar) :
    decodeIndex (c0 :: c1 :: c2 :: c3 :: rest) = decodeIndex rest + 4 :=
  if_neg (by simp [h0, h2, h3])

theorem decodeIndex_le (buf : List UInt8) : decodeIndex buf ≤ buf.length := by
  induction buf using decodeIndex.induct with
  | case1 c0 c1 c2 c3 rest hstop =>
    rw [decodeIndex, if_pos hstop]
    exact Nat.zero_le _
  | case2 c0 c1 c2 c3 rest hgo ih =>
    rw [decodeIndex, if_neg hgo]
    simp only [List.length_cons]
    omega
  | case3 buf hshort =>
    rw [decodeIndex.eq_2 buf hshort]
    exact Nat.zero_le _

theorem exists_of_map_ok {ε α β : Type} {f : α → β} {x : Except ε α} {b : β}
    (h : x.map f = .ok b) : ∃ a, x = .ok a ∧ f a = b := by
  cases x with
  | error e => cases h
  | ok a => exact ⟨a, rfl, Except.ok.inj h⟩

/-- The decoder writes the bytes if its index, the larger counter, stays in the range. -/
theorem decodeLoop_ok_iff (buf : List UInt8) {i j : Nat} (hij : 4 * j ≤ 3 * i) (hi : i < 2 ^ 31)
    (bytes : List UInt8) :
    decodeLoop i j buf = .ok bytes ↔
      decodeGroups buf = .ok bytes ∧ i + decodeIndex buf < 2 ^ 31 := by
  induction buf using decodeGroups.induct generalizing i j bytes with
  | case1 => exact iff_of_false (fun h => by cases h) fun h => by cases h.1
  | case2 rest =>
    have hloop : decodeLoop i j (0 :: rest) = .ok [] := by
      rw [decodeLoop.eq_def]
      rfl
    rw [hloop, decodeGroups_nul, decodeIndex_nul]
    exact (and_iff_left hi).symm
  | case3 c0 hne c1 c3 rest =>
    rw [decodeIndex_stop (Or.inl rfl), decodeLoop, if_neg hne, count_of_lt (by omega), decodeGroups,
      if_neg hne, if_pos rfl]
    exact (and_iff_left hi).symm
  | case4 c0 hne c1 c2 rest h2 =>
    rw [decodeIndex_stop (Or.inr rfl), decodeLoop, if_neg hne, count_of_lt (by omega), decodeGroups,
      if_neg hne, if_neg h2, if_pos rfl]
    show (if c2 = padChar then _ else _) = _ ↔ _
    rw [if_neg h2, count_of_lt (by omega)]
    exact (and_iff_left hi).symm
  | case5 c0 hne c1 c2 c3 rest h2 h3 ih =>
    rw [decodeIndex_group hne h2 h3, decodeLoop, if_neg hne, count_of_lt (by omega), decodeGroups,
      if_neg hne, if_neg h2, if_neg h3]
    show (if c2 = padChar then _ else _) = _ ↔ _
    rw [if_neg h2, count_of_lt (by omega)]
    show (if c3 = padChar then _ else _) = _ ↔ _
    rw [if_neg h3, count_of_lt (by omega)]
    show (count i 4).bind _ = _ ↔ _
    by_cases hfits : i + 4 < 2 ^ 31
    · rw [count_of_lt hfits]
      show (decodeLoop (i + 4) (j + 1 + 1 + 1) rest).map
        ([byte0 (findDigit c0) (findDigit c1), byte1 (findDigit c1) (findDigit c2),
          byte2 (findDigit c2) (findDigit c3)] ++ ·) = _ ↔ _
      constructor
      · intro h
        obtain ⟨tail, htail, rfl⟩ := exists_of_map_ok h
        obtain ⟨hgroups, hindex⟩ := (ih (by omega) hfits tail).mp htail
        rw [hgroups]
        exact ⟨rfl, by omega⟩
      · intro h
        obtain ⟨tail, htail, rfl⟩ := exists_of_map_ok h.1
        have hindex := h.2
        rw [(ih (by omega) hfits tail).mpr ⟨htail, by omega⟩]
        rfl
    · rw [count_of_le (by omega)]
      refine iff_of_false (fun h => by cases h) ?_
      intro h
      have hindex := h.2
      omega
  | case6 c0 rest hne hshort =>
    have hloop : decodeLoop i j (c0 :: rest) = .error .outside := by
      rw [decodeLoop.eq_def]
      simp only [if_neg hne]
    rw [hloop, decodeGroups_short hne hshort]
    exact iff_of_false (fun h => by cases h) fun h => by cases h.1

theorem libBase64Decode_ok_iff (buf : List UInt8) (bytes : List UInt8) :
    libBase64Decode buf = .ok (bytes.length, bytes) ↔
      decodeGroups buf = .ok bytes ∧ decodeIndex buf < 2 ^ 31 := by
  rw [← Nat.zero_add (decodeIndex buf),
    ← decodeLoop_ok_iff buf (i := 0) (j := 0) (Nat.le_refl 0) (by decide) bytes]
  constructor
  · intro h
    obtain ⟨tail, htail, heq⟩ := exists_of_map_ok h
    rw [← (Prod.mk.inj heq).2]
    exact htail
  · intro h
    rw [libBase64Decode, h]
    rfl

/-- The encoder writes a string of the expected length over the alphabet, and the decoder makes
exactly the encoded bytes of it. -/
def Base64RoundTrips (x : List UInt8) : Prop :=
  ∃ chars, libBase64Encode x = .ok (chars ++ [0]) ∧ chars.length = 4 * ((x.length + 2) / 3) ∧
    (∀ c ∈ chars, c ≠ 0 ∧ (c ∈ base64char ∨ c = padChar)) ∧
    libBase64Decode (chars ++ [0]) = .ok (x.length, x)

theorem encodeGroups_chars (x : List UInt8) :
    ∀ c ∈ encodeGroups x, c ≠ 0 ∧ (c ∈ base64char ∨ c = padChar) := by
  intro c hc
  have hmem := encodeGroups_alphabet x c hc
  refine ⟨?_, hmem⟩
  rcases hmem with h | h
  · exact base64char_ne_zero h
  · rw [h]
    decide

/-- Bytes make the round trip exactly if their characters are fewer than 2^31. -/
theorem base64_round_trip_iff (x : List UInt8) : Base64RoundTrips x ↔ x.length ≤ 3 * (2 ^ 29 - 1) := by
  by_cases hfits : 4 * ((x.length + 2) / 3) < 2 ^ 31
  · refine iff_of_true ⟨encodeGroups x, ?_, length_encodeGroups x, encodeGroups_chars x, ?_⟩ (by omega)
    · rw [libBase64Encode, encodeLoop_of_lt (Nat.le_refl 0) (by omega)]
      rfl
    · refine (libBase64Decode_ok_iff _ x).mpr ⟨decodeGroups_encodeGroups x, ?_⟩
      have hindex := decodeIndex_le (encodeGroups x ++ [0])
      rw [List.length_append, length_encodeGroups, List.length_singleton] at hindex
      omega
  · refine iff_of_false ?_ (by omega)
    intro h
    obtain ⟨chars, hencode, -⟩ := h
    rw [libBase64Encode, encodeLoop_of_le (Nat.le_refl 0) (by decide) (by omega)] at hencode
    cases hencode

/-- For 3 * 2^29 bytes, a length that an `int` holds, the encoder counts 2^31 characters. -/
theorem encode_overflows :
    libBase64Encode (List.replicate (3 * 2 ^ 29) 0) = .error .overflow ∧
      ¬ Base64RoundTrips (List.replicate (3 * 2 ^ 29) 0) := by
  have hencode : libBase64Encode (List.replicate (3 * 2 ^ 29) 0) = .error .overflow := by
    rw [libBase64Encode, encodeLoop_of_le (Nat.le_refl 0) (by decide)]
    · rfl
    · rw [List.length_replicate]
      decide
  refine ⟨hencode, ?_⟩
  intro h
  obtain ⟨chars, hchars, -⟩ := h
  rw [hencode] at hchars
  cases hchars

example : libBase64Encode [0x4D, 0x61] = .ok [84, 87, 69, 61, 0] := by decide

end BackupSoftware.Encryption

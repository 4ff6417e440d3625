import Mathlib.Data.List.Induction
import BackupSoftware.Library.Memory

/-!
# The hexadecimal text of a message

`str_to_hex` first replaces each character by the value of its digit, in the buffer of the
text itself, and then joins the values in pairs. A character that is no digit stops the first
of the two loops with the characters before it already replaced, and nothing looks at whether
the number of characters is even.
-/

namespace BackupSoftware.RentRecord

open BackupSoftware.Library.Memory

/-- The value that `str_to_hex` gives a character; `none` for illegal data. -/
def digitValue (c : UInt8) : Option UInt8 :=
  if 0x30 ≤ c ∧ c ≤ 0x39 then some (c - 0x30)
  else if 0x41 ≤ c ∧ c ≤ 0x46 then some (c - 0x37)
  else if 0x61 ≤ c ∧ c ≤ 0x66 then some (c - 0x57)
  else none

/-- The first loop, with `n` characters to go; whether it came to its end. -/
def toDigits (oBuf : Nat → UInt8) (i : Nat) : Nat → (Nat → UInt8) × Bool
  | 0 => (oBuf, true)
  | n + 1 =>
      match digitValue (oBuf i) with
      | none => (oBuf, false)
      | some tempData => toDigits (Function.update oBuf i tempData) (i + 1) n

def joined (oBuf : Nat → UInt8) (j : Nat) : UInt8 := (oBuf j <<< 4) ||| oBuf (j + 1)

/-- The second loop, with `n` digits to go. From the last of an odd number it reads one byte
further. -/
def joinDigits (oBuf hexData : Nat → UInt8) (j tempLen : Nat) : Nat → (Nat → UInt8) × Nat
  | 0 => (hexData, tempLen)
  | 1 => (Function.update hexData tempLen (joined oBuf j), tempLen + 1)
  | n + 2 =>
      joinDigits oBuf (Function.update hexData tempLen (joined oBuf j)) (j + 2) (tempLen + 1) n

/-- The two buffers after a call, and what it returns. -/
structure HexResult where
  strData : Nat → UInt8
  hexData : Nat → UInt8
  ret : Nat

def strToHex (strData hexData : Nat → UInt8) (strLen : Nat) : HexResult :=
  let (oBuf, complete) := toDigits strData 0 strLen
  if complete then
    let (hexData, tempLen) := joinDigits oBuf hexData 0 0 strLen
    ⟨oBuf, hexData, tempLen⟩
  else ⟨oBuf, hexData, 0⟩

def lowerDigits : List UInt8 :=
  [0x30, 0x31, 0x32, 0x33, 0x34, 0x35, 0x36, 0x37, 0x38, 0x39, 0x61, 0x62, 0x63, 0x64, 0x65, 0x66]

def upperDigits : List UInt8 :=
  [0x30, 0x31, 0x32, 0x33, 0x34, 0x35, 0x36, 0x37, 0x38, 0x39, 0x41, 0x42, 0x43, 0x44, 0x45, 0x46]

/-- The character is the digit of value `n` in one of the two cases. -/
def IsDigit (c : UInt8) (n : Nat) : Prop := lowerDigits[n]? = some c ∨ upperDigits[n]? = some c

instance (c : UInt8) (n : Nat) : Decidable (IsDigit c n) := inferInstanceAs (Decidable (_ ∨ _))

/-- Two digits a byte, the higher one first. -/
def Spells : List UInt8 → List UInt8 → Prop
  | [], [] => True
  | c :: d :: s, x :: b => IsDigit c (x.toNat / 16) ∧ IsDigit d (x.toNat % 16) ∧ Spells s b
  | _, _ => False

/-- Spelled bytes are decoded, and every other text is refused with both buffers as they were. -/
def DecodesHex (strData hexData : Nat → UInt8) (strLen : Nat) : Prop :=
  (∀ b, Spells (load strData 0 strLen) b →
    (strToHex strData hexData strLen).ret = b.length ∧
      (strToHex strData hexData strLen).hexData = store hexData 0 b) ∧
  ((¬ ∃ b, Spells (load strData 0 strLen) b) →
    (strToHex strData hexData strLen).ret = 0 ∧
      (strToHex strData hexData strLen).strData = strData ∧
      (strToHex strData hexData strLen).hexData = hexData)

theorem digitValue_of_isDigit {c : UInt8} {n : Nat} (h : IsDigit c n) :
    digitValue c = some (UInt8.ofNat n) := by
  have hlower : ∀ n < 16, lowerDigits[n]?.bind digitValue = some (UInt8.ofNat n) := by decide
  have hupper : ∀ n < 16, upperDigits[n]?.bind digitValue = some (UInt8.ofNat n) := by decide
  rcases h with h | h
  · have hn := hlower n (List.getElem?_eq_some_iff.mp h).1
    rwa [h, Option.bind_some] at hn
  · have hn := hupper n (List.getElem?_eq_some_iff.mp h).1
    rwa [h, Option.bind_some] at hn

/-- A fact about bytes can be checked for one after the other. -/
theorem forall_byte {P : UInt8 → Prop} (h : ∀ n < 256, P (UInt8.ofNat n)) (x : UInt8) : P x := by
  have hx := h x.toNat x.toNat_lt
  rwa [UInt8.ofNat_toNat] at hx

set_option maxRecDepth 8000 in
/-- A digit differs from its value, so replacing it changes the text. -/
theorem of_digitValue {c d : UInt8} (h : digitValue c = some d) :
    IsDigit c d.toNat ∧ d.toNat < 16 ∧ d ≠ c := by
  have hall : ∀ c, (digitValue c).all
      (fun d => decide (IsDigit c d.toNat ∧ d.toNat < 16 ∧ d ≠ c)) = true :=
    forall_byte (by decide)
  have hc := hall c
  rw [h] at hc
  simpa using hc

theorem digitValue_eq_none_iff (c : UInt8) : digitValue c = none ↔ ¬ ∃ n, IsDigit c n := by
  constructor
  · rintro hnone ⟨n, hn⟩
    rw [digitValue_of_isDigit hn] at hnone
    cases hnone
  · intro hno
    cases hc : digitValue c with
    | none => rfl
    | some d => exact absurd ⟨d.toNat, (of_digitValue hc).1⟩ hno

set_option maxRecDepth 8000 in
theorem joined_nibbles (x : UInt8) :
    (UInt8.ofNat (x.toNat / 16) <<< 4) ||| UInt8.ofNat (x.toNat % 16) = x := by
  revert x
  exact forall_byte (by decide)

/-- The digits of the bytes. -/
def nibbles (b : List UInt8) : List UInt8 :=
  b.flatMap fun x => [UInt8.ofNat (x.toNat / 16), UInt8.ofNat (x.toNat % 16)]

theorem length_nibbles (b : List UInt8) : (nibbles b).length = 2 * b.length := by
  induction b with
  | nil => rfl
  | cons x b ih =>
    simp only [nibbles, List.flatMap_cons, List.length_append, List.length_cons, List.length_nil]
      at ih ⊢
    omega

theorem map_digitValue_of_spells {s b : List UInt8} (h : Spells s b) :
    s.map digitValue = (nibbles b).map some := by
  fun_induction Spells s b with
  | case1 => rfl
  | case2 c d s x b ih =>
    obtain ⟨hc, hd, hs⟩ := h
    have hrest := ih hs
    simp only [List.map_cons, digitValue_of_isDigit hc, digitValue_of_isDigit hd, hrest]
    rfl
  | case3 => exact h.elim

/-- Whether a text spells bytes is a matter of its characters and of their number. -/
theorem exists_spells_iff (s : List UInt8) :
    (∃ b, Spells s b) ↔ (∀ c ∈ s, (digitValue c).isSome) ∧ s.length % 2 = 0 := by
  constructor
  · rintro ⟨b, hb⟩
    have hmap := map_digitValue_of_spells hb
    have hlen := congrArg List.length hmap
    rw [List.length_map, List.length_map, length_nibbles] at hlen
    refine ⟨?_, by omega⟩
    intro c hc
    have hmem : digitValue c ∈ (nibbles b).map some := by
      rw [← hmap]
      exact List.mem_map_of_mem hc
    obtain ⟨d, -, hd⟩ := List.mem_map.mp hmem
    rw [← hd]
    rfl
  · rintro ⟨hall, heven⟩
    induction s using List.twoStepInduction with
    | nil => exact ⟨[], trivial⟩
    | singleton c => cases heven
    | cons_cons c d s ih _ =>
      obtain ⟨b, hb⟩ := ih
        (fun x hx => hall x (List.mem_cons_of_mem _ (List.mem_cons_of_mem _ hx)))
        (by simp only [List.length_cons] at heven; omega)
      obtain ⟨u, hu⟩ := Option.isSome_iff_exists.mp (hall c (by simp))
      obtain ⟨v, hv⟩ := Option.isSome_iff_exists.mp (hall d (by simp))
      obtain ⟨hcu, hu16, -⟩ := of_digitValue hu
      obtain ⟨hdv, hv16, -⟩ := of_digitValue hv
      have hx : (UInt8.ofNat (16 * u.toNat + v.toNat)).toNat = 16 * u.toNat + v.toNat := by
        rw [UInt8.toNat_ofNat']
        omega
      refine ⟨UInt8.ofNat (16 * u.toNat + v.toNat) :: b, ?_, ?_, hb⟩
      · rw [hx, show (16 * u.toNat + v.toNat) / 16 = u.toNat by omega]
        exact hcu
      · rw [hx, show (16 * u.toNat + v.toNat) % 16 = v.toNat by omega]
        exact hdv

theorem load_update_before (m : Nat → UInt8) (i n : Nat) (d : UInt8) :
    load (Function.update m i d) (i + 1) n = load m (i + 1) n := by
  apply load_congr
  intro k hk _
  rw [Function.update_of_ne (by omega)]

/-- The values of the digits before the first character that is none. -/
def leadingDigits (s : List UInt8) : List UInt8 :=
  (s.takeWhile fun c => (digitValue c).isSome).filterMap digitValue

theorem leadingDigits_of_map {s ds : List UInt8} (h : s.map digitValue = ds.map some) :
    leadingDigits s = ds := by
  induction s generalizing ds with
  | nil =>
    cases ds with
    | nil => rfl
    | cons d ds => cases h
  | cons c s ih =>
    cases ds with
    | nil => cases h
    | cons d ds =>
      rw [List.map_cons, List.map_cons, List.cons.injEq] at h
      obtain ⟨hd, hrest⟩ := h
      rw [leadingDigits, List.takeWhile_cons_of_pos (by simp [hd]), List.filterMap_cons_some hd,
        ← leadingDigits, ih hrest]

/-- The first loop replaces these digits, whether it comes to its end or not. -/
theorem toDigits_eq_store (m : Nat → UInt8) (i n : Nat) :
    (toDigits m i n).1 = store m i (leadingDigits (load m i n)) := by
  induction n generalizing m i with
  | zero => rfl
  | succ n ih =>
    rw [load_succ, toDigits, leadingDigits]
    cases hd : digitValue (m i) with
    | none =>
      rw [List.takeWhile_cons_of_neg (by simp [hd])]
      rfl
    | some d =>
      simp only
      rw [ih, load_update_before, List.takeWhile_cons_of_pos (by simp [hd]), List.filterMap_cons_some hd, store]
      rfl

theorem toDigits_complete_iff (m : Nat → UInt8) (i n : Nat) :
    (toDigits m i n).2 = true ↔ ∀ c ∈ load m i n, (digitValue c).isSome := by
  induction n generalizing m i with
  | zero => simp [toDigits, load]
  | succ n ih =>
    rw [load_succ, toDigits]
    cases hd : digitValue (m i) with
    | none => simp [hd]
    | some d => simp [hd, ih, load_update_before]

theorem joinDigits_of_nibbles {m : Nat → UInt8} (hexData : Nat → UInt8) {j : Nat} (tempLen : Nat)
    {b : List UInt8} (h : load m j (2 * b.length) = nibbles b) :
    joinDigits m hexData j tempLen (2 * b.length) =
      (store hexData tempLen b, tempLen + b.length) := by
  induction b generalizing hexData j tempLen with
  | nil => rfl
  | cons x b ih =>
    rw [List.length_cons, Nat.mul_succ, load_succ, load_succ, nibbles, List.flatMap_cons] at h
    simp only [List.cons_append, List.nil_append, List.cons.injEq] at h
    obtain ⟨hhigh, hlow, hrest⟩ := h
    have hjoined : joined m j = x := by
      rw [joined, hhigh, hlow, joined_nibbles]
    rw [List.length_cons, Nat.mul_succ, joinDigits, hjoined, ih _ _ hrest, store]
    rw [Nat.add_right_comm, Nat.add_assoc]

theorem strToHex_of_complete {strData : Nat → UInt8} (hexData : Nat → UInt8) {strLen : Nat}
    (h : (toDigits strData 0 strLen).2 = true) :
    strToHex strData hexData strLen =
      ⟨(toDigits strData 0 strLen).1,
        (joinDigits (toDigits strData 0 strLen).1 hexData 0 0 strLen).1,
        (joinDigits (toDigits strData 0 strLen).1 hexData 0 0 strLen).2⟩ := by
  simp [strToHex, h]

theorem strToHex_of_illegal {strData : Nat → UInt8} (hexData : Nat → UInt8) {strLen : Nat}
    (h : (toDigits strData 0 strLen).2 = false) :
    strToHex strData hexData strLen = ⟨(toDigits strData 0 strLen).1, hexData, 0⟩ := by
  simp [strToHex, h]

theorem strToHex_of_spells {strData : Nat → UInt8} (hexData : Nat → UInt8) {strLen : Nat}
    {b : List UInt8} (h : Spells (load strData 0 strLen) b) :
    strToHex strData hexData strLen = ⟨store strData 0 (nibbles b), store hexData 0 b, b.length⟩ := by
  have hmap := map_digitValue_of_spells h
  have hlen := congrArg List.length hmap
  rw [List.length_map, List.length_map, length_load, length_nibbles] at hlen
  have hcomplete := (toDigits_complete_iff strData 0 strLen).mpr
    ((exists_spells_iff _).mp ⟨b, h⟩).1
  have hload := load_store strData 0 (nibbles b)
  rw [length_nibbles] at hload
  have hjoin := joinDigits_of_nibbles hexData 0 hload
  rw [strToHex_of_complete hexData hcomplete, toDigits_eq_store, leadingDigits_of_map hmap, hlen,
    hjoin, Nat.zero_add]

/-- The call decodes as it should on an even number of digits, and where the first character
already is none. -/
theorem decodesHex_iff (strData hexData : Nat → UInt8) (strLen : Nat) :
    DecodesHex strData hexData strLen ↔
      ((∀ c ∈ load strData 0 strLen, (digitValue c).isSome) ∧ strLen % 2 = 0) ∨
        (0 < strLen ∧ digitValue (strData 0) = none) := by
  have hexists := exists_spells_iff (load strData 0 strLen)
  rw [length_load] at hexists
  constructor
  · intro h
    by_contra hcond
    rw [not_or, ← hexists] at hcond
    obtain ⟨hno, hfirst⟩ := hcond
    obtain ⟨hret, hstr, -⟩ := h.2 hno
    obtain ⟨n, rfl⟩ : ∃ n, strLen = n + 1 := by
      cases strLen with
      | zero => exact absurd ⟨[], trivial⟩ hno
      | succ n => exact ⟨n, rfl⟩
    obtain ⟨d, hd⟩ : ∃ d, digitValue (strData 0) = some d := by
      rw [← Option.ne_none_iff_exists']
      exact fun hnone => hfirst ⟨Nat.succ_pos n, hnone⟩
    cases hcomplete : (toDigits strData 0 (n + 1)).2 with
    | true =>
      rw [strToHex_of_complete hexData hcomplete] at hret
      have hlen (m h : Nat → UInt8) (j tempLen k : Nat) :
          (joinDigits m h j tempLen k).2 = tempLen + (k + 1) / 2 := by
        fun_induction joinDigits m h j tempLen k with
        | case1 => rfl
        | case2 => rfl
        | case3 h j tempLen k ih =>
          rw [ih]
          omega
      have hzero := (hlen _ hexData 0 0 (n + 1)).symm.trans hret
      omega
    | false =>
      rw [strToHex_of_illegal hexData hcomplete] at hstr
      have hstr' : (toDigits strData 0 (n + 1)).1 = strData := hstr
      have hfirst' : (toDigits strData 0 (n + 1)).1 0 = d := by
        rw [toDigits_eq_store, load_succ, leadingDigits, List.takeWhile_cons_of_pos (by simp [hd]),
          List.filterMap_cons_some hd]
        rw [store, store_outside _ _ _ (.inl (Nat.lt_succ_self 0)), Function.update_self]
      rw [hstr'] at hfirst'
      exact (of_digitValue hd).2.2 hfirst'.symm
  · rintro (h | ⟨hpos, hfirst⟩)
    · refine ⟨?_, fun hno => absurd (hexists.mpr h) hno⟩
      intro b hb
      rw [strToHex_of_spells hexData hb]
      exact ⟨rfl, rfl⟩
    · obtain ⟨n, rfl⟩ : ∃ n, strLen = n + 1 := ⟨strLen - 1, by omega⟩
      have hstop : toDigits strData 0 (n + 1) = (strData, false) := by
        rw [toDigits, hfirst]
      refine ⟨?_, fun _ => ?_⟩
      · intro b hb
        have hall := (hexists.mp ⟨b, hb⟩).1 (strData 0) (by rw [load_succ]; exact List.mem_cons_self ..)
        rw [hfirst] at hall
        cases hall
      · rw [strToHex_of_illegal hexData (by rw [hstop]), hstop]
        exact ⟨rfl, rfl, rfl⟩

/-- In the text `1g` the digit is overwritten before the letter is refused. -/
theorem str_to_hex_overwrites : ¬ DecodesHex (store (fun _ => 0) 0 [0x31, 0x67]) (fun _ => 0) 2 := by
  intro h
  have hno : ¬ ∃ b, Spells (load (store (fun _ => 0) 0 [0x31, 0x67]) 0 2) b := by
    rw [exists_spells_iff]
    decide
  have hstr := congrFun (h.2 hno).2.1 0
  revert hstr
  decide

/-- Spelled bytes are decoded. A text with a character that is no digit is refused with the
output as it was and only the digits before that character replaced. -/
theorem decodes_or_refuses (strData hexData : Nat → UInt8) (strLen : Nat) :
    (∀ b, Spells (load strData 0 strLen) b →
      (strToHex strData hexData strLen).ret = b.length ∧
        (strToHex strData hexData strLen).hexData = store hexData 0 b) ∧
    ((∃ c ∈ load strData 0 strLen, ¬ ∃ n, IsDigit c n) →
      (strToHex strData hexData strLen).ret = 0 ∧
        (strToHex strData hexData strLen).hexData = hexData ∧
        (strToHex strData hexData strLen).strData =
          store strData 0 (leadingDigits (load strData 0 strLen))) := by
  constructor
  · intro b hb
    rw [strToHex_of_spells hexData hb]
    exact ⟨rfl, rfl⟩
  · rintro ⟨c, hc, hno⟩
    rw [← digitValue_eq_none_iff] at hno
    have hillegal : (toDigits strData 0 strLen).2 = false := by
      rw [Bool.eq_false_iff, ne_eq, toDigits_complete_iff]
      intro hall
      have hsome := hall c hc
      rw [hno] at hsome
      cases hsome
    rw [strToHex_of_illegal hexData hillegal]
    exact ⟨rfl, rfl, toDigits_eq_store strData 0 strLen⟩

/-- The texts `1a` and `1g`. -/
theorem decodes_or_refuses_two_characters :
    (strToHex (store (fun _ => 0) 0 [0x31, 0x61]) (fun _ => 0) 2).ret = 1 ∧
      (strToHex (store (fun _ => 0) 0 [0x31, 0x67]) (fun _ => 0) 2).ret = 0 := by
  have hspells : Spells (load (store (fun _ => 0) 0 [0x31, 0x61]) 0 2) [0x1a] :=
    ⟨.inl rfl, .inl rfl, trivial⟩
  have hillegal : ∃ c ∈ load (store (fun _ => 0) 0 [0x31, 0x67]) 0 2, ¬ ∃ n, IsDigit c n :=
    ⟨0x67, by decide, by rw [← digitValue_eq_none_iff]; rfl⟩
  exact ⟨((decodes_or_refuses _ _ 2).1 _ hspells).1, ((decodes_or_refuses _ _ 2).2 hillegal).1⟩

end BackupSoftware.RentRecord

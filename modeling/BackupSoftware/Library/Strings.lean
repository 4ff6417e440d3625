import Mathlib.Data.List.Basic
import Mathlib.Data.List.TakeDrop
import Mathlib.Data.List.TakeWhile
import Mathlib.Tactic.Common

/-!
# Strings that end at a NUL byte

A string in memory ends before its first NUL. A list of bytes stands for the
string it holds; past its end it reads as NUL.
-/

namespace BackupSoftware.Library.Strings

variable {n : Nat}

/-- The string that a buffer holds. -/
def text (v : Vector UInt8 n) : List UInt8 := v.toList.takeWhile fun b => b ≠ 0

theorem ne_zero_of_mem_text {v : Vector UInt8 n} {b : UInt8} (h : b ∈ text v) : b ≠ 0 := by
  simpa using List.mem_takeWhile_imp h

/-- Copies the string with its NUL; `none` if that would leave the buffer. The bytes behind the
NUL stay. -/
def strcpy (dst : Vector UInt8 n) (s : List UInt8) : Option (Vector UInt8 n) :=
  if s.length < n then
    some (Vector.ofFn fun i => if h : i.val < s.length then s.get ⟨i.val, h⟩ else
      if i.val = s.length then 0 else dst.get i)
  else none

theorem strcpy_eq_of_fits (dst : Vector UInt8 n) {s : List UInt8} (h : s.length < n) :
    ∃ v, strcpy dst s = some v ∧ (∀ i (hi : i < s.length), v[i] = s[i]) ∧
      v[s.length] = 0 := by
  refine ⟨_, if_pos h, ?_, ?_⟩
  · intro i hi
    simp [hi]
  · simp

/-- The buffer then holds the string. -/
theorem text_strcpy (dst : Vector UInt8 n) {s : List UInt8} (h : s.length < n)
    (hs : ∀ b ∈ s, b ≠ 0) : ∃ v, strcpy dst s = some v ∧ text v = s := by
  obtain ⟨v, hv, hcopied, hend⟩ := strcpy_eq_of_fits dst h
  refine ⟨v, hv, ?_⟩
  have hsplit : v.toList = s ++ 0 :: v.toList.drop (s.length + 1) := by
    have hdrop : v.toList.drop s.length = 0 :: v.toList.drop (s.length + 1) := by
      rw [List.drop_eq_getElem_cons (by simpa using h)]
      simp [hend]
    rw [← hdrop]
    have htake : v.toList.take s.length = s := by
      apply List.ext_getElem (by simp; omega)
      intro i hi hi'
      simp [hcopied i hi']
    rw [← htake, List.length_take, Vector.length_toList, Nat.min_eq_left (by omega),
      List.take_append_drop]
  rw [text, hsplit, List.takeWhile_append_of_pos (by simpa using hs),
    List.takeWhile_cons_of_neg (by simp), List.append_nil]

theorem text_of_strcpy {dst v : Vector UInt8 n} {s : List UInt8} (h : strcpy dst s = some v)
    (hs : ∀ b ∈ s, b ≠ 0) : text v = s := by
  by_cases hfits : s.length < n
  · obtain ⟨v', hv', htext⟩ := text_strcpy dst hfits hs
    rw [h] at hv'
    cases hv'
    exact htext
  · rw [strcpy, if_neg hfits] at h
    cases h

/-- Compares at most `n` bytes and stops behind a common NUL. -/
def strncmp (s t : List UInt8) : Nat → Int
  | 0 => 0
  | n + 1 =>
      if s.headD 0 ≠ t.headD 0 then (s.headD 0).toNat - (t.headD 0).toNat
      else if s.headD 0 = 0 then 0
      else strncmp s.tail t.tail n

/-- A comparison against `n` bytes without a NUL is decided by the first `n` bytes. -/
theorem strncmp_eq_zero_iff {s t : List UInt8} (hn : n ≤ s.length)
    (hs : ∀ b ∈ s.take n, b ≠ 0) : strncmp s t n = 0 ↔ s.take n = t.take n := by
  induction n generalizing s t with
  | zero => simp [strncmp]
  | succ n ih =>
    cases s with
    | nil => simp at hn
    | cons a s =>
      rw [List.take_succ_cons, List.forall_mem_cons] at hs
      cases t with
      | nil =>
        have hz : a.toNat ≠ 0 := fun h => hs.1 (UInt8.toNat_inj.mp h)
        simp [strncmp, hs.1, hz]
      | cons b t =>
        rw [List.take_succ_cons, List.take_succ_cons, List.cons.injEq]
        by_cases hab : a = b
        · subst hab
          rw [strncmp, if_neg (by simp), if_neg (by simpa using hs.1)]
          simpa using ih (by simpa using hn) hs.2
        · have hne : (a.toNat : Int) - b.toNat ≠ 0 := by
            intro h
            exact hab (UInt8.toNat_inj.mp (by omega))
          rw [strncmp, if_pos (by simpa using hab)]
          simp [hab, hne]

variable {d : UInt8 → Bool} {tok rest : List UInt8}

/-- One call of `strtok`: the next token and what stays behind the delimiter that ends it. -/
def strtok (d : UInt8 → Bool) (s : List UInt8) : Option (List UInt8 × List UInt8) :=
  match s.dropWhile d with
  | [] => none
  | c :: s => some ((c :: s).takeWhile fun b => !d b, ((c :: s).dropWhile fun b => !d b).drop 1)

theorem strtok_nil : strtok d [] = none := rfl

theorem strtok_of_delimiter {c : UInt8} (hc : d c = true) (s : List UInt8) :
    strtok d (c :: s) = strtok d s := by
  rw [strtok, List.dropWhile_cons_of_pos hc, strtok]

/-- A token that a delimiter or the end of the string ends. -/
theorem strtok_token (hne : tok ≠ []) (htok : ∀ b ∈ tok, d b = false)
    (hrest : ∀ c s, rest = c :: s → d c = true) :
    strtok d (tok ++ rest) = some (tok, rest.drop 1) := by
  cases tok with
  | nil => exact absurd rfl hne
  | cons c tok =>
    have hall : ∀ b ∈ c :: tok, (!d b) = true := by
      intro b hb
      rw [htok b hb]
      rfl
    have hdrop : ((c :: tok) ++ rest).dropWhile d = c :: (tok ++ rest) := by
      rw [List.cons_append, List.dropWhile_cons_of_neg]
      rw [htok c List.mem_cons_self]
      exact Bool.false_ne_true
    rw [strtok, hdrop]
    simp only
    rw [← List.cons_append, List.takeWhile_append_of_pos hall, List.dropWhile_append_of_pos hall]
    cases rest with
    | nil => simp
    | cons b s =>
      simp [hrest b s rfl]

theorem length_strtok {s : List UInt8} (h : strtok d s = some (tok, rest)) :
    rest.length < s.length := by
  unfold strtok at h
  split at h
  · cases h
  · next c s' hs =>
    cases h
    have hle := (List.dropWhile_suffix (l := s) d).length_le
    have hle' := (List.dropWhile_suffix (l := c :: s') fun b => !d b).length_le
    rw [hs] at hle
    rw [List.length_drop]
    simp only [List.length_cons] at hle hle' ⊢
    omega

/-- A token is a nonempty part of the string without delimiters. -/
theorem strtok_spec {s : List UInt8} (h : strtok d s = some (tok, rest)) :
    tok ≠ [] ∧ (∀ b ∈ tok, d b = false) ∧ (∀ b ∈ tok, b ∈ s) ∧ ∀ b ∈ rest, b ∈ s := by
  unfold strtok at h
  split at h
  · cases h
  · next c s' hs =>
    cases h
    have hc : d c = false := by
      have hhead := List.head_dropWhile_not d (l := s) (by rw [hs]; simp)
      simpa [hs] using hhead
    have hsub : ∀ b ∈ c :: s', b ∈ s := by
      rw [← hs]
      exact (List.dropWhile_suffix d).subset
    refine ⟨by simp [hc], ?_, ?_, ?_⟩
    · intro b hb
      simpa using List.mem_takeWhile_imp hb
    · intro b hb
      exact hsub b ((List.takeWhile_prefix _).subset hb)
    · intro b hb
      exact hsub b ((List.dropWhile_suffix _).subset (List.mem_of_mem_drop hb))

def isSpace (b : UInt8) : Bool := b = 32 || (9 ≤ b && b ≤ 13)

def isDigit (b : UInt8) : Bool := 48 ≤ b && b ≤ 57

/-- The number that the digits at the start of the string spell. -/
def decimal (s : List UInt8) : Nat :=
  (s.takeWhile isDigit).foldl (fun n b => 10 * n + (b.toNat - 48)) 0

/-- White space, a sign, and digits. -/
def atoi (s : List UInt8) : Int :=
  match s.dropWhile isSpace with
  | [] => 0
  | c :: t => if c = 45 then -(decimal t) else if c = 43 then decimal t else decimal (c :: t)

/-- The digit of a number below ten. -/
def digit (n : Nat) : UInt8 := UInt8.ofNat (48 + n)

theorem toNat_digit {n : Nat} (hn : n < 10) : (digit n).toNat = 48 + n :=
  Nat.mod_eq_of_lt (by omega)

theorem isDigit_digit {n : Nat} (hn : n < 10) : isDigit (digit n) = true := by
  simp only [isDigit, UInt8.le_iff_toNat_le, toNat_digit hn, Bool.and_eq_true, decide_eq_true_eq]
  exact ⟨Nat.le_add_right 48 n, by simp; omega⟩

/-- A digit is neither white space nor a sign. -/
theorem digit_ne {n : Nat} (hn : n < 10) :
    isSpace (digit n) = false ∧ digit n ≠ 45 ∧ digit n ≠ 43 := by
  match n with
  | 0 | 1 | 2 | 3 | 4 | 5 | 6 | 7 | 8 | 9 => decide

theorem decimal_digits {ns : List Nat} {rest : List UInt8} (hlt : ∀ n ∈ ns, n < 10)
    (hrest : ∀ c s, rest = c :: s → isDigit c = false) :
    decimal (ns.map digit ++ rest) = ns.foldl (fun v n => 10 * v + n) 0 := by
  have hdigits : ∀ b ∈ ns.map digit, isDigit b = true := by
    intro b hb
    obtain ⟨n, hn, rfl⟩ := List.mem_map.mp hb
    exact isDigit_digit (hlt n hn)
  have hend : rest.takeWhile isDigit = [] := by
    cases rest with
    | nil => rfl
    | cons c s => rw [List.takeWhile_cons_of_neg (by rw [hrest c s rfl]; exact Bool.false_ne_true)]
  rw [decimal, List.takeWhile_append_of_pos hdigits, hend, List.append_nil, List.foldl_map]
  apply List.foldl_ext
  intro v n hn
  rw [toNat_digit (hlt n hn), Nat.add_sub_cancel_left]

/-- Digits that the end of the string or another character ends. -/
theorem atoi_digits {ns : List Nat} {rest : List UInt8} (hne : ns ≠ []) (hlt : ∀ n ∈ ns, n < 10)
    (hrest : ∀ c s, rest = c :: s → isDigit c = false) :
    atoi (ns.map digit ++ rest) = (ns.foldl (fun v n => 10 * v + n) 0 : Nat) := by
  rw [← decimal_digits hlt hrest]
  cases ns with
  | nil => exact absurd rfl hne
  | cons n ns =>
    obtain ⟨hspace, hminus, hplus⟩ := digit_ne (hlt n List.mem_cons_self)
    rw [List.map_cons, List.cons_append, atoi, List.dropWhile_cons_of_neg (by rw [hspace]; simp)]
    simp only [if_neg hminus, if_neg hplus]

end BackupSoftware.Library.Strings

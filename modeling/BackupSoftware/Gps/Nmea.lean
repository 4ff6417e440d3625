import BackupSoftware.Library.Strings
import Mathlib.Logic.Function.Basic

/-!
# Checksums of received NMEA sentences

The splitter cuts the receiver buffer at line feeds, so a line keeps its carriage
return. The checksum step counts its offsets from the end of the line as if the two
hexadecimal digits stood there: it compares the carriage return with the second
digit, and no sentence passes.
-/

namespace BackupSoftware.Gps

open BackupSoftware.Library.Strings

/-- The `GPS_*` return codes. -/
def gpsEok : Int := 0
def gpsError : Int := -1

def lf : UInt8 := 10
def cr : UInt8 := 13
def dollar : UInt8 := 36
def star : UInt8 := 42

/-- `front` is the byte in front of `crcbuf`, which is read if `crcbuf` has one character; `none`
stands for the read two bytes in front of it. -/
def gpsNmeaCrc (front : UInt8) (crcbuf : List UInt8) (size : Nat) : Option Int :=
  let ck := (crcbuf.take size).foldl (· ^^^ ·) 0
  let a := ck.toNat / 16 + 48
  let b := if ck.toNat % 16 + 48 > 57 ∧ ck.toNat % 16 + 48 < 65 then ck.toNat % 16 + 48 + 7
    else ck.toNat % 16 + 48
  if crcbuf.length < 1 then none
  else if ((front :: crcbuf).getD (crcbuf.length - 1) 0).toNat ≠ a ∨
      (crcbuf.getD (crcbuf.length - 1) 0).toNat ≠ b then some gpsError
  else some gpsEok

/-- The checksum step of `gps_get_gga`, `gps_get_tm` and `gps_get_zda`. A line of fewer than four
characters has a negative size, with which the loop does not run; one of fewer than two is read
outside its buffer. -/
def checksumStep (rxbuf : List UInt8) : Option Int :=
  match rxbuf with
  | [] => none
  | front :: crcbuf => gpsNmeaCrc front crcbuf (rxbuf.length - 4)

/-- The loop of `gps_split_info`; `none` if a token does not fit its line. -/
def splitLoop (rest : List UInt8) (line : Nat → Vector UInt8 512) (times : Nat) :
    Option ((Nat → Vector UInt8 512) × Nat) :=
  match _h : strtok (· = lf) rest with
  | none => some (line, times)
  | some (p, rest') =>
      match strcpy (line times) p with
      | none => none
      | some v => splitLoop rest' (Function.update line times v) (times + 1)
termination_by rest.length
decreasing_by exact length_strtok _h

/-- The check of `rxbuf` against NULL and the return code are left out. -/
def gpsSplitInfo (rxbuf : List UInt8) (line : Nat → Vector UInt8 512) (times : Nat) :
    Option ((Nat → Vector UInt8 512) × Nat) :=
  splitLoop rxbuf line times

/-- The body of a sentence. Its buffer is a string, so no character is NUL. -/
structure Sentence where
  body : List UInt8
  nonempty : body ≠ []
  chars : ∀ b ∈ body, b.toNat < 128 ∧ b ≠ 0 ∧ b ≠ cr ∧ b ≠ lf ∧ b ≠ star
  short : body.length + 5 < 512

def hexDigit (n : Nat) : UInt8 := if n < 10 then UInt8.ofNat (n + 48) else UInt8.ofNat (n + 55)

def Sentence.sum (s : Sentence) : UInt8 := s.body.foldl (· ^^^ ·) 0

/-- The sentence without its line end. -/
def Sentence.content (s : Sentence) : List UInt8 :=
  dollar :: s.body ++ [star, hexDigit (s.sum.toNat / 16), hexDigit (s.sum.toNat % 16)]

def buffer (sentences : List Sentence) : List UInt8 :=
  sentences.flatMap fun s => s.content ++ [cr, lf]

theorem toNat_hexDigit {n : Nat} (hn : n < 16) :
    (hexDigit n).toNat = if n < 10 then n + 48 else n + 55 := by
  unfold hexDigit
  split
  · exact Nat.mod_eq_of_lt (by omega)
  · exact Nat.mod_eq_of_lt (by omega)

theorem le_toNat_hexDigit {n : Nat} (hn : n < 16) : 48 ≤ (hexDigit n).toNat := by
  rw [toNat_hexDigit hn]
  split <;> omega

theorem hexDigit_ne {n : Nat} (hn : n < 16) {b : UInt8} (hb : b.toNat < 48) : hexDigit n ≠ b := by
  intro h
  have hle := le_toNat_hexDigit hn
  rw [h] at hle
  omega

theorem content_char (s : Sentence) : ∀ b ∈ s.content ++ [cr], b ≠ 0 ∧ b ≠ lf := by
  have hsum := UInt8.toNat_lt s.sum
  have hdigit : ∀ n < 16, hexDigit n ≠ 0 ∧ hexDigit n ≠ lf := fun n hn =>
    ⟨hexDigit_ne hn (by decide), hexDigit_ne hn (by decide)⟩
  intro b hb
  simp only [Sentence.content, List.cons_append, List.append_assoc, List.mem_cons,
    List.mem_append, List.not_mem_nil, or_false, false_or] at hb
  rcases hb with rfl | hb | rfl | rfl | rfl | rfl
  · decide
  · exact ⟨(s.chars b hb).2.1, (s.chars b hb).2.2.2.1⟩
  · decide
  · exact hdigit _ (by omega)
  · exact hdigit _ (by omega)
  · decide

theorem length_content (s : Sentence) : s.content.length = s.body.length + 4 := by
  simp [Sentence.content]

theorem buffer_cons (s : Sentence) (sentences : List Sentence) :
    buffer (s :: sentences) = (s.content ++ [cr]) ++ lf :: buffer sentences := by
  simp [buffer]

/-- The lines are the sentences with their carriage returns. -/
theorem splitLoop_buffer (sentences : List Sentence) (line : Nat → Vector UInt8 512)
    (times : Nat) :
    ∃ line', splitLoop (buffer sentences) line times = some (line', times + sentences.length) ∧
      (∀ j < times, line' j = line j) ∧
      ∀ i (hi : i < sentences.length), text (line' (times + i)) = sentences[i].content ++ [cr] := by
  induction sentences generalizing line times with
  | nil =>
    refine ⟨line, ?_, fun _ _ => rfl, fun i hi => absurd hi (Nat.not_lt_zero i)⟩
    rw [splitLoop, show buffer [] = [] from rfl, strtok_nil]
    rfl
  | cons s sentences ih =>
    have htok : strtok (· = lf) (buffer (s :: sentences)) =
        some (s.content ++ [cr], buffer sentences) := by
      rw [buffer_cons, strtok_token (by simp)]
      · rfl
      · intro b hb
        simpa using (content_char s b hb).2
      · intro c t h
        cases h
        rfl
    obtain ⟨v, hv, htext⟩ := text_strcpy (line times) (s := s.content ++ [cr])
      (by rw [List.length_append, length_content]; exact s.short)
      (fun b hb => (content_char s b hb).1)
    obtain ⟨line', hloop, hbefore, hlines⟩ := ih (Function.update line times v) (times + 1)
    refine ⟨line', ?_, ?_, ?_⟩
    · unfold splitLoop
      split
      · next h => rw [htok] at h; cases h
      · next p rest h =>
        rw [htok] at h
        cases h
        rw [hv]
        simp only [hloop, List.length_cons]
        rw [Nat.add_right_comm, Nat.add_assoc]
    · intro j hj
      rw [hbefore j (by omega), Function.update_of_ne (by omega)]
    · intro i hi
      cases i with
      | zero => rw [Nat.add_zero, hbefore times (by omega), Function.update_self, htext]; rfl
      | succ i =>
        have hrest := hlines i (by simpa using hi)
        rw [Nat.add_assoc, Nat.add_comm 1 i] at hrest
        exact hrest

/-- The two characters at the end of the string decide. Of the sum, only the low digit is corrected
into the letters. -/
theorem gpsNmeaCrc_eok_iff (front : UInt8) (crcbuf : List UInt8) (size : Nat) :
    gpsNmeaCrc front crcbuf size = some gpsEok ↔ 1 ≤ crcbuf.length ∧
      ((front :: crcbuf).getD (crcbuf.length - 1) 0).toNat =
        ((crcbuf.take size).foldl (· ^^^ ·) 0).toNat / 16 + 48 ∧
      crcbuf.getD (crcbuf.length - 1) 0 =
        hexDigit (((crcbuf.take size).foldl (· ^^^ ·) 0).toNat % 16) := by
  unfold gpsNmeaCrc
  generalize (crcbuf.take size).foldl (· ^^^ ·) 0 = ck
  have hlow : (if ck.toNat % 16 + 48 > 57 ∧ ck.toNat % 16 + 48 < 65 then ck.toNat % 16 + 48 + 7
      else ck.toNat % 16 + 48) = (hexDigit (ck.toNat % 16)).toNat := by
    rw [toNat_hexDigit (by omega)]
    split <;> split <;> omega
  simp only [hlow, ← UInt8.toNat_inj]
  by_cases hlen : crcbuf.length < 1
  · rw [if_pos hlen]
    exact iff_of_false (by simp) (by omega)
  rw [if_neg hlen]
  by_cases hdigits : ((front :: crcbuf).getD (crcbuf.length - 1) 0).toNat ≠ ck.toNat / 16 + 48 ∨
      (crcbuf.getD (crcbuf.length - 1) 0).toNat ≠ (hexDigit (ck.toNat % 16)).toNat
  · rw [if_pos hdigits]
    refine iff_of_false (by decide) ?_
    intro h
    rcases hdigits with h' | h'
    · exact h' h.2.1
    · exact h' h.2.2
  · rw [if_neg hdigits]
    rw [not_or, not_not, not_not] at hdigits
    exact iff_of_true rfl ⟨by omega, hdigits⟩

/-- A line that ends in a carriage return fails: that character is no hexadecimal digit. -/
theorem checksumStep_cr {l : List UInt8} (hl : 1 ≤ l.length) :
    checksumStep (l ++ [cr]) = some gpsError := by
  obtain ⟨front, l, rfl⟩ := List.exists_cons_of_length_pos hl
  have hlast : (l ++ [cr]).getD ((l ++ [cr]).length - 1) 0 = cr := by
    rw [List.length_append, List.length_singleton, Nat.add_sub_cancel,
      List.getD_eq_getElem?_getD, List.getElem?_concat_length]
    rfl
  unfold checksumStep gpsNmeaCrc
  simp only [List.cons_append, hlast]
  rw [if_neg (by simp), if_pos]
  right
  rw [show cr.toNat = 13 from rfl]
  split <;> omega

theorem xor_lt {l : List UInt8} {ck : UInt8} (hck : ck.toNat < 128)
    (hl : ∀ b ∈ l, b.toNat < 128) : (l.foldl (· ^^^ ·) ck).toNat < 128 := by
  induction l generalizing ck with
  | nil => exact hck
  | cons b l ih =>
    rw [List.forall_mem_cons] at hl
    rw [List.foldl_cons]
    apply ih _ hl.2
    rw [UInt8.toNat_xor]
    exact Nat.xor_lt_two_pow (n := 7) hck hl.1

/-- The offsets of the checksum step are those of a line without its line end. -/
theorem checksumStep_eok_iff {body : List UInt8} (hbody : ∀ b ∈ body, b.toNat < 128)
    (c₁ c₂ : UInt8) :
    checksumStep (dollar :: body ++ [star, c₁, c₂]) = some gpsEok ↔
      c₁ = hexDigit ((body.foldl (· ^^^ ·) 0).toNat / 16) ∧
        c₂ = hexDigit ((body.foldl (· ^^^ ·) 0).toNat % 16) := by
  have hsum : (body.foldl (· ^^^ ·) 0).toNat < 128 := xor_lt (by decide) hbody
  have hlen : (body ++ [star, c₁, c₂]).length = body.length + 3 := by simp
  have htake : (body ++ [star, c₁, c₂]).take
      ((dollar :: body ++ [star, c₁, c₂]).length - 4) = body := by
    rw [List.cons_append, List.length_cons, hlen, show body.length + 3 + 1 - 4 = body.length by omega,
      List.take_left]
  have hhigh : (dollar :: (body ++ [star, c₁, c₂])).getD (body.length + 3 - 1) 0 = c₁ := by
    rw [show body.length + 3 - 1 = body.length + 1 + 1 by omega, List.getD_cons_succ,
      List.getD_eq_getElem?_getD, List.getElem?_append_right (by omega)]
    simp
  have hlow : (body ++ [star, c₁, c₂]).getD (body.length + 3 - 1) 0 = c₂ := by
    rw [List.getD_eq_getElem?_getD, List.getElem?_append_right (by omega)]
    simp
  have hstep : checksumStep (dollar :: body ++ [star, c₁, c₂]) =
      gpsNmeaCrc dollar (body ++ [star, c₁, c₂])
        ((dollar :: body ++ [star, c₁, c₂]).length - 4) := rfl
  rw [hstep, gpsNmeaCrc_eok_iff, htake, hlen, hhigh, hlow, ← UInt8.toNat_inj (a := c₁),
    toNat_hexDigit (by omega), if_pos (by omega)]
  exact and_iff_right (by omega)

theorem checksumStep_content (s : Sentence) : checksumStep s.content = some gpsEok :=
  (checksumStep_eok_iff (fun b hb => (s.chars b hb).1) _ _).mpr ⟨rfl, rfl⟩

/-- For the characters of a line `$` body `*` c1 c2 the step accepts exactly the hexadecimal
spelling of the sum. If one of the two is NUL, the string ends there and is not accepted. -/
theorem checksum_accepts_iff (body : List UInt8) (hbody : ∀ b ∈ body, b.toNat < 128 ∧ b ≠ 0)
    (c₁ c₂ : UInt8) :
    checksumStep ((dollar :: body ++ [star, c₁, c₂]).takeWhile fun b => b ≠ 0) = some gpsEok ↔
      c₁ = hexDigit ((body.foldl (· ^^^ ·) 0).toNat / 16) ∧
        c₂ = hexDigit ((body.foldl (· ^^^ ·) 0).toNat % 16) := by
  have hsum : (body.foldl (· ^^^ ·) 0).toNat < 128 :=
    xor_lt (by decide) fun b hb => (hbody b hb).1
  have hfront : ∀ b ∈ dollar :: body ++ [star], decide (b ≠ 0) = true := by
    intro b hb
    rw [List.cons_append, List.mem_cons, List.mem_append, List.mem_singleton] at hb
    rcases hb with rfl | hb | rfl
    · rfl
    · exact decide_eq_true (hbody b hb).2
    · rfl
  have hline : dollar :: body ++ [star, c₁, c₂] = (dollar :: body ++ [star]) ++ [c₁, c₂] := by simp
  rw [hline, List.takeWhile_append_of_pos hfront]
  by_cases h1 : c₁ = 0
  · have hrest : [c₁, c₂].takeWhile (fun b => decide (b ≠ 0)) = [] := by simp [h1]
    rw [hrest, List.append_nil]
    refine iff_of_false ?_ fun h => hexDigit_ne (by omega) (by decide) (h.1.symm.trans h1)
    intro h
    have hlast := ((gpsNmeaCrc_eok_iff dollar (body ++ [star]) _).mp h).2.2
    rw [List.length_append, List.length_singleton, Nat.add_sub_cancel, List.getD_eq_getElem?_getD,
      List.getElem?_concat_length] at hlast
    exact hexDigit_ne (Nat.mod_lt _ (by decide)) (by decide) hlast.symm
  by_cases h2 : c₂ = 0
  · have hrest : [c₁, c₂].takeWhile (fun b => decide (b ≠ 0)) = [c₁] := by simp [h1, h2]
    rw [hrest]
    refine iff_of_false ?_ fun h => hexDigit_ne (by omega) (by decide) (h.2.symm.trans h2)
    intro h
    rw [List.append_assoc, List.cons_append] at h
    have hhigh := ((gpsNmeaCrc_eok_iff dollar (body ++ [star, c₁]) _).mp h).2.1
    have hstar : (dollar :: (body ++ [star, c₁])).getD ((body ++ [star, c₁]).length - 1) 0 =
        star := by
      rw [List.length_append, List.length_cons, List.length_singleton,
        show body.length + (1 + 1) - 1 = body.length + 1 by omega, List.getD_cons_succ,
        List.getD_eq_getElem?_getD, List.getElem?_append_right (Nat.le_refl _), Nat.sub_self]
      rfl
    rw [hstar, show star.toNat = 42 from rfl] at hhigh
    omega
  have hrest : [c₁, c₂].takeWhile (fun b => decide (b ≠ 0)) = [c₁, c₂] := by simp [h1, h2]
  rw [hrest, ← hline]
  exact checksumStep_eok_iff (fun b hb => (hbody b hb).1) c₁ c₂

/-- The line `$GPTXT*4F`. -/
theorem checksum_accepts_text :
    checksumStep ((dollar :: [71, 80, 84, 88, 84] ++ [star, 52, 70]).takeWhile fun b => b ≠ 0) =
      some gpsEok :=
  (checksum_accepts_iff [71, 80, 84, 88, 84] (by decide +kernel) 52 70).mpr (by decide)

/-- All lines cut from the buffer are stored and pass the checksum step. -/
def AllAccepted (sentences : List Sentence) (line : Nat → Vector UInt8 512) (times : Nat) : Prop :=
  ∃ line' times', gpsSplitInfo (buffer sentences) line times = some (line', times') ∧
    times' = times + sentences.length ∧
    ∀ i, times ≤ i → i < times' → checksumStep (text (line' i)) = some gpsEok

/-- Every sentence is cut out of the buffer, stored and rejected. -/
theorem lines_rejected (sentences : List Sentence) (line : Nat → Vector UInt8 512) (times : Nat) :
    ∃ line', gpsSplitInfo (buffer sentences) line times =
        some (line', times + sentences.length) ∧
      ∀ i, times ≤ i → i < times + sentences.length →
        checksumStep (text (line' i)) = some gpsError := by
  obtain ⟨line', hloop, -, hlines⟩ := splitLoop_buffer sentences line times
  refine ⟨line', hloop, ?_⟩
  intro i hle hlt
  have hline := hlines (i - times) (by omega)
  rw [Nat.add_sub_cancel' hle] at hline
  rw [hline]
  exact checksumStep_cr (by rw [length_content]; omega)

theorem not_allAccepted_cons (s : Sentence) (sentences : List Sentence)
    (line : Nat → Vector UInt8 512) (times : Nat) :
    ¬ AllAccepted (s :: sentences) line times := by
  intro h
  obtain ⟨line₁, times₁, hsplit, htimes, hall⟩ := h
  obtain ⟨line', hloop, hrejected⟩ := lines_rejected (s :: sentences) line times
  rw [hloop] at hsplit
  cases hsplit
  have hok := hall times (Nat.le_refl _) (by simp)
  rw [hrejected times (Nat.le_refl _) (by simp)] at hok
  cases hok

/-- Only of an empty buffer are all lines accepted. -/
theorem sentences_accepted_iff (sentences : List Sentence) (line : Nat → Vector UInt8 512)
    (times : Nat) : AllAccepted sentences line times ↔ sentences = [] := by
  constructor
  · intro h
    cases sentences with
    | nil => rfl
    | cons s sentences => exact absurd h (not_allAccepted_cons s sentences line times)
  · intro h
    subst h
    obtain ⟨line', hloop, -⟩ := lines_rejected [] line times
    exact ⟨line', times, hloop, rfl, fun i hi hi' => absurd hi' (by omega)⟩

/-- The sentence `$GPTXT*4F`. -/
def textSentence : Sentence :=
  ⟨[71, 80, 84, 88, 84], by simp, by simp [cr, lf, star], by simp⟩

theorem sentence_rejected :
    ¬ AllAccepted [textSentence] (fun _ => Vector.replicate 512 0) 0 :=
  not_allAccepted_cons _ _ _ _

end BackupSoftware.Gps

import Mathlib.Data.List.Count
import BackupSoftware.Library.Strings

/-!
# The port in the answer to `PASV`

`GetPort` looks for the fourth comma of the answer and reads a number behind it, and another
one two characters further. The search has no test for the end of the string, and two
characters are the right distance only behind a number of one digit.
-/

namespace BackupSoftware.Ftp

open BackupSoftware.Library.Strings

def comma : UInt8 := 44

/-- A string without the NUL that ends it. -/
structure CString where
  val : List UInt8
  no_nul : ∀ b ∈ val, b ≠ 0

/-- The cells of a string, to its NUL. -/
def CString.cells (s : CString) : List UInt8 := s.val ++ [0]

/-- Behind the given number of commas; `none` if that runs past the cells. -/
def skipCommas : Nat → List UInt8 → Option (List UInt8)
  | 0, p => some p
  | _ + 1, [] => none
  | n + 1, c :: p => if c = comma then skipCommas n p else skipCommas (n + 1) p

/-- The port; `none` if a byte behind the NUL is read. -/
def getPort (str : CString) : Option Int := do
  let p ← skipCommas 4 str.cells
  let h := atoi p
  let p := p.drop 2
  if p.isEmpty then none
  else
    let l := atoi p
    some (h * 256 + l)

def value (digits : List Nat) : Nat := digits.foldl (fun v n => 10 * v + n) 0

/-- A decimal number from 0 to 255. -/
structure Octet where
  digits : List Nat
  ne_nil : digits ≠ []
  lt_ten : ∀ n ∈ digits, n < 10
  le : value digits ≤ 255

def Octet.text (o : Octet) : List UInt8 := o.digits.map digit

/-- An answer with no comma before its six numbers. -/
structure PasvReply where
  before : List UInt8
  h1 : Octet
  h2 : Octet
  h3 : Octet
  h4 : Octet
  p1 : Octet
  p2 : Octet
  behind : List UInt8
  no_comma : comma ∉ before
  no_nul : ∀ b ∈ before ++ behind, b ≠ 0

/-- The answer up to the comma before the port. -/
def PasvReply.host (r : PasvReply) : List UInt8 :=
  r.before ++ 40 :: r.h1.text ++ comma :: r.h2.text ++ comma :: r.h3.text ++ comma :: r.h4.text

/-- The answer behind that comma. -/
def PasvReply.port (r : PasvReply) : List UInt8 :=
  r.p1.text ++ comma :: r.p2.text ++ 41 :: r.behind

theorem Octet.mem_text {o : Octet} {b : UInt8} (h : b ∈ o.text) : b ≠ comma ∧ b ≠ 0 := by
  obtain ⟨n, hn, rfl⟩ := List.mem_map.mp h
  have hlt := o.lt_ten n hn
  revert hlt
  generalize n = m
  match m with
  | 0 | 1 | 2 | 3 | 4 | 5 | 6 | 7 | 8 | 9 => decide
  | m + 10 => omega

theorem PasvReply.ne_zero (r : PasvReply) : ∀ b ∈ r.host ++ comma :: r.port, b ≠ 0 := by
  intro b hb
  have hnul := r.no_nul b
  have hdigits : ∀ o : Octet, b ∈ o.text → b ≠ 0 := fun o ho => (o.mem_text ho).2
  simp only [PasvReply.host, PasvReply.port, List.mem_append, List.mem_cons] at hb hnul
  rcases hb with ((((hb | rfl | hb) | rfl | hb) | rfl | hb) | rfl | hb) | rfl | (hb | rfl | hb) | rfl | hb
  all_goals first | decide | exact hdigits _ hb | exact hnul (.inl hb) | exact hnul (.inr hb)

def PasvReply.str (r : PasvReply) : CString := ⟨r.host ++ comma :: r.port, r.ne_zero⟩

theorem Octet.count_comma (o : Octet) : o.text.count comma = 0 :=
  List.count_eq_zero.mpr fun h => (o.mem_text h).1 rfl

theorem PasvReply.count_comma (r : PasvReply) : r.host.count comma = 3 := by
  have hbefore := List.count_eq_zero.mpr r.no_comma
  have hopen : (40 == comma) = false := rfl
  simp [PasvReply.host, Octet.count_comma, hbefore, List.count_cons, hopen]

@[simp] theorem skipCommas_zero (cells : List UInt8) : skipCommas 0 cells = some cells := by
  cases cells <;> rfl

theorem skipCommas_eq_some_iff (n : Nat) (cells p : List UInt8) :
    skipCommas (n + 1) cells = some p ↔ ∃ s, cells = s ++ comma :: p ∧ s.count comma = n := by
  induction cells generalizing n with
  | nil => simp [skipCommas]
  | cons c cells ih =>
    rw [skipCommas]
    by_cases hc : c = comma
    · subst hc
      rw [if_pos rfl]
      cases n with
      | zero =>
        rw [skipCommas_zero]
        constructor
        · intro h
          cases h
          exact ⟨[], rfl, rfl⟩
        · rintro ⟨s, hs, hcount⟩
          rcases List.cons_eq_append_iff.mp hs with ⟨rfl, h⟩ | ⟨s', rfl, -⟩
          · cases h
            rfl
          · rw [List.count_cons_self] at hcount
            cases hcount
      | succ n =>
        rw [ih]
        constructor
        · rintro ⟨s, rfl, hcount⟩
          exact ⟨comma :: s, rfl, by rw [List.count_cons_self, hcount]⟩
        · rintro ⟨s, hs, hcount⟩
          rcases List.cons_eq_append_iff.mp hs with ⟨rfl, -⟩ | ⟨s', rfl, hs'⟩
          · cases hcount
          · rw [List.count_cons_self, Nat.add_right_cancel_iff] at hcount
            exact ⟨s', hs', hcount⟩
    · rw [if_neg hc, ih]
      constructor
      · rintro ⟨s, rfl, hcount⟩
        exact ⟨c :: s, rfl, by rw [List.count_cons_of_ne hc, hcount]⟩
      · rintro ⟨s, hs, hcount⟩
        rcases List.cons_eq_append_iff.mp hs with ⟨rfl, h⟩ | ⟨s', rfl, hs'⟩
        · cases h
          exact absurd rfl hc
        · rw [List.count_cons_of_ne hc] at hcount
          exact ⟨s', hs', hcount⟩

/-- Behind the comma stands the rest of the string with its NUL. -/
theorem skipCommas_cells_iff (n : Nat) (str : CString) (p : List UInt8) :
    skipCommas (n + 1) str.cells = some p ↔
      ∃ s behind, str.val = s ++ comma :: behind ∧ s.count comma = n ∧ p = behind ++ [0] := by
  rw [skipCommas_eq_some_iff]
  constructor
  · rintro ⟨s, hs, hcount⟩
    rcases List.eq_nil_or_concat' p with rfl | ⟨behind, b, rfl⟩
    · have hlast := (List.append_inj' hs rfl).2
      cases hlast
    · rw [CString.cells, ← List.cons_append, ← List.append_assoc] at hs
      obtain ⟨hstr, hb⟩ := List.append_inj' hs rfl
      cases hb
      exact ⟨s, behind, hstr, hcount, rfl⟩
  · rintro ⟨s, behind, hstr, hcount, rfl⟩
    refine ⟨s, ?_, hcount⟩
    rw [CString.cells, hstr, List.append_assoc, List.cons_append]

theorem isSome_getPort_iff (str : CString) :
    (getPort str).isSome ↔
      ∃ s behind, str.val = s ++ comma :: behind ∧ s.count comma = 3 ∧ 2 ≤ behind.length := by
  unfold getPort
  cases hp : skipCommas 4 str.cells with
  | none =>
    simp only [Option.bind_eq_bind, Option.bind_none, Option.isSome_none, Bool.false_eq_true,
      false_iff]
    rintro ⟨s, behind, hstr, hcount, -⟩
    have hsome := (skipCommas_cells_iff 3 str (behind ++ [0])).mpr ⟨s, behind, hstr, hcount, rfl⟩
    rw [hp] at hsome
    cases hsome
  | some p =>
    simp only [Option.bind_eq_bind, Option.bind_some]
    have hends := (skipCommas_cells_iff 3 str p).mp hp
    constructor
    · intro h
      obtain ⟨s, behind, hstr, hcount, rfl⟩ := hends
      refine ⟨s, behind, hstr, hcount, ?_⟩
      split at h
      · cases h
      · next hne =>
        simp only [List.isEmpty_iff, List.drop_eq_nil_iff, List.length_append,
          List.length_singleton] at hne
        omega
    · rintro ⟨s, behind, hstr, hcount, hlen⟩
      have hsome := (skipCommas_cells_iff 3 str (behind ++ [0])).mpr ⟨s, behind, hstr, hcount, rfl⟩
      rw [hp] at hsome
      cases hsome
      rw [if_neg]
      · rfl
      · simp only [List.isEmpty_iff, List.drop_eq_nil_iff, List.length_append,
          List.length_singleton]
        omega

theorem atoi_before_comma {ds : List Nat} (h : ∀ n ∈ ds, n < 10) (s : List UInt8) :
    atoi (ds.map digit ++ comma :: s) = value ds := by
  cases ds with
  | nil => rfl
  | cons d ds =>
    apply atoi_digits (List.cons_ne_nil d ds) h
    intro c s' hc
    cases hc
    rfl

theorem atoi_before_bracket (o : Octet) (s : List UInt8) :
    atoi (o.text ++ 41 :: s) = value o.digits := by
  apply atoi_digits o.ne_nil o.lt_ten
  intro c s' hc
  cases hc
  rfl

/-- Two characters behind the start of `p1`: in `p2` where `p1` has one digit, else still in what
is left of `p1`. -/
theorem getPort_reply (r : PasvReply) :
    getPort r.str = some ((value r.p1.digits : Int) * 256 +
      if r.p1.digits.length = 1 then value r.p2.digits else value (r.p1.digits.drop 2)) := by
  have hskip := (skipCommas_cells_iff 3 r.str (r.port ++ [0])).mpr
    ⟨r.host, r.port, rfl, r.count_comma, rfl⟩
  have hport : r.port ++ [0] =
      r.p1.digits.map digit ++ comma :: (r.p2.text ++ 41 :: (r.behind ++ [0])) := by
    simp [PasvReply.port, Octet.text]
  unfold getPort
  rw [hskip, hport]
  simp only [Option.bind_eq_bind, Option.bind_some]
  rw [atoi_before_comma r.p1.lt_ten]
  rcases hdigits : r.p1.digits with _ | ⟨d, _ | ⟨e, ds⟩⟩
  · exact absurd hdigits r.p1.ne_nil
  · simp only [List.map_cons, List.map_nil, List.cons_append, List.nil_append, List.drop_succ_cons,
      List.drop_zero, List.length_cons, List.length_nil, atoi_before_bracket]
    simp
  · have hlt : ∀ n ∈ ds, n < 10 := by
      intro n hn
      exact r.p1.lt_ten n (by rw [hdigits]; simp [hn])
    simp only [List.map_cons, List.cons_append, List.drop_succ_cons, List.drop_zero,
      List.length_cons, atoi_before_comma hlt]
    simp

/-- The port is right where `p1` has one digit or leaves the value of `p2` behind its first two,
and the NUL is respected where two characters follow a fourth comma. -/
theorem get_port_right_iff (r : PasvReply) (str : CString) :
    (getPort r.str = some ((value r.p1.digits : Int) * 256 + value r.p2.digits) ↔
      r.p1.digits.length = 1 ∨ value r.p2.digits = value (r.p1.digits.drop 2)) ∧
    ((getPort str).isSome ↔
      ∃ s behind, str.val = s ++ comma :: behind ∧ s.count comma = 3 ∧ 2 ≤ behind.length) := by
  refine ⟨?_, isSome_getPort_iff str⟩
  rw [getPort_reply, Option.some.injEq]
  split
  · next hone => simp [hone]
  · next hmore =>
    simp only [hmore, false_or]
    omega

def IsOctet (digits : List Nat) : Prop :=
  digits ≠ [] ∧ (∀ n ∈ digits, n < 10) ∧ value digits ≤ 255

def Octet.of (digits : List Nat) (h : IsOctet digits) : Octet := ⟨digits, h.1, h.2.1, h.2.2⟩

/-- The answer of an own server with the port `p1,p2`. -/
def localReply (p1 p2 : List Nat) (h : IsOctet p1 ∧ IsOctet p2 ∧ IsOctet [0]) : PasvReply where
  before := []
  h1 := .of [0] h.2.2
  h2 := .of [0] h.2.2
  h3 := .of [0] h.2.2
  h4 := .of [0] h.2.2
  p1 := .of p1 h.1
  p2 := .of p2 h.2.1
  behind := []
  no_comma := nofun
  no_nul := nofun

instance (digits : List Nat) : Decidable (IsOctet digits) :=
  inferInstanceAs (Decidable (_ ∧ _ ∧ _))

/-- Port 5000 is read as 4864, and in the empty answer the search leaves the string. -/
theorem get_port_misses_second_digit :
    getPort (localReply [1, 9] [1, 3, 6] (by decide)).str ≠ some (19 * 256 + 136) ∧
      getPort ⟨[], nofun⟩ = none := by
  decide

end BackupSoftware.Ftp

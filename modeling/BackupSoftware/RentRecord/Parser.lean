import BackupSoftware.Library.Memory
import BackupSoftware.Library.Trace

/-!
# The parser of rental records

`ParseRentBikeRecord` of `rent_record/rent_record.c`. It walks over the payload and
copies, at each TAB or LF, what lies since the previous one into the next field of
the current entry. A write outside the array of a field, or an access to an entry
that was not allocated, is a fault.
-/

namespace BackupSoftware.RentRecord

open BackupSoftware.Library.Memory BackupSoftware.Library.Trace

def tab : UInt8 := 0x09
def lf : UInt8 := 0x0a

/-- The members of `struct rent_info_fmt`. -/
inductive Field where
  | bikeNO
  | rentName
  | rentTime
  | returnName
  | returnTime
  | usedTime
  | fee
  deriving DecidableEq, Repr

def Field.width : Field → Nat
  | .bikeNO => 32
  | .rentName => 64
  | .rentTime => 32
  | .returnName => 64
  | .returnTime => 32
  | .usedTime => 16
  | .fee => 16

/-- `struct rent_info_fmt`. -/
abbrev RentInfo := (f : Field) → Vector UInt8 f.width

/-- An entry as `calloc` gives it. -/
def RentInfo.zero : RentInfo := fun f => Vector.replicate f.width 0

inductive Fault where
  | outside
  deriving DecidableEq, Repr

/-- The variables of the loop and the table that was allocated. -/
structure Parser where
  begin : Nat
  cnt : Nat
  currRecordNum : Nat
  info : List RentInfo

/-- An array after `memcpy` of the bytes to its start and a NUL behind them. -/
def putString {w : Nat} (dst : Vector UInt8 w) (bytes : List UInt8) : Vector UInt8 w :=
  Vector.ofFn fun k =>
    if k.val < bytes.length then bytes.getD k.val 0
    else if k.val = bytes.length then 0
    else dst.get k

/-- One case of the switch: `size` is cut to the width of the array, that many bytes from
`src` on are copied, and the NUL goes to index `size`. -/
def Parser.copyField (buff : Nat → UInt8) (s : Parser) (f : Field) (src size : Nat) :
    Except Fault Parser :=
  let size := if f.width ≤ size then f.width else size
  match s.info[s.currRecordNum]? with
  | none => .error .outside
  | some entry =>
      if size < f.width then
        let entry := Function.update entry f (putString (entry f) (load buff src size))
        .ok { s with info := s.info.set s.currRecordNum entry }
      else .error .outside

/-- The switch. The first field is copied from `begin` in the first record. -/
def Parser.copyNext (buff : Nat → UInt8) (s : Parser) (size : Nat) : Except Fault Parser :=
  match s.cnt with
  | 0 =>
      if s.currRecordNum = 0 then s.copyField buff .bikeNO s.begin size
      else s.copyField buff .bikeNO (s.begin + 1) size
  | 1 => s.copyField buff .rentName (s.begin + 1) size
  | 2 => s.copyField buff .rentTime (s.begin + 1) size
  | 3 => s.copyField buff .returnName (s.begin + 1) size
  | 4 => s.copyField buff .returnTime (s.begin + 1) size
  | 5 => s.copyField buff .usedTime (s.begin + 1) size
  | 6 => s.copyField buff .fee (s.begin + 1) size
  | _ => .ok { s with cnt := 0 }

/-- TAB or LF. -/
def IsSeparator (b : UInt8) : Prop := b = tab ∨ b = lf

instance : DecidablePred IsSeparator := fun b => inferInstanceAs (Decidable (b = tab ∨ b = lf))

/-- What happens at a separator, before the test for LF. -/
def Parser.separator (buff : Nat → UInt8) (s : Parser) (i : Nat) : Except Fault Parser :=
  (s.copyNext buff (i - s.begin)).map fun s => { s with begin := i, cnt := s.cnt + 1 }

/-- The end of a record: the entry is printed, and the next one begins. -/
def Parser.endRecord (s : Parser) : Except Fault (Parser × Option RentInfo) :=
  match s.info[s.currRecordNum]? with
  | none => .error .outside
  | some entry => .ok ({ s with currRecordNum := s.currRecordNum + 1, cnt := 0 }, some entry)

/-- The body of the loop for one `i`, with the entry that is printed. -/
def parseStep (buff : Nat → UInt8) (s : Parser) (i : Nat) :
    Except Fault (Parser × Option RentInfo) := do
  let s ← if IsSeparator (buff i) then s.separator buff i else .ok s
  if buff i = lf then s.endRecord else .ok (s, none)

/-- The number of entries that `calloc(buff[8], …)` has allocated: none if it fails, as it
must for a negative number where `char` is signed. -/
def callocEntries (allocated : Bool) (byte8 : UInt8) : Nat := if allocated then byte8.toNat else 0

def Parser.initial (entries : Nat) : Parser := ⟨11, 0, 0, List.replicate entries .zero⟩

/-- The return value, the table before it is freed, and the entries printed. -/
def parseRentBikeRecord (allocated : Bool) (buff : Nat → UInt8) (len : Int) :
    Except Fault (Int × List RentInfo × List RentInfo) :=
  if len ≤ 0 then .ok (-1, [], [])
  else
    (run (parseStep buff) (.initial (callocEntries allocated (buff 8)))
      (List.range' 11 len.toNat)).map fun r => (0, r.1.info, r.2.filterMap id)

/-- The field that the switch writes for a value of `cnt`. -/
def fieldOf : Nat → Option Field
  | 0 => some .bikeNO
  | 1 => some .rentName
  | 2 => some .rentTime
  | 3 => some .returnName
  | 4 => some .returnTime
  | 5 => some .usedTime
  | 6 => some .fee
  | _ => none

/-- Where the switch copies from. -/
def Parser.source (s : Parser) : Nat :=
  if s.cnt = 0 ∧ s.currRecordNum = 0 then s.begin else s.begin + 1

theorem copyNext_some (buff : Nat → UInt8) {s : Parser} {f : Field} (h : fieldOf s.cnt = some f)
    (size : Nat) : s.copyNext buff size = s.copyField buff f s.source size := by
  obtain ⟨b, cnt, n, info⟩ := s
  match cnt, h with
  | 0, h =>
    cases h
    by_cases hn : n = 0
    · simp [Parser.copyNext, Parser.source, hn]
    · simp [Parser.copyNext, Parser.source, hn]
  | 1, h => cases h; rfl
  | 2, h => cases h; rfl
  | 3, h => cases h; rfl
  | 4, h => cases h; rfl
  | 5, h => cases h; rfl
  | 6, h => cases h; rfl

theorem copyNext_none (buff : Nat → UInt8) {s : Parser} (h : fieldOf s.cnt = none) (size : Nat) :
    s.copyNext buff size = .ok { s with cnt := 0 } := by
  obtain ⟨b, cnt, n, info⟩ := s
  match cnt, h with
  | k + 7, _ => rfl

/-- A copy that stays inside its entry and its array. -/
theorem copyField_ok (buff : Nat → UInt8) {s : Parser} {f : Field} {size : Nat}
    (hsize : size < f.width) {entry : RentInfo} (hentry : s.info[s.currRecordNum]? = some entry)
    (src : Nat) :
    s.copyField buff f src size = .ok { s with
      info := s.info.set s.currRecordNum
        (Function.update entry f (putString (entry f) (load buff src size))) } := by
  simp only [Parser.copyField, hentry, if_neg (Nat.not_le.mpr hsize), if_pos hsize]

theorem copyField_ok_iff (buff : Nat → UInt8) (s : Parser) (f : Field) (src size : Nat) :
    (∃ s', s.copyField buff f src size = .ok s') ↔
      s.currRecordNum < s.info.length ∧ size < f.width := by
  unfold Parser.copyField
  cases hentry : s.info[s.currRecordNum]? with
  | none =>
    have hle := List.getElem?_eq_none_iff.mp hentry
    constructor
    · intro h
      obtain ⟨s', h⟩ := h
      cases h
    · intro h
      omega
  | some entry =>
    obtain ⟨hlt, -⟩ := List.getElem?_eq_some_iff.mp hentry
    by_cases hsize : f.width ≤ size
    · simp [hsize]
    · simp [hsize, hlt, Nat.not_le.mp hsize]

theorem copyField_keeps (buff : Nat → UInt8) {s s' : Parser} {f : Field} {src size : Nat}
    (h : s.copyField buff f src size = .ok s') :
    s'.cnt = s.cnt ∧ s'.currRecordNum = s.currRecordNum ∧ s'.info.length = s.info.length := by
  obtain ⟨hlt, hsize⟩ := (copyField_ok_iff buff s f src size).mp ⟨s', h⟩
  rw [copyField_ok buff hsize (List.getElem?_eq_getElem hlt)] at h
  cases h
  exact ⟨rfl, rfl, List.length_set⟩

/-- A separator is passed exactly when the field that ends there, if any, fits. -/
theorem separator_ok_iff (buff : Nat → UInt8) (s : Parser) (i : Nat) :
    (∃ s', s.separator buff i = .ok s') ↔
      ∀ f, fieldOf s.cnt = some f → s.currRecordNum < s.info.length ∧ i - s.begin < f.width := by
  cases hf : fieldOf s.cnt with
  | none =>
    simp only [Parser.separator, copyNext_none buff hf]
    constructor
    · intro _ f h
      cases h
    · intro _
      exact ⟨_, rfl⟩
  | some f =>
    have hiff := copyField_ok_iff buff s f s.source (i - s.begin)
    simp only [Parser.separator, copyNext_some buff hf]
    constructor
    · intro h f' hf'
      obtain ⟨s', h⟩ := h
      cases hf'
      apply hiff.mp
      cases hcopy : s.copyField buff f s.source (i - s.begin) with
      | error e => rw [hcopy] at h; cases h
      | ok s₁ => exact ⟨s₁, rfl⟩
    · intro h
      obtain ⟨s₁, hs₁⟩ := hiff.mpr (h f rfl)
      exact ⟨_, by rw [hs₁]; rfl⟩

/-- The counters after a separator. -/
theorem separator_keeps (buff : Nat → UInt8) {s s' : Parser} {i : Nat}
    (h : s.separator buff i = .ok s') :
    s'.begin = i ∧ s'.cnt = (if (fieldOf s.cnt).isSome then s.cnt else 0) + 1 ∧
      s'.currRecordNum = s.currRecordNum ∧ s'.info.length = s.info.length := by
  cases hf : fieldOf s.cnt with
  | none =>
    rw [Parser.separator, copyNext_none buff hf] at h
    cases h
    exact ⟨rfl, rfl, rfl, rfl⟩
  | some f =>
    rw [Parser.separator, copyNext_some buff hf] at h
    cases hcopy : s.copyField buff f s.source (i - s.begin) with
    | error e => rw [hcopy] at h; cases h
    | ok s₁ =>
      rw [hcopy] at h
      cases h
      obtain ⟨hcnt, hnum, hlen⟩ := copyField_keeps buff hcopy
      exact ⟨rfl, congrArg (· + 1) hcnt, hnum, hlen⟩

theorem parseStep_other (buff : Nat → UInt8) (s : Parser) {i : Nat} (h : ¬ IsSeparator (buff i)) :
    parseStep buff s i = .ok (s, none) := by
  have hlf : buff i ≠ lf := fun heq => h (Or.inr heq)
  simp only [parseStep, if_neg h, if_neg hlf]
  rfl

theorem parseStep_tab (buff : Nat → UInt8) (s : Parser) {i : Nat} (h : buff i = tab) :
    parseStep buff s i = (s.separator buff i).map fun s' => (s', none) := by
  have hlf : buff i ≠ lf := by rw [h]; decide
  simp only [parseStep, if_pos (show IsSeparator (buff i) from Or.inl h), if_neg hlf]
  cases s.separator buff i with
  | error e => rfl
  | ok s' => rfl

theorem parseStep_lf (buff : Nat → UInt8) (s : Parser) {i : Nat} (h : buff i = lf) :
    parseStep buff s i = (s.separator buff i).bind Parser.endRecord := by
  simp only [parseStep, if_pos (show IsSeparator (buff i) from Or.inr h), if_pos h]
  cases s.separator buff i with
  | error e => rfl
  | ok s' => rfl

theorem endRecord_ok_iff (s : Parser) :
    (∃ r, s.endRecord = .ok r) ↔ s.currRecordNum < s.info.length := by
  unfold Parser.endRecord
  cases hentry : s.info[s.currRecordNum]? with
  | none =>
    have hle := List.getElem?_eq_none_iff.mp hentry
    constructor
    · intro h
      obtain ⟨r, h⟩ := h
      cases h
    · intro h
      omega
  | some entry =>
    obtain ⟨hlt, -⟩ := List.getElem?_eq_some_iff.mp hentry
    exact ⟨fun _ => hlt, fun _ => ⟨_, rfl⟩⟩

theorem endRecord_keeps {s : Parser} {r : Parser × Option RentInfo} (h : s.endRecord = .ok r) :
    r.1 = { s with currRecordNum := s.currRecordNum + 1, cnt := 0 } := by
  unfold Parser.endRecord at h
  cases hentry : s.info[s.currRecordNum]? with
  | none => rw [hentry] at h; cases h
  | some entry =>
    rw [hentry] at h
    cases h
    rfl

end BackupSoftware.RentRecord

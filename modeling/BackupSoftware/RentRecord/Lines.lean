import BackupSoftware.RentRecord.Bounds

/-!
# Lines of any number of fields

What a line does is first computed on the strings of its entry. The parser simulates
that, and faults where it is undefined.
-/

namespace BackupSoftware.RentRecord

open BackupSoftware.Library.Memory BackupSoftware.Library.Trace

/-- The texts of a record. -/
abbrev Rental := Field → List UInt8

/-- The string in an array: the bytes before the first NUL. -/
def cString {w : Nat} (v : Vector UInt8 w) : List UInt8 := v.toList.takeWhile fun b => b ≠ 0

def RentInfo.strings (entry : RentInfo) : Rental := fun f => cString (entry f)

/-- What an array reads as that the bytes were copied to. -/
def upToNul (bytes : List UInt8) : List UInt8 := bytes.takeWhile fun b => b ≠ 0

/-- The bytes that are copied at a separator. The first field of a message is copied alone, every
other one with the separator. -/
def copied (n e : Nat) (text : List UInt8) (c : UInt8) : List UInt8 :=
  if n = 0 ∧ e = 0 then text else text ++ [c]

/-- Field number `e` of a line. There is none if it does not fit into its array. -/
def storeField (e : Nat) (t : Rental) (bytes : List UInt8) : Option Rental :=
  match fieldOf (fieldNumber e) with
  | none => some t
  | some f => if bytes.length < f.width then some (Function.update t f (upToNul bytes)) else none

/-- The fields of a line from number `e` on, and its LF. -/
def storeLine (n : Nat) : Nat → List (List UInt8) → Rental → Option Rental
  | e, [], t => storeField e t (copied n e [] lf)
  | e, x :: xs, t => (storeField e t (copied n e x tab)).bind (storeLine n (e + 1) xs)

/-- The entries of a message from record `n` on, each blank before. -/
def storeLines : Nat → List (List (List UInt8)) → Option (List Rental)
  | _, [] => some []
  | n, xs :: lines =>
      (storeLine n 0 xs fun _ => []).bind fun t => (storeLines (n + 1) lines).map (t :: ·)

/-- The text of a line. -/
def encodeLine (xs : List (List UInt8)) : List UInt8 := xs.flatMap (· ++ [tab]) ++ [lf]

theorem toList_putString {w : Nat} (dst : Vector UInt8 w) {bytes : List UInt8}
    (hlen : bytes.length < w) : (putString dst bytes).toList =
      bytes ++ 0 :: (putString dst bytes).toList.drop (bytes.length + 1) := by
  apply List.ext_getElem?
  intro k
  rcases Nat.lt_trichotomy k bytes.length with hk | hk | hk
  · rw [List.getElem?_append_left hk, List.getElem?_eq_getElem hk,
      List.getElem?_eq_getElem (by simp; omega)]
    simp [putString, hk]
  · rw [hk, List.getElem?_append_right (Nat.le_refl _), Nat.sub_self,
      List.getElem?_eq_getElem (by simpa using hlen)]
    simp [putString]
  · rw [List.getElem?_append_right (by omega)]
    obtain ⟨j, rfl⟩ : ∃ j, k = bytes.length + 1 + j := ⟨k - bytes.length - 1, by omega⟩
    rw [show bytes.length + 1 + j - bytes.length = j + 1 by omega, List.getElem?_cons_succ,
      List.getElem?_drop]

theorem takeWhile_append_zero (bytes rest : List UInt8) :
    (bytes ++ 0 :: rest).takeWhile (fun b => b ≠ 0) = upToNul bytes := by
  induction bytes with
  | nil => rfl
  | cons b bytes ih =>
    rw [List.cons_append, upToNul, List.takeWhile_cons, List.takeWhile_cons, ih]
    rfl

theorem cString_putString {w : Nat} (dst : Vector UInt8 w) {bytes : List UInt8}
    (hlen : bytes.length < w) : cString (putString dst bytes) = upToNul bytes := by
  rw [cString, toList_putString dst hlen, takeWhile_append_zero]

theorem strings_zero : RentInfo.strings .zero = fun _ => [] := by
  funext f
  cases f <;> decide

theorem fieldNumber_eq_zero_iff (e : Nat) : fieldNumber e = 0 ↔ e = 0 := by
  unfold fieldNumber
  split
  · next h => exact iff_of_true rfl h
  · next h => exact iff_of_false (Nat.succ_ne_zero _) h

section Simulation

variable {buff : Nat → UInt8} {n e p : Nat} {s : Parser} {entry : RentInfo}

/-- The parser is at field number `e`, which begins at `p`. -/
structure AtField (e p : Nat) (s : Parser) : Prop where
  cnt : s.cnt = fieldNumber e
  source : s.source = p

/-- The size computed at the separator is that of the bytes copied. -/
theorem load_copied {text : List UInt8} {c : UInt8} (hat : AtField e p s)
    (hload : load buff p (text.length + 1) = text ++ [c]) :
    p + text.length - s.begin = (copied s.currRecordNum e text c).length ∧
      load buff p (copied s.currRecordNum e text c).length = copied s.currRecordNum e text c := by
  have hsource := hat.source
  simp only [Parser.source, hat.cnt, fieldNumber_eq_zero_iff] at hsource
  by_cases hfirst : s.currRecordNum = 0 ∧ e = 0
  · rw [copied, if_pos hfirst]
    rw [if_pos hfirst.symm] at hsource
    rw [load_concat] at hload
    exact ⟨by omega, (List.append_inj hload (length_load _ _ _)).1⟩
  · rw [copied, if_neg hfirst, List.length_append, List.length_singleton]
    rw [if_neg fun h => hfirst h.symm] at hsource
    exact ⟨by omega, hload⟩

theorem copyField_error (buff : Nat → UInt8) {s : Parser} {f : Field} {size : Nat}
    (hsize : ¬ size < f.width) (src : Nat) : s.copyField buff f src size = .error .outside := by
  have hnot := mt (copyField_ok_iff buff s f src size).mp fun h => hsize h.2
  cases hcopy : s.copyField buff f src size with
  | ok s' => exact absurd ⟨s', hcopy⟩ hnot
  | error err =>
    cases err
    rfl

theorem strings_update (entry : RentInfo) (f : Field) {bytes : List UInt8}
    (hlen : bytes.length < f.width) :
    RentInfo.strings (Function.update entry f (putString (entry f) bytes)) =
      Function.update entry.strings f (upToNul bytes) := by
  funext g
  by_cases hg : g = f
  · subst hg
    rw [RentInfo.strings, Function.update_self, Function.update_self,
      cString_putString _ hlen]
  · rw [RentInfo.strings, Function.update_of_ne hg, Function.update_of_ne hg, RentInfo.strings]

/-- A separator does to the strings of the entry what it should, or the parser leaves the array. -/
theorem separator_stores {text : List UInt8} {c : UInt8} (hat : AtField e p s)
    (hload : load buff p (text.length + 1) = text ++ [c])
    (hentry : s.info[s.currRecordNum]? = some entry) :
    match storeField e entry.strings (copied s.currRecordNum e text c) with
    | none => s.separator buff (p + text.length) = .error .outside
    | some t => ∃ entry', RentInfo.strings entry' = t ∧
        s.separator buff (p + text.length) = .ok { s with
          begin := p + text.length
          cnt := fieldNumber (e + 1)
          info := s.info.set s.currRecordNum entry' } := by
  obtain ⟨hsize, hbytes⟩ := load_copied hat hload
  obtain ⟨hlt, hget⟩ := List.getElem?_eq_some_iff.mp hentry
  cases hf : fieldOf (fieldNumber e) with
  | none =>
    have hnext : fieldNumber (e + 1) = 1 := by
      rw [fieldNumber_succ, hf]
      rfl
    rw [storeField, hf]
    refine ⟨entry, rfl, ?_⟩
    rw [Parser.separator, copyNext_none buff (by rw [hat.cnt]; exact hf), hnext, ← hget,
      List.set_getElem_self]
    rfl
  | some f =>
    have hnext : fieldNumber (e + 1) = s.cnt + 1 := by
      rw [fieldNumber_succ, hf, hat.cnt]
      rfl
    rw [storeField, hf]
    simp only
    rw [Parser.separator, copyNext_some buff (by rw [hat.cnt]; exact hf), hat.source, hsize]
    by_cases hfits : (copied s.currRecordNum e text c).length < f.width
    · rw [if_pos hfits, copyField_ok buff hfits hentry, hbytes, hnext]
      exact ⟨_, strings_update entry f hfits, rfl⟩
    · rw [if_neg hfits, copyField_error buff hfits]
      rfl

/-- Text without separators changes nothing. -/
theorem run_text {p : Nat} {text : List UInt8} (s : Parser)
    (hload : load buff p text.length = text) (hfree : ∀ b ∈ text, ¬ IsSeparator b) :
    run (parseStep buff) s (List.range' p text.length) =
      .ok (s, List.replicate text.length none) := by
  induction text generalizing p with
  | nil => rfl
  | cons b text ih =>
    rw [List.length_cons, load_succ] at hload
    obtain ⟨hb, hrest⟩ := List.cons.inj hload
    have hstep : parseStep buff s p = .ok (s, none) :=
      parseStep_other buff s (by rw [hb]; exact hfree b List.mem_cons_self)
    rw [List.length_cons, List.range'_succ]
    exact run_cons_ok hstep (ih hrest fun b' hb' => hfree b' (List.mem_cons_of_mem _ hb'))

/-- Text and its separator are one step at the separator. -/
theorem run_piece {text : List UInt8} {c : UInt8}
    (hload : load buff p (text.length + 1) = text ++ [c]) (hfree : ∀ b ∈ text, ¬ IsSeparator b)
    (s : Parser) :
    buff (p + text.length) = c ∧ ∃ outs, run (parseStep buff) s (List.range' p (text.length + 1)) =
      (parseStep buff s (p + text.length)).map fun r => (r.1, outs ++ [r.2]) := by
  rw [load_concat] at hload
  obtain ⟨htext, hlast⟩ := List.append_inj hload (length_load _ _ _)
  refine ⟨List.singleton_inj.mp hlast, List.replicate text.length none, ?_⟩
  rw [List.range'_concat, Nat.one_mul, run_append, run_text s htext hfree]
  cases hstep : parseStep buff s (p + text.length) with
  | error err => simp only [run, hstep, Except.bind, Except.map]
  | ok r => simp only [run, hstep, Except.bind, Except.map]

theorem encodeLine_cons (x : List UInt8) (xs : List (List UInt8)) :
    encodeLine (x :: xs) = (x ++ [tab]) ++ encodeLine xs := by
  rw [encodeLine, List.flatMap_cons, List.append_assoc]
  rfl

/-- A line does to the strings of its entry what it should, or the parser leaves an array. -/
theorem run_line {xs : List (List UInt8)} (hfree : ∀ x ∈ xs, ∀ b ∈ x, ¬ IsSeparator b)
    (hat : AtField e p s) (hload : load buff p (encodeLine xs).length = encodeLine xs)
    (hentry : s.info[s.currRecordNum]? = some entry) :
    match storeLine s.currRecordNum e xs entry.strings with
    | none => run (parseStep buff) s (List.range' p (encodeLine xs).length) = .error .outside
    | some t => ∃ entry' outs, RentInfo.strings entry' = t ∧
        run (parseStep buff) s (List.range' p (encodeLine xs).length) = .ok ({ s with
          begin := p + (encodeLine xs).length - 1
          cnt := 0
          currRecordNum := s.currRecordNum + 1
          info := s.info.set s.currRecordNum entry' }, outs) := by
  obtain ⟨hlt, -⟩ := List.getElem?_eq_some_iff.mp hentry
  induction xs generalizing e p s entry with
  | nil =>
    have hpiece : load buff p (([] : List UInt8).length + 1) = [] ++ [lf] := hload
    have hsep := separator_stores hat hpiece hentry
    obtain ⟨hbyte, outs, hrun⟩ := run_piece hpiece (fun _ h => by cases h) s
    rw [parseStep_lf buff s hbyte] at hrun
    rw [storeLine, show (encodeLine []).length = ([] : List UInt8).length + 1 from rfl, hrun]
    cases hstore : storeField e entry.strings (copied s.currRecordNum e [] lf) with
    | none =>
      rw [hstore] at hsep
      rw [hsep]
      rfl
    | some t =>
      rw [hstore] at hsep
      obtain ⟨entry', hstrings, hsep⟩ := hsep
      refine ⟨entry', outs ++ [some entry'], hstrings, ?_⟩
      rw [hsep]
      simp only [Except.bind, Parser.endRecord, List.getElem?_set_self hlt, Except.map]
      rfl
  | cons x xs ih =>
    rw [List.forall_mem_cons] at hfree
    rw [encodeLine_cons, List.length_append, List.length_append, List.length_singleton,
      load_add] at hload
    obtain ⟨hpiece, hrest⟩ := List.append_inj hload (by simp)
    have hsep := separator_stores hat hpiece hentry
    obtain ⟨hbyte, outs, hrun⟩ := run_piece hpiece hfree.1 s
    rw [parseStep_tab buff s hbyte] at hrun
    rw [storeLine, encodeLine_cons, List.length_append, List.length_append, List.length_singleton,
      ← List.range'_append_1, run_append, hrun]
    cases hstore : storeField e entry.strings (copied s.currRecordNum e x tab) with
    | none =>
      rw [hstore] at hsep
      rw [hsep]
      rfl
    | some t =>
      rw [hstore] at hsep
      obtain ⟨entry', rfl, hsep⟩ := hsep
      rw [hsep]
      have hat' : AtField (e + 1) (p + (x.length + 1)) { s with
          begin := p + x.length
          cnt := fieldNumber (e + 1)
          info := s.info.set s.currRecordNum entry' } := by
        refine ⟨rfl, if_neg fun h => ?_⟩
        exact Nat.succ_ne_zero e ((fieldNumber_eq_zero_iff _).mp h.1)
      have hnext := ih hfree.2 hat' hrest (List.getElem?_set_self hlt) (by simpa using hlt)
      simp only [Option.bind_some, Except.map, Except.bind]
      cases hline : storeLine s.currRecordNum (e + 1) xs entry'.strings with
      | none =>
        simp only [hline] at hnext
        rw [hnext]
      | some t =>
        simp only [hline, List.set_set] at hnext
        obtain ⟨entry'', outs', hstrings, hnext⟩ := hnext
        refine ⟨entry'', outs ++ [none] ++ outs', hstrings, ?_⟩
        rw [hnext, ← Nat.add_assoc p (x.length + 1)]

/-- The lines of a message fill the table, which is blank behind the entries filled before. -/
theorem run_lines {lines : List (List (List UInt8))}
    (hfree : ∀ xs ∈ lines, ∀ x ∈ xs, ∀ b ∈ x, ¬ IsSeparator b) (hat : AtField 0 p s)
    (hload : load buff p (lines.flatMap encodeLine).length = lines.flatMap encodeLine)
    {filled : List RentInfo} (hnum : s.currRecordNum = filled.length)
    (hinfo : s.info = filled ++ List.replicate lines.length .zero) :
    match storeLines filled.length lines with
    | none => run (parseStep buff) s (List.range' p (lines.flatMap encodeLine).length) =
        .error .outside
    | some ts => ∃ s' outs entries,
        run (parseStep buff) s (List.range' p (lines.flatMap encodeLine).length) = .ok (s', outs) ∧
        s'.info = filled ++ entries ∧ entries.map RentInfo.strings = ts := by
  induction lines generalizing p s filled with
  | nil => exact ⟨s, [], [], rfl, hinfo, rfl⟩
  | cons xs lines ih =>
    rw [List.forall_mem_cons] at hfree
    rw [List.flatMap_cons, List.length_append, load_add] at hload
    obtain ⟨hfirst, hrest⟩ := List.append_inj hload (length_load _ _ _)
    have hentry : s.info[s.currRecordNum]? = some .zero := by
      rw [hinfo, hnum, List.getElem?_append_right (Nat.le_refl _), Nat.sub_self]
      rfl
    have hline := run_line hfree.1 hat hfirst hentry
    rw [strings_zero, hnum] at hline
    rw [storeLines, List.flatMap_cons, List.length_append, ← List.range'_append_1, run_append]
    cases hstore : storeLine filled.length 0 xs fun _ => [] with
    | none =>
      simp only [hstore] at hline
      rw [hline]
      rfl
    | some t =>
      simp only [hstore] at hline
      obtain ⟨entry', outs, rfl, hline⟩ := hline
      have hset : s.info.set filled.length entry' =
          (filled ++ [entry']) ++ List.replicate lines.length .zero := by
        rw [hinfo, List.set_append_right _ _ (Nat.le_refl _), Nat.sub_self, List.append_assoc]
        rfl
      have hpos : 1 ≤ (encodeLine xs).length := by
        rw [encodeLine, List.length_append, List.length_singleton]
        omega
      have hat' : AtField 0 (p + (encodeLine xs).length) { s with
          begin := p + (encodeLine xs).length - 1
          cnt := 0
          currRecordNum := filled.length + 1
          info := s.info.set filled.length entry' } := by
        refine ⟨rfl, (if_neg fun h => Nat.succ_ne_zero _ h.2).trans ?_⟩
        exact Nat.sub_add_cancel (by omega)
      have hnext := ih hfree.2 hat' hrest (by simp) hset
      rw [List.length_append, List.length_singleton] at hnext
      rw [hline]
      simp only [Option.bind_some, Except.bind]
      cases hlines : storeLines (filled.length + 1) lines with
      | none =>
        simp only [hlines] at hnext
        rw [hnext]
        rfl
      | some ts =>
        simp only [hlines] at hnext
        obtain ⟨s', outs', entries, hnext, hinfo', hmap⟩ := hnext
        refine ⟨s', outs ++ outs', entry' :: entries, ?_, ?_, ?_⟩
        · rw [hnext]
          rfl
        · rw [hinfo', List.append_assoc]
          rfl
        · rw [List.map_cons, hmap]

/-- The table that the parser leaves for lines of any number of fields. -/
theorem parse_lines {lines : List (List (List UInt8))}
    (hfree : ∀ xs ∈ lines, ∀ x ∈ xs, ∀ b ∈ x, ¬ IsSeparator b)
    (hcount : (buff 8).toNat = lines.length)
    (hload : load buff 11 (lines.flatMap encodeLine).length = lines.flatMap encodeLine) :
    match storeLines 0 lines with
    | none => parseRentBikeRecord true buff (lines.flatMap encodeLine).length = .error .outside
    | some ts => ∃ ret info prints,
        parseRentBikeRecord true buff (lines.flatMap encodeLine).length = .ok (ret, info, prints) ∧
        info.map RentInfo.strings = ts := by
  by_cases hne : lines = []
  · subst hne
    exact ⟨-1, [], [], rfl, rfl⟩
  have hpos : ¬ ((lines.flatMap encodeLine).length : Int) ≤ 0 := by
    obtain ⟨xs, lines, rfl⟩ := List.exists_cons_of_ne_nil hne
    rw [List.flatMap_cons, encodeLine, List.length_append, List.length_append,
      List.length_singleton]
    omega
  have hinfo : (Parser.initial (callocEntries true (buff 8))).info =
      [] ++ List.replicate lines.length .zero := by
    rw [← hcount]
    rfl
  have hat : AtField 0 11 (.initial (callocEntries true (buff 8))) := ⟨rfl, rfl⟩
  have hrun := run_lines hfree hat hload rfl hinfo
  rw [parseRentBikeRecord, if_neg hpos, Int.toNat_natCast]
  cases hstore : storeLines 0 lines with
  | none =>
    simp only [List.length_nil, hstore] at hrun
    rw [hrun]
    rfl
  | some ts =>
    simp only [List.length_nil, hstore] at hrun
    obtain ⟨s', outs, entries, hrun, hinfo', hmap⟩ := hrun
    refine ⟨0, entries, outs.filterMap id, ?_, hmap⟩
    rw [hrun]
    simp only [Except.map, hinfo', List.nil_append]

end Simulation

end BackupSoftware.RentRecord

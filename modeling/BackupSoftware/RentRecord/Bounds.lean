import BackupSoftware.RentRecord.Parser

/-!
# When the parser stays inside its table

Number of the record, number of the field and size of what is copied are functions
of the part of the payload that has been read. The parser stays in bounds exactly
when they are admissible at every separator.
-/

namespace BackupSoftware.RentRecord

open BackupSoftware.Library.Memory BackupSoftware.Library.Trace

/-- The number of TABs since the last LF. -/
def lineTabs (pre : List UInt8) : Nat := (pre.reverse.takeWhile fun b => b ≠ lf).count tab

/-- How many bytes the parser takes a field to have that ends after `pre`: those since the
last separator, and the separator itself, if there is one. -/
def fieldSize (pre : List UInt8) : Nat :=
  (pre.reverse.takeWhile fun b => ¬ IsSeparator b).length +
    if ∃ b ∈ pre, IsSeparator b then 1 else 0

/-- The value of `cnt` after `j` TABs of a line: after the seventh it starts again at 1. -/
def fieldNumber (j : Nat) : Nat := if j = 0 then 0 else (j - 1) % 7 + 1

@[simp] theorem lineTabs_concat (pre : List UInt8) (c : UInt8) :
    lineTabs (pre ++ [c]) = if c = lf then 0 else if c = tab then lineTabs pre + 1
      else lineTabs pre := by
  rw [lineTabs, List.reverse_concat, List.takeWhile_cons]
  by_cases hlf : c = lf
  · simp [hlf]
  · by_cases htab : c = tab
    · have hne : tab ≠ lf := by decide
      simp [htab, hne, lineTabs]
    · simp [hlf, htab, lineTabs]

@[simp] theorem fieldSize_concat (pre : List UInt8) (c : UInt8) :
    fieldSize (pre ++ [c]) = if IsSeparator c then 1 else fieldSize pre + 1 := by
  rw [fieldSize, List.reverse_concat, List.takeWhile_cons]
  by_cases hsep : IsSeparator c
  · simp [hsep]
  · have hbefore : (∃ b ∈ pre ++ [c], IsSeparator b) ↔ ∃ b ∈ pre, IsSeparator b := by
      simp only [List.mem_append, List.mem_singleton]
      constructor
      · intro h
        obtain ⟨b, hb | rfl, hs⟩ := h
        · exact ⟨b, hb, hs⟩
        · exact absurd hs hsep
      · intro h
        obtain ⟨b, hb, hs⟩ := h
        exact ⟨b, Or.inl hb, hs⟩
    simp only [hsep, not_false_eq_true, decide_true, ↓reduceIte, List.length_cons, fieldSize,
      hbefore]
    omega

theorem fieldOf_isSome (k : Nat) : (fieldOf k).isSome = decide (k < 7) := by
  match k with
  | 0 | 1 | 2 | 3 | 4 | 5 | 6 => rfl
  | k + 7 => simp [fieldOf]

theorem fieldNumber_succ (j : Nat) :
    fieldNumber (j + 1) = (if (fieldOf (fieldNumber j)).isSome then fieldNumber j else 0) + 1 := by
  rw [fieldOf_isSome]
  by_cases hj : j = 0
  · rw [hj]
    rfl
  · simp only [fieldNumber, hj, Nat.succ_ne_zero, ↓reduceIte, decide_eq_true_eq, Nat.add_sub_cancel]
    split
    · omega
    · omega

/-- The parser's variables after it has read `pre`. -/
structure Tracks (entries : Nat) (pre : List UInt8) (s : Parser) : Prop where
  begin : s.begin + fieldSize pre = 11 + pre.length
  cnt : s.cnt = fieldNumber (lineTabs pre)
  record : s.currRecordNum = pre.count lf
  info : s.info.length = entries

/-- At a separator after `pre`: the field that ends here, if it is one of the seven, belongs
to an allocated entry and leaves room for the NUL; and an LF ends an allocated entry. -/
def SeparatorFits (entries : Nat) (pre : List UInt8) (c : UInt8) : Prop :=
  (∀ f, fieldOf (fieldNumber (lineTabs pre)) = some f →
    pre.count lf < entries ∧ fieldSize pre < f.width) ∧
  (c = lf → pre.count lf < entries)

theorem tracks_initial (entries : Nat) : Tracks entries [] (.initial entries) :=
  ⟨rfl, rfl, rfl, List.length_replicate⟩

section Step

variable {buff : Nat → UInt8} {entries : Nat} {pre : List UInt8} {s : Parser}

theorem tracks_separator (h : Tracks entries pre s) {s' : Parser}
    (hstep : s.separator buff (11 + pre.length) = .ok s') :
    s'.begin = 11 + pre.length ∧ s'.cnt = fieldNumber (lineTabs pre + 1) ∧
      s'.currRecordNum = pre.count lf ∧ s'.info.length = entries := by
  obtain ⟨hbegin, hcnt, hnum, hlen⟩ := separator_keeps buff hstep
  refine ⟨hbegin, ?_, hnum.trans h.record, hlen.trans h.info⟩
  rw [hcnt, fieldNumber_succ, h.cnt]

/-- What one step does to the variables. -/
theorem tracks_step (h : Tracks entries pre s) {r : Parser × Option RentInfo}
    (hstep : parseStep buff s (11 + pre.length) = .ok r) :
    Tracks entries (pre ++ [buff (11 + pre.length)]) r.1 := by
  by_cases hlf : buff (11 + pre.length) = lf
  · rw [parseStep_lf buff s hlf] at hstep
    cases hsep : s.separator buff (11 + pre.length) with
    | error e => rw [hsep] at hstep; cases hstep
    | ok s₁ =>
      rw [hsep] at hstep
      obtain ⟨hbegin, -, hnum, hlen⟩ := tracks_separator h hsep
      have hr := endRecord_keeps (show s₁.endRecord = .ok r from hstep)
      have hsepc : IsSeparator lf := Or.inr rfl
      rw [hlf, hr]
      constructor
      · simp [hsepc, hbegin, Nat.add_assoc]
      · simp [fieldNumber]
      · simp [hnum]
      · exact hlen
  · by_cases htab : buff (11 + pre.length) = tab
    · rw [parseStep_tab buff s htab] at hstep
      cases hsep : s.separator buff (11 + pre.length) with
      | error e => rw [hsep] at hstep; cases hstep
      | ok s₁ =>
        rw [hsep] at hstep
        cases hstep
        obtain ⟨hbegin, hcnt, hnum, hlen⟩ := tracks_separator h hsep
        have hsepc : IsSeparator tab := Or.inl rfl
        have hne : tab ≠ lf := by decide
        rw [htab]
        constructor
        · simp [hsepc, hbegin, Nat.add_assoc]
        · simp [hne, hcnt]
        · simp [hne, hnum]
        · exact hlen
    · have hsepc : ¬ IsSeparator (buff (11 + pre.length)) := by
        intro h
        rcases h with h | h
        · exact htab h
        · exact hlf h
      rw [parseStep_other buff s hsepc] at hstep
      cases hstep
      constructor
      · have hb := h.begin
        simp [hsepc]
        omega
      · simp [hlf, htab, h.cnt]
      · simp [hlf, h.record]
      · exact h.info

theorem separator_completes_iff (buff : Nat → UInt8) (h : Tracks entries pre s) :
    (∃ s', s.separator buff (11 + pre.length) = .ok s') ↔
      ∀ f, fieldOf (fieldNumber (lineTabs pre)) = some f →
        pre.count lf < entries ∧ fieldSize pre < f.width := by
  have hsize : 11 + pre.length - s.begin = fieldSize pre := by
    have := h.begin
    omega
  rw [separator_ok_iff, hsize, h.cnt, h.record, h.info]

/-- When one step stays in bounds. -/
theorem step_completes_iff (buff : Nat → UInt8) (h : Tracks entries pre s) :
    (∃ r, parseStep buff s (11 + pre.length) = .ok r) ↔
      (IsSeparator (buff (11 + pre.length)) →
        SeparatorFits entries pre (buff (11 + pre.length))) := by
  have hiff := separator_completes_iff buff h
  by_cases hlf : buff (11 + pre.length) = lf
  · have hsepc : IsSeparator (buff (11 + pre.length)) := Or.inr hlf
    rw [parseStep_lf buff s hlf, SeparatorFits, ← hiff]
    constructor
    · intro h' _
      obtain ⟨r, hr⟩ := h'
      cases hsep : s.separator buff (11 + pre.length) with
      | error e => rw [hsep] at hr; cases hr
      | ok s₁ =>
        rw [hsep] at hr
        obtain ⟨-, -, hnum, hlen⟩ := tracks_separator h hsep
        have hlt := (endRecord_ok_iff s₁).mp ⟨r, hr⟩
        exact ⟨⟨s₁, rfl⟩, fun _ => by omega⟩
    · intro hfits
      obtain ⟨⟨s₁, hsep⟩, hlt⟩ := hfits hsepc
      obtain ⟨-, -, hnum, hlen⟩ := tracks_separator h hsep
      obtain ⟨r, hr⟩ := (endRecord_ok_iff s₁).mpr (by have := hlt hlf; omega)
      exact ⟨r, by rw [hsep]; exact hr⟩
  · by_cases htab : buff (11 + pre.length) = tab
    · have hsepc : IsSeparator (buff (11 + pre.length)) := Or.inl htab
      rw [parseStep_tab buff s htab, SeparatorFits, ← hiff]
      constructor
      · intro h' _
        obtain ⟨r, hr⟩ := h'
        cases hsep : s.separator buff (11 + pre.length) with
        | error e => rw [hsep] at hr; cases hr
        | ok s₁ => exact ⟨⟨s₁, rfl⟩, fun heq => absurd heq hlf⟩
      · intro hfits
        obtain ⟨⟨s₁, hsep⟩, -⟩ := hfits hsepc
        exact ⟨_, by rw [hsep]; rfl⟩
    · have hsepc : ¬ IsSeparator (buff (11 + pre.length)) := by
        intro h
        rcases h with h | h
        · exact htab h
        · exact hlf h
      exact ⟨fun _ hsep => absurd hsep hsepc, fun _ => ⟨_, parseStep_other buff s hsepc⟩⟩

end Step

theorem load_split {α : Type} (m : Nat → α) (p n : Nat) {k : Nat} (hk : k < n) :
    load m p n = load m p k ++ m (p + k) :: load m (p + k + 1) (n - k - 1) := by
  conv_lhs => rw [show n = k + (n - k - 1 + 1) by omega]
  rw [load_add, load_succ]

/-- A run over the first `k` bytes tracks them. -/
theorem run_tracks {buff : Nat → UInt8} {entries k : Nat} {s : Parser}
    {outs : List (Option RentInfo)}
    (hrun : run (parseStep buff) (.initial entries) (List.range' 11 k) = .ok (s, outs)) :
    Tracks entries (load buff 11 k) s := by
  induction k generalizing s outs with
  | zero =>
    obtain ⟨rfl, -⟩ := run_nil_iff.mp hrun
    exact tracks_initial entries
  | succ k ih =>
    rw [List.range'_concat, Nat.one_mul] at hrun
    obtain ⟨s₁, outs₁, outs₂, hfirst, hlast, -⟩ := run_append_iff.mp hrun
    obtain ⟨s₂, out, outs₃, hstep, hnil, -⟩ := run_cons_iff.mp hlast
    obtain ⟨rfl, -⟩ := run_nil_iff.mp hnil
    have htracks := tracks_step (ih hfirst) (r := (s₂, out))
      (by rw [length_load]; exact hstep)
    rw [length_load] at htracks
    rw [load_concat]
    exact htracks

/-- Every access of the parser is to an entry that was allocated, and every byte it writes is
inside the array of its field. -/
def InBounds (allocated : Bool) (buff : Nat → UInt8) (len : Int) : Prop :=
  ∃ r, parseRentBikeRecord allocated buff len = .ok r

/-- Every separator of the payload fits. -/
def PayloadFits (entries : Nat) (payload : List UInt8) : Prop :=
  ∀ pre c post, payload = pre ++ c :: post → IsSeparator c → SeparatorFits entries pre c

/-- The steps of a run over `n` bytes complete exactly when its separators fit. -/
theorem run_completes_iff_fits (buff : Nat → UInt8) (entries n : Nat) :
    (∃ r, run (parseStep buff) (.initial entries) (List.range' 11 n) = .ok r) ↔
      PayloadFits entries (load buff 11 n) := by
  constructor
  · intro h pre c post hsplit hsep
    obtain ⟨r, hrun⟩ := h
    have hlen : n = pre.length + (post.length + 1) := by
      rw [← length_load buff 11 n, hsplit]
      simp
    have hpre : load buff 11 n = load buff 11 pre.length ++ _ := load_split buff 11 n (by omega)
    rw [hsplit] at hpre
    obtain ⟨hpre, hrest⟩ := List.append_inj hpre (by rw [length_load])
    have hc : c = buff (11 + pre.length) := (List.cons.inj hrest).1
    rw [hlen, ← List.range'_append_1] at hrun
    obtain ⟨s₁, outs₁, outs₂, hfirst, hlast, -⟩ := run_append_iff.mp hrun
    rw [List.range'_succ] at hlast
    obtain ⟨s₂, out, outs₃, hstep, -, -⟩ := run_cons_iff.mp hlast
    have htracks := run_tracks hfirst
    rw [← hpre] at htracks
    rw [hc] at hsep ⊢
    exact (step_completes_iff buff htracks).mp ⟨_, hstep⟩ hsep
  · induction n with
    | zero => exact fun _ => ⟨_, rfl⟩
    | succ n ih =>
      intro hfits
      rw [load_concat] at hfits
      obtain ⟨⟨s, outs⟩, hrun⟩ := ih fun pre c post hsplit =>
        hfits pre c (post ++ [buff (11 + n)]) (by rw [hsplit]; simp)
      have hlast := hfits (load buff 11 n) (buff (11 + n)) [] rfl
      have hstep := step_completes_iff buff (run_tracks hrun)
      rw [length_load] at hstep
      obtain ⟨⟨s', out⟩, hs'⟩ := hstep.mpr hlast
      rw [List.range'_concat, Nat.one_mul]
      exact ⟨_, run_append_iff.mpr ⟨s, outs, [out], hrun, run_cons_ok hs' rfl, rfl⟩⟩

/-- The parser stays in bounds exactly when, at every TAB and LF of the payload, the record
that it belongs to was allocated and the field that it ends fits into its array. -/
theorem rental_in_bounds_iff (allocated : Bool) (buff : Nat → UInt8) (len : Int) :
    InBounds allocated buff len ↔
      PayloadFits (callocEntries allocated (buff 8)) (load buff 11 len.toNat) := by
  rw [← run_completes_iff_fits, InBounds, parseRentBikeRecord]
  by_cases hlen : len ≤ 0
  · have hzero : len.toNat = 0 := by omega
    rw [if_pos hlen, hzero]
    exact ⟨fun _ => ⟨_, rfl⟩, fun _ => ⟨_, rfl⟩⟩
  · rw [if_neg hlen]
    constructor
    · intro h
      obtain ⟨r, hr⟩ := h
      cases hrun : run (parseStep buff) (.initial (callocEntries allocated (buff 8)))
          (List.range' 11 len.toNat) with
      | error e => rw [hrun] at hr; cases hr
      | ok q => exact ⟨q, rfl⟩
    · intro h
      obtain ⟨q, hq⟩ := h
      exact ⟨_, by rw [hq]; rfl⟩

/-- A message that announces one record: 32 characters and a TAB. -/
def fullBikeNO : Nat → UInt8 :=
  store (fun _ => 0) 8 ([1, 0, 33] ++ List.replicate 32 0x30 ++ [tab])

/-- A message that announces no record and has one LF. -/
def unannounced : Nat → UInt8 := store (fun _ => 0) 8 [0, 0, 1, lf]

/-- The NUL of a field as long as its array goes behind the array, and a record that was not
announced goes to an entry that was not allocated. -/
theorem rental_out_of_bounds : ¬ InBounds true fullBikeNO 33 ∧ ¬ InBounds true unannounced 1 := by
  have hfull : (parseRentBikeRecord true fullBikeNO 33).toOption.isSome = false := by
    decide
  have hmore : (parseRentBikeRecord true unannounced 1).toOption.isSome = false := by
    decide
  constructor
  · intro h
    obtain ⟨r, hr⟩ := h
    rw [hr] at hfull
    cases hfull
  · intro h
    obtain ⟨r, hr⟩ := h
    rw [hr] at hmore
    cases hmore

end BackupSoftware.RentRecord

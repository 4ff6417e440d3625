import Mathlib.Data.List.Basic
import BackupSoftware.Blacklist.Import

/-!
# Which files are imported as they are written

A line gives one insertion for each of its pieces that is not blank. Where it has three fields
to insert, its first piece is not blank, so a file is imported as it is written only if every
line is, and a line ending in the third field or a second piece spoils its line.
-/

namespace BackupSoftware.Blacklist

theorem splitOn_eq_cons {s f : List UInt8} {fs : List (List UInt8)} (h : s.splitOn tab = f :: fs) :
    tab ∉ f ∧ (fs = [] ∧ s = f ∨ ∃ s', s = f ++ tab :: s' ∧ s'.splitOn tab = fs) := by
  induction s generalizing f with
  | nil =>
    cases h
    exact ⟨by simp, .inl ⟨rfl, rfl⟩⟩
  | cons c s ih =>
    rw [List.splitOn_cons_eq_if_modifyHead] at h
    by_cases hc : c = tab
    · subst hc
      rw [if_pos (by simp)] at h
      cases h
      exact ⟨by simp, .inr ⟨s, rfl, rfl⟩⟩
    · rw [if_neg (by simpa using hc)] at h
      obtain ⟨f', fs', hs⟩ := List.exists_cons_of_ne_nil (List.splitOn_ne_nil tab s)
      rw [hs, List.modifyHead_cons] at h
      cases h
      obtain ⟨hfree, hrest⟩ := ih hs
      refine ⟨by simp [Ne.symm hc, hfree], ?_⟩
      rcases hrest with ⟨rfl, rfl⟩ | ⟨s', rfl, hs'⟩
      · exact .inl ⟨rfl, rfl⟩
      · exact .inr ⟨s', rfl, hs'⟩

theorem Line.bytes_eq (l : Line) :
    ∃ ending, l.bytes = l.content ++ ending ∧ (ending = [lf] ∨ ending = [cr, lf]) := by
  unfold Line.bytes Line.content
  split
  · next h =>
    refine ⟨[cr, lf], ?_, .inr rfl⟩
    obtain ⟨s, hs⟩ := List.getLast?_eq_some_iff.mp h
    rw [hs, List.dropLast_concat, List.append_assoc]
    rfl
  · exact ⟨[lf], rfl, .inl rfl⟩

/-- Behind the third field stands a TAB and a further field, or the line ending. -/
theorem Line.of_firstThree {l : Line} {f₁ f₂ f₃ : List UInt8}
    (h : l.firstThree = some (f₁, f₂, f₃)) :
    (f₁ ≠ [] ∧ f₂ ≠ [] ∧ f₃ ≠ []) ∧ (∀ b ∈ f₁ ++ f₂ ++ f₃, b ≠ tab) ∧
      ∃ rest, l.bytes = f₁ ++ tab :: (f₂ ++ tab :: (f₃ ++ rest)) ∧
        (4 ≤ l.fields.length ∧ rest.head? = some tab ∨
          ¬ 4 ≤ l.fields.length ∧ (rest = [lf] ∨ rest = [cr, lf])) := by
  obtain ⟨ending, hbytes, hending⟩ := l.bytes_eq
  unfold Line.firstThree at h
  split at h
  · next g₁ g₂ g₃ fs hfields =>
    split at h
    · next hne =>
      cases h
      obtain ⟨hfree₁, ⟨h, -⟩ | ⟨s₁, hs₁, h₁⟩⟩ := splitOn_eq_cons hfields
      · cases h
      obtain ⟨hfree₂, ⟨h, -⟩ | ⟨s₂, hs₂, h₂⟩⟩ := splitOn_eq_cons h₁
      · cases h
      obtain ⟨hfree₃, hrest⟩ := splitOn_eq_cons h₂
      have hfree : ∀ b ∈ f₁ ++ f₂ ++ f₃, b ≠ tab := by
        simp only [List.mem_append]
        rintro b ((hb | hb) | hb) rfl
        · exact hfree₁ hb
        · exact hfree₂ hb
        · exact hfree₃ hb
      refine ⟨hne, hfree, ?_⟩
      rw [hbytes, hs₁, hs₂, hfields]
      rcases hrest with ⟨rfl, rfl⟩ | ⟨s₃, rfl, h₃⟩
      · exact ⟨ending, by simp, .inr ⟨by simp, hending⟩⟩
      · refine ⟨tab :: s₃ ++ ending, by simp, .inl ⟨?_, rfl⟩⟩
        have hpos := List.length_pos_iff.mpr (List.splitOn_ne_nil tab s₃)
        rw [h₃] at hpos
        simp only [List.length_cons]
        omega
    · cases h
  · cases h

section OneLine

variable {l : Line} {f₁ f₂ f₃ : List UInt8}

theorem Line.first_not_blank (h : l.firstThree = some (f₁, f₂, f₃)) (hnul : ∀ b ∈ f₁, b ≠ 0) :
    ¬ Blank (l.bytes.take (lineBufSize - 1)) := by
  obtain ⟨hne, hfree, rest, hbytes, -⟩ := Line.of_firstThree h
  obtain ⟨b, f, rfl⟩ := List.exists_cons_of_ne_nil hne.1
  have hb0 := hnul b List.mem_cons_self
  intro hblank
  rw [hbytes, Blank, show lineBufSize - 1 = 62 + 1 from rfl, List.cons_append, List.take_succ_cons,
    List.takeWhile_cons_of_pos (by simpa using hb0)] at hblank
  exact hfree b (by simp) (hblank b List.mem_cons_self)

/-- Three fields and the TABs between them. -/
def joined (f₁ f₂ f₃ : List UInt8) : List UInt8 := f₁ ++ tab :: (f₂ ++ tab :: f₃)

theorem length_joined (f₁ f₂ f₃ : List UInt8) :
    (joined f₁ f₂ f₃).length = f₁.length + f₂.length + f₃.length + 2 := by
  simp only [joined, List.length_append, List.length_cons]
  omega

theorem joined_append (f₁ f₂ f₃ rest : List UInt8) :
    f₁ ++ tab :: (f₂ ++ tab :: (f₃ ++ rest)) = joined f₁ f₂ f₃ ++ rest := by
  simp [joined]

theorem joined_ne_zero (h : ∀ b ∈ f₁ ++ f₂ ++ f₃, b ≠ 0) : ∀ b ∈ joined f₁ f₂ f₃, b ≠ 0 := by
  intro b hb
  simp only [joined, List.mem_append, List.mem_cons] at hb h
  rcases hb with hb | rfl | hb | rfl | hb
  · exact h b (.inl (.inl hb))
  · decide
  · exact h b (.inl (.inr hb))
  · decide
  · exact h b (.inr hb)

/-- Where a further TAB ends the third field in the first piece, that piece gives the fields. -/
theorem Line.first_inserts (s : ImportState) (h : l.firstThree = some (f₁, f₂, f₃))
    (hnul : ∀ b ∈ f₁ ++ f₂ ++ f₃, b ≠ 0)
    (hshort : f₁.length + f₂.length + f₃.length + 2 ≤ lineBufSize - 1)
    (hfour : 4 ≤ l.fields.length) :
    (importPiece s (l.bytes.take (lineBufSize - 1))).2 = some ⟨some f₁, some f₂, some f₃⟩ := by
  obtain ⟨hne, hfree, rest, hbytes, hrest | hrest⟩ := Line.of_firstThree h
  swap
  · exact absurd hfour hrest.1
  have hjoined := joined_ne_zero hnul
  rw [joined_append] at hbytes
  rw [← length_joined] at hshort
  apply importPiece_fields s _ hne fun b hb => ⟨hfree b hb, hnul b hb⟩
  · rw [joined_append, hbytes, List.take_append, List.take_of_length_le hshort,
      List.takeWhile_append_of_pos (by simpa using hjoined)]
  · obtain ⟨r, rfl⟩ : ∃ r, rest = tab :: r := List.head?_eq_some_iff.mp hrest.2
    cases lineBufSize - 1 - (joined f₁ f₂ f₃).length with
    | zero => exact .inl rfl
    | succ k =>
      rw [List.take_succ_cons, List.takeWhile_cons_of_pos (by decide)]
      exact .inr rfl

/-- Later pieces without tokens: the fields end in the first one. -/
theorem Line.short_of_later_blank (h : l.firstThree = some (f₁, f₂, f₃))
    (hnul : ∀ b ∈ f₁ ++ f₂ ++ f₃, b ≠ 0) {later : List (List UInt8)}
    (hlater : later.flatten = l.bytes.drop (lineBufSize - 1))
    (hblank : ∀ piece ∈ later, Blank piece) :
    f₁.length + f₂.length + f₃.length + 2 ≤ lineBufSize - 1 := by
  obtain ⟨hne, hfree, rest, hbytes, -⟩ := Line.of_firstThree h
  have hjoined := joined_ne_zero hnul
  by_contra hlong
  obtain ⟨f, x, rfl⟩ := List.eq_nil_or_concat' f₃ |>.resolve_left hne.2.2
  have hlast : joined f₁ f₂ (f ++ [x]) = joined f₁ f₂ f ++ [x] := by simp [joined]
  have hlen := length_joined f₁ f₂ f
  rw [List.length_append, List.length_singleton] at hlong
  rw [joined_append, hlast, List.append_assoc] at hbytes
  rw [hlast] at hjoined
  rw [hbytes, List.drop_append_of_le_length (by omega)] at hlater
  have hx : x ∈ f₁ ++ f₂ ++ (f ++ [x]) := by simp
  refine hfree x hx (eq_tab_of_blank hblank hlater ?_ (hnul x hx))
  intro b hb
  exact hjoined b (List.mem_append_left _ (List.mem_of_mem_drop hb))

/-- A line of three fields: its ending stands in a later piece or belongs to the third token. -/
theorem Line.not_inserts_of_three (s : ImportState) (h : l.firstThree = some (f₁, f₂, f₃))
    (hnul : ∀ b ∈ f₁ ++ f₂ ++ f₃, b ≠ 0) (hthree : ¬ 4 ≤ l.fields.length)
    {later : List (List UInt8)} (hlater : later.flatten = l.bytes.drop (lineBufSize - 1))
    (hblank : ∀ piece ∈ later, Blank piece) :
    (importPiece s (l.bytes.take (lineBufSize - 1))).2 ≠ some ⟨some f₁, some f₂, some f₃⟩ := by
  obtain ⟨hne, hfree, rest, hbytes, hrest | hrest⟩ := Line.of_firstThree h
  · exact absurd hrest.1 hthree
  replace hrest := hrest.2
  have hending : rest ≠ [] ∧ ∀ b ∈ rest, b ≠ tab ∧ b ≠ 0 := by
    rcases hrest with rfl | rfl <;> decide +kernel
  have hjoined := joined_ne_zero hnul
  by_cases hlong : lineBufSize - 1 < l.bytes.length
  · exfalso
    obtain ⟨r, hr⟩ : ∃ r, rest = r ++ [lf] := by
      rcases hrest with rfl | rfl
      · exact ⟨[], rfl⟩
      · exact ⟨[cr], rfl⟩
    rw [joined_append, hr, ← List.append_assoc] at hbytes
    have hlen := congrArg List.length hbytes
    rw [List.length_append, List.length_singleton] at hlen
    rw [hbytes, List.drop_append_of_le_length (by omega)] at hlater
    refine absurd (eq_tab_of_blank hblank hlater ?_ (by decide)) (by decide)
    intro b hb
    rcases List.mem_append.mp (List.mem_of_mem_drop hb) with hb | hb
    · exact hjoined b hb
    · exact (hending.2 b (by rw [hr]; exact List.mem_append_left _ hb)).2
  · rw [List.take_of_length_le (by omega), hbytes]
    have hthird : ∀ b ∈ f₁ ++ f₂ ++ (f₃ ++ rest), b ≠ tab ∧ b ≠ 0 := by
      intro b hb
      rw [← List.append_assoc] at hb
      rcases List.mem_append.mp hb with hb | hb
      · exact ⟨hfree b hb, hnul b hb⟩
      · exact hending.2 b hb
    rw [importPiece_fields s [] ⟨hne.1, hne.2.1, by simp [hne.2.2]⟩ hthird]
    · simp [hending.1]
    · rw [List.append_nil, joined_append, List.takeWhile_eq_self_iff]
      intro b hb
      rcases List.mem_append.mp hb with hb | hb
      · simpa using hjoined b hb
      · simpa using (hending.2 b hb).2
    · exact .inl rfl

/-- What a line inserts is what it says exactly if it is importable. -/
theorem Line.inserts_iff (s : ImportState) (l : Line) :
    importPieces s l.pieces = l.expected.toList ↔ l.Importable := by
  unfold Line.expected Line.Importable
  cases hthree : l.firstThree with
  | none => exact importPieces_eq_nil_iff s l.pieces
  | some fields =>
    obtain ⟨f₁, f₂, f₃⟩ := fields
    obtain ⟨later, hpieces, hlater⟩ := l.pieces_eq
    simp only [Option.map_some, Option.toList_some, hpieces, importPieces, List.tail_cons]
    constructor
    · intro h
      have hnul : ∀ b ∈ f₁ ++ f₂ ++ f₃, b ≠ 0 := by
        have hfree := importPieces_nulFree s l.pieces ⟨some f₁, some f₂, some f₃⟩
          (by rw [hpieces, importPieces, h]; exact List.mem_singleton_self _)
        intro b hb
        simp only [List.mem_append] at hb
        rcases hb with (hb | hb) | hb
        · exact hfree f₁ (.inl rfl) b hb
        · exact hfree f₂ (.inr (.inl rfl)) b hb
        · exact hfree f₃ (.inr (.inr rfl)) b hb
      have hfirst := Line.first_not_blank hthree
        fun b hb => hnul b (List.mem_append_left _ (List.mem_append_left _ hb))
      rw [← importPiece_eq_none_iff s, ← ne_eq, Option.ne_none_iff_exists'] at hfirst
      obtain ⟨t, ht⟩ := hfirst
      rw [ht, Option.toList_some, List.singleton_append, List.cons.injEq,
        importPieces_eq_nil_iff] at h
      obtain ⟨rfl, hblank⟩ := h
      refine ⟨hnul, Line.short_of_later_blank hthree hnul hlater hblank, ?_, hblank⟩
      by_contra hfour
      exact Line.not_inserts_of_three s hthree hnul hfour hlater hblank ht
    · rintro ⟨hnul, hshort, hfour, hblank⟩
      rw [Line.first_inserts s hthree hnul hshort hfour,
        (importPieces_eq_nil_iff _ later).mpr hblank]
      rfl

/-- A line with fields to insert inserts something, unless a NUL hides them. -/
theorem Line.length_expected_le (s : ImportState) (l : Line)
    (h : ∀ t ∈ l.expected, t.NulFree) :
    l.expected.toList.length ≤ (importPieces s l.pieces).length := by
  unfold Line.expected at h ⊢
  cases hthree : l.firstThree with
  | none => exact Nat.zero_le _
  | some fields =>
    obtain ⟨f₁, f₂, f₃⟩ := fields
    obtain ⟨later, hpieces, -⟩ := l.pieces_eq
    rw [hthree] at h
    have hfree := h ⟨some f₁, some f₂, some f₃⟩ rfl
    have hfirst := Line.first_not_blank hthree (hfree f₁ (.inl rfl))
    have hne : importPieces s l.pieces ≠ [] := by
      rw [ne_eq, importPieces_eq_nil_iff, hpieces]
      exact fun hall => hfirst (hall _ List.mem_cons_self)
    exact List.length_pos_iff.mpr hne

end OneLine

/-- In a line of text without NUL: three fields that are not empty, at least one more, and the
whole line in one piece. -/
theorem Line.importable_iff_of_text {l : Line} (h : ∀ b ∈ l.raw, b ≠ 0) :
    l.Importable ↔
      l.firstThree.isSome ∧ 4 ≤ l.fields.length ∧ l.bytes.length ≤ lineBufSize - 1 := by
  have hlf : lf ≠ 0 ∧ lf ≠ tab := by decide
  obtain ⟨later, hpieces, hlater⟩ := l.pieces_eq
  unfold Line.Importable
  cases hthree : l.firstThree with
  | none =>
    simp only [Option.isSome_none, Bool.false_eq_true, false_and, iff_false]
    intro hblank
    have hflat : l.pieces.flatten = l.raw ++ lf :: [] := flatten_fgetsAll [] l.bytes
    exact hlf.2 (eq_tab_of_blank hblank hflat h hlf.1)
  | some fields =>
    obtain ⟨f₁, f₂, f₃⟩ := fields
    simp only [Option.isSome_some, true_and, hpieces, List.tail_cons]
    constructor
    · rintro ⟨-, -, hfour, hblank⟩
      refine ⟨hfour, ?_⟩
      by_contra hlong
      rw [Line.bytes, List.length_append, List.length_singleton] at hlong
      rw [Line.bytes, List.drop_append_of_le_length (by omega)] at hlater
      refine hlf.2 (eq_tab_of_blank hblank hlater ?_ hlf.1)
      intro b hb
      exact h b (List.mem_of_mem_drop hb)
    · rintro ⟨hfour, hshort⟩
      obtain ⟨-, -, rest, hbytes, -⟩ := Line.of_firstThree hthree
      have hlen := congrArg List.length hbytes
      rw [joined_append, List.length_append, length_joined] at hlen
      refine ⟨?_, by omega, hfour, ?_⟩
      · intro b hb
        have hmem : b ∈ l.bytes := by
          rw [hbytes]
          simp only [List.mem_append, List.mem_cons] at hb ⊢
          tauto
        rcases List.mem_append.mp hmem with hmem | hmem
        · exact h b hmem
        · rw [List.mem_singleton.mp hmem]
          exact hlf.1
      · rw [List.drop_of_length_le hshort, List.flatten_eq_nil_iff] at hlater
        intro piece hpiece
        rw [hlater piece hpiece, Blank]
        simp

def expectedAll (lines : List Line) : List Triple := lines.flatMap fun l => l.expected.toList

theorem length_expectedAll_le (s : ImportState) (lines : List Line)
    (h : ∀ t ∈ expectedAll lines, t.NulFree) :
    (expectedAll lines).length ≤ (importPieces s (lines.flatMap Line.pieces)).length := by
  induction lines generalizing s with
  | nil => exact Nat.zero_le _
  | cons l lines ih =>
    unfold expectedAll at h ih ⊢
    simp only [List.flatMap_cons, List.forall_mem_append, Option.mem_toList] at h
    rw [List.flatMap_cons, List.flatMap_cons, importPieces_append, List.length_append,
      List.length_append]
    exact Nat.add_le_add (l.length_expected_le s h.1) (ih _ h.2)

/-- No line inserts less than it says, so the file is right only if each line is. -/
theorem importPieces_eq_iff (s : ImportState) (lines : List Line) :
    importPieces s (lines.flatMap Line.pieces) = expectedAll lines ↔
      ∀ l ∈ lines, l.Importable := by
  induction lines generalizing s with
  | nil => simp [importPieces, expectedAll]
  | cons l lines ih =>
    have hexpected : expectedAll (l :: lines) = l.expected.toList ++ expectedAll lines := rfl
    rw [List.flatMap_cons, importPieces_append, hexpected, List.forall_mem_cons]
    constructor
    · intro h
      have hfree : ∀ t ∈ l.expected.toList ++ expectedAll lines, t.NulFree := by
        rw [← h, ← importPieces_append]
        exact importPieces_nulFree s _
      simp only [List.forall_mem_append, Option.mem_toList] at hfree
      have hline := l.length_expected_le s hfree.1
      have hlines := length_expectedAll_le (afterPieces s l.pieces) lines hfree.2
      have htotal := congrArg List.length h
      rw [List.length_append, List.length_append] at htotal
      obtain ⟨hl, hls⟩ := List.append_inj h (by omega)
      exact ⟨(l.inserts_iff s).mp hl, (ih _).mp hls⟩
    · intro h
      rw [(l.inserts_iff s).mpr h.1, (ih _).mpr h.2]

/-- The loop inserts what the file says exactly if every line is importable. -/
theorem import_inserts_file_iff (lines : List Line) :
    importFile (lines.flatMap Line.bytes) = expectedAll lines ↔ ∀ l ∈ lines, l.Importable := by
  rw [importFile, fgetsAll_lines]
  exact importPieces_eq_iff _ lines

def Line.of (raw : List UInt8) (h : raw.contains lf = false) : Line := ⟨raw, by simpa using h⟩

/-- The line `a TAB b TAB c` inserts its ending with the third field, and an empty line behind it
inserts once more, with the places of `b` and `c` in the buffer. -/
theorem import_keeps_line_ending :
    importFile ([Line.of [97, 9, 98, 9, 99] rfl, Line.of [] rfl].flatMap Line.bytes) =
        [⟨some [97], some [98], some [99, 10]⟩, ⟨some [10], some [98], some [99, 10]⟩] ∧
      importFile ([Line.of [97, 9, 98, 9, 99] rfl, Line.of [] rfl].flatMap Line.bytes) ≠
        expectedAll [Line.of [97, 9, 98, 9, 99] rfl, Line.of [] rfl] := by
  decide

end BackupSoftware.Blacklist

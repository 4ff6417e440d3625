import Mathlib.Data.List.GetD
import Mathlib.Data.List.TakeWhile
import Mathlib.Tactic.Common

/-!
# Importing a blacklist file

The loop of `main` reads the file in pieces of at most 63 bytes, takes up to three tokens of
a piece and passes three pointers into the line buffer to the database. A pointer for which
a piece has no token keeps the place that an earlier piece gave it, and the line ending is no
delimiter.
-/

namespace BackupSoftware.Blacklist

def tab : UInt8 := 9
def lf : UInt8 := 10
def cr : UInt8 := 13

/-- `sizeof(line_buf)`. -/
def lineBufSize : Nat := 64

/-- What the calls of `fgets` store one after the other, the first of them behind the bytes `got`
that it has read already. -/
def fgetsAll (got : List UInt8) : List UInt8 → List (List UInt8)
  | [] => if got = [] then [] else [got]
  | c :: file =>
      if c = lf ∨ got.length + 1 = lineBufSize - 1 then (got ++ [c]) :: fgetsAll [] file
      else fgetsAll (got ++ [c]) file

/-- What a call of `strtok` leaves: its result, the buffer and its own pointer. -/
structure Strtok where
  token : Option Nat
  buf : List UInt8
  save : Nat

/-- The number of bytes from `p` on that satisfy `q`. -/
def spanAt (q : UInt8 → Bool) (buf : List UInt8) (p : Nat) : Nat := ((buf.drop p).takeWhile q).length

/-- `strtok` with the delimiter TAB, from the offset `p` of the buffer. -/
def strtok (buf : List UInt8) (p : Nat) : Strtok :=
  let start := p + spanAt (fun b => b = tab) buf p
  if buf.getD start 0 = 0 then ⟨none, buf, start⟩
  else
    let stop := start + spanAt (fun b => b ≠ tab ∧ b ≠ 0) buf start
    if buf.getD stop 0 = 0 then ⟨some start, buf, stop⟩
    else ⟨some start, buf.set stop 0, stop + 1⟩

/-- The variables of the loop; a pointer is an offset into the buffer, or `NULL`. -/
structure ImportState where
  lineBuf : List UInt8
  pid : Option Nat
  lid : Option Nat
  type : Option Nat

/-- The strings that the three arguments point to. -/
structure Triple where
  pid : Option (List UInt8)
  lid : Option (List UInt8)
  type : Option (List UInt8)
  deriving DecidableEq

def cString (buf : List UInt8) (p : Nat) : List UInt8 := (buf.drop p).takeWhile fun b => b ≠ 0

/-- The arguments of `lib_bl_insert_data_v2`. -/
def ImportState.arguments (s : ImportState) : Triple :=
  ⟨s.pid.map (cString s.lineBuf), s.lid.map (cString s.lineBuf), s.type.map (cString s.lineBuf)⟩

/-- One turn of the loop, on what `fgets` has stored, and the insertion that it makes. -/
def importPiece (s : ImportState) (piece : List UInt8) : ImportState × Option Triple :=
  let first := strtok (piece ++ 0 :: s.lineBuf.drop (piece.length + 1)) 0
  match first.token with
  | none => ({ s with lineBuf := first.buf }, none)
  | some pid =>
      let second := strtok first.buf first.save
      match second.token with
      | none =>
          let s := { s with lineBuf := second.buf, pid := some pid }
          (s, some s.arguments)
      | some lid =>
          let third := strtok second.buf second.save
          match third.token with
          | none =>
              let s := { s with lineBuf := third.buf, pid := some pid, lid := some lid }
              (s, some s.arguments)
          | some type =>
              let s := ⟨third.buf, some pid, some lid, some type⟩
              (s, some s.arguments)

/-- The insertions of the loop, each of which succeeds. -/
def importPieces (s : ImportState) : List (List UInt8) → List Triple
  | [] => []
  | piece :: rest => (importPiece s piece).2.toList ++ importPieces (importPiece s piece).1 rest

def importFile (file : List UInt8) : List Triple :=
  importPieces ⟨List.replicate lineBufSize 0, none, none, none⟩ (fgetsAll [] file)

/-- A line without its LF. -/
structure Line where
  raw : List UInt8
  no_lf : lf ∉ raw

def Line.bytes (l : Line) : List UInt8 := l.raw ++ [lf]

/-- The line without its ending, which is LF or CR LF. -/
def Line.content (l : Line) : List UInt8 :=
  if l.raw.getLast? = some cr then l.raw.dropLast else l.raw

def Line.fields (l : Line) : List (List UInt8) := l.content.splitOn tab

/-- The first three fields of a line that has three, if none of them is empty. -/
def Line.firstThree (l : Line) : Option (List UInt8 × List UInt8 × List UInt8) :=
  match l.fields with
  | f₁ :: f₂ :: f₃ :: _ => if f₁ ≠ [] ∧ f₂ ≠ [] ∧ f₃ ≠ [] then some (f₁, f₂, f₃) else none
  | _ => none

def Line.expected (l : Line) : Option Triple :=
  l.firstThree.map fun (f₁, f₂, f₃) => ⟨some f₁, some f₂, some f₃⟩

/-- The pieces in which the line is read. -/
def Line.pieces (l : Line) : List (List UInt8) := fgetsAll [] l.bytes

/-- A piece in which `strtok` finds no token: nothing but TABs before its end or a NUL. -/
def Blank (piece : List UInt8) : Prop := ∀ b ∈ piece.takeWhile (fun b => b ≠ 0), b = tab

/-- The line is read as it should be: its three fields are those of its first piece, a further
TAB ends the third of them, and no other piece has a token. -/
def Line.Importable (l : Line) : Prop :=
  match l.firstThree with
  | some (f₁, f₂, f₃) =>
      (∀ b ∈ f₁ ++ f₂ ++ f₃, b ≠ 0) ∧ f₁.length + f₂.length + f₃.length + 2 ≤ lineBufSize - 1 ∧
        4 ≤ l.fields.length ∧ ∀ piece ∈ l.pieces.tail, Blank piece
  | none => ∀ piece ∈ l.pieces, Blank piece

section Tokens

variable (pre post : List UInt8) {f : List UInt8} {c : UInt8}

theorem spanAt_append {q : UInt8 → Bool} (hf : ∀ b ∈ f, q b = true) (hc : q c = false) :
    spanAt q (pre ++ (f ++ c :: post)) pre.length = f.length := by
  unfold spanAt
  rw [List.drop_left, List.takeWhile_append_of_pos hf, List.takeWhile_cons_of_neg (by simp [hc]),
    List.append_nil]

theorem getD_append (f : List UInt8) (c : UInt8) :
    (pre ++ (f ++ c :: post)).getD (pre.length + f.length) 0 = c := by
  rw [← List.append_assoc, ← List.length_append, List.getD_append_right _ _ _ _ (Nat.le_refl _),
    Nat.sub_self, List.getD_cons_zero]

/-- A field that a TAB or the end of the string ends: its last byte is followed by a NUL then. -/
theorem strtok_field (hne : f ≠ []) (hfree : ∀ b ∈ f, b ≠ tab ∧ b ≠ 0) (hc : c = tab ∨ c = 0) :
    strtok (pre ++ (f ++ c :: post)) pre.length =
      ⟨some pre.length, pre ++ (f ++ 0 :: post),
        pre.length + f.length + if c = 0 then 0 else 1⟩ := by
  obtain ⟨b, f', rfl⟩ := List.exists_cons_of_ne_nil hne
  obtain ⟨hbtab, hb0⟩ := hfree b List.mem_cons_self
  have hstart : spanAt (fun b => b = tab) (pre ++ ([] ++ b :: (f' ++ c :: post))) pre.length = 0 :=
    spanAt_append pre _ (by simp) (by simpa using hbtab)
  have hfirst := getD_append pre (f' ++ c :: post) [] b
  have hstop : spanAt (fun b => b ≠ tab ∧ b ≠ 0) (pre ++ ((b :: f') ++ c :: post)) pre.length =
      (b :: f').length := by
    apply spanAt_append
    · intro x hx
      simpa using hfree x hx
    · rcases hc with rfl | rfl <;> simp
  have hend := getD_append pre post (b :: f') c
  rw [List.nil_append, ← List.cons_append] at hstart hfirst
  rw [List.length_nil, Nat.add_zero] at hfirst
  unfold strtok
  simp only [hstart, Nat.add_zero, hfirst, if_neg hb0, hstop, hend]
  by_cases h0 : c = 0
  · subst h0
    simp
  · rw [if_neg h0, if_neg h0, ← List.append_assoc, ← List.length_append,
      List.set_append_right _ _ (Nat.le_refl _), Nat.sub_self, List.set_cons_zero, List.append_assoc]

theorem cString_field (hfree : ∀ b ∈ f, b ≠ 0) :
    cString (pre ++ (f ++ 0 :: post)) pre.length = f := by
  unfold cString
  rw [List.drop_left, List.takeWhile_append_of_pos (by simpa using hfree),
    List.takeWhile_cons_of_neg (by simp), List.append_nil]

/-- The string in the buffer ends where the piece or its first NUL does. -/
theorem exists_stored (piece old : List UInt8) :
    ∃ post, piece ++ 0 :: old = piece.takeWhile (fun b => b ≠ 0) ++ 0 :: post := by
  induction piece with
  | nil => exact ⟨old, rfl⟩
  | cons b piece ih =>
    by_cases hb : b = 0
    · subst hb
      exact ⟨piece ++ 0 :: old, rfl⟩
    · obtain ⟨post, hpost⟩ := ih
      refine ⟨post, ?_⟩
      rw [List.takeWhile_cons_of_pos (by simpa using hb), List.cons_append, hpost, List.cons_append]

end Tokens

/-- The first byte of the buffer that is no TAB is a NUL exactly for a blank piece. -/
theorem exists_first (piece old : List UInt8) :
    ∃ tabs c post, piece ++ 0 :: old = tabs ++ c :: post ∧ (∀ b ∈ tabs, b = tab) ∧ c ≠ tab ∧
      (c = 0 ↔ Blank piece) := by
  induction piece with
  | nil => exact ⟨[], 0, old, rfl, by simp, by decide, by simp [Blank]⟩
  | cons b piece ih =>
    by_cases htab : b = tab
    · subst htab
      obtain ⟨tabs, c, post, heq, htabs, hc, hblank⟩ := ih
      refine ⟨tab :: tabs, c, post, by rw [List.cons_append, heq]; rfl, by simpa using htabs, hc, ?_⟩
      rw [hblank, Blank, Blank, List.takeWhile_cons_of_pos (by decide)]
      simp
    · refine ⟨[], b, piece ++ 0 :: old, rfl, by simp, htab, ?_⟩
      constructor
      · rintro rfl
        simp [Blank]
      · intro hblank
        by_contra hb
        rw [Blank, List.takeWhile_cons_of_pos (by simpa using hb)] at hblank
        exact htab (hblank b List.mem_cons_self)

theorem strtok_token_eq_none_iff (piece old : List UInt8) :
    (strtok (piece ++ 0 :: old) 0).token = none ↔ Blank piece := by
  obtain ⟨tabs, c, post, heq, htabs, hc, hblank⟩ := exists_first piece old
  have hspan := spanAt_append [] post (q := fun b => b = tab) (c := c)
    (by simpa using htabs) (by simpa using hc)
  have hget := getD_append [] post tabs c
  simp only [List.nil_append, List.length_nil, Nat.zero_add] at hspan hget
  rw [heq, ← hblank, strtok]
  simp only [hspan, hget, Nat.zero_add]
  by_cases h0 : c = 0
  · simp [h0]
  · simp only [h0, if_false, iff_false]
    split <;> simp

theorem importPiece_eq_none_iff (s : ImportState) (piece : List UInt8) :
    (importPiece s piece).2 = none ↔ Blank piece := by
  rw [← strtok_token_eq_none_iff piece (s.lineBuf.drop (piece.length + 1))]
  unfold importPiece
  dsimp only
  split
  · next h => simp [h]
  · next h =>
    simp only [h]
    split
    · simp
    · split <;> simp

section Fields

variable {f₁ f₂ f₃ : List UInt8}

/-- Three fields at the start of a piece are what is inserted, whatever the loop read before. -/
theorem importPiece_fields (s : ImportState) {piece : List UInt8} (rest : List UInt8)
    (hne : f₁ ≠ [] ∧ f₂ ≠ [] ∧ f₃ ≠ []) (hfree : ∀ b ∈ f₁ ++ f₂ ++ f₃, b ≠ tab ∧ b ≠ 0)
    (htext : piece.takeWhile (fun b => b ≠ 0) = f₁ ++ tab :: (f₂ ++ tab :: (f₃ ++ rest)))
    (hrest : rest = [] ∨ rest.head? = some tab) :
    (importPiece s piece).2 = some ⟨some f₁, some f₂, some f₃⟩ := by
  simp only [List.forall_mem_append] at hfree
  obtain ⟨⟨hfree₁, hfree₂⟩, hfree₃⟩ := hfree
  obtain ⟨c, post, hc, hbuf⟩ : ∃ c post, (c = tab ∨ c = 0) ∧
      piece ++ 0 :: s.lineBuf.drop (piece.length + 1) =
        [] ++ (f₁ ++ tab :: (f₂ ++ tab :: (f₃ ++ c :: post))) := by
    obtain ⟨post, hpost⟩ := exists_stored piece (s.lineBuf.drop (piece.length + 1))
    rw [hpost, htext]
    cases rest with
    | nil => exact ⟨0, post, .inr rfl, by simp⟩
    | cons b rest =>
      have hb : b = tab := by simpa using hrest
      exact ⟨b, rest ++ 0 :: post, .inl hb, by simp⟩
  have htab : tab ≠ 0 := by decide
  have hfirst := strtok_field [] (f₂ ++ tab :: (f₃ ++ c :: post)) hne.1 hfree₁ (.inl rfl)
  have hsecond := strtok_field (f₁ ++ [0]) (f₃ ++ c :: post) hne.2.1 hfree₂ (.inl rfl)
  have hthird := strtok_field (f₁ ++ [0] ++ f₂ ++ [0]) post hne.2.2 hfree₃ hc
  have hpid := cString_field [] (f₂ ++ 0 :: (f₃ ++ 0 :: post)) fun b hb => (hfree₁ b hb).2
  have hlid := cString_field (f₁ ++ [0]) (f₃ ++ 0 :: post) fun b hb => (hfree₂ b hb).2
  have htype := cString_field (f₁ ++ [0] ++ f₂ ++ [0]) post fun b hb => (hfree₃ b hb).2
  simp only [if_neg htab, List.length_append, List.length_cons, List.length_nil, List.append_assoc,
    List.cons_append, List.nil_append, Nat.zero_add, ← Nat.add_assoc]
    at hfirst hsecond hthird hpid hlid htype
  rw [Nat.add_right_comm f₁.length 1] at hsecond
  unfold importPiece
  rw [hbuf]
  simp only [List.nil_append, hfirst, hsecond, hthird, ImportState.arguments, Option.map_some, hpid,
    hlid, htype]

end Fields

theorem flatten_fgetsAll (got file : List UInt8) : (fgetsAll got file).flatten = got ++ file := by
  induction file generalizing got with
  | nil =>
    rw [fgetsAll]
    split
    · next h => rw [h]; rfl
    · simp
  | cons c file ih =>
    rw [fgetsAll]
    split
    · rw [List.flatten_cons, ih]
      simp
    · rw [ih]
      simp

/-- After the end of a line the reading starts anew. -/
theorem fgetsAll_line {raw : List UInt8} (h : lf ∉ raw) (got rest : List UInt8) :
    fgetsAll got (raw ++ lf :: rest) = fgetsAll got (raw ++ [lf]) ++ fgetsAll [] rest := by
  induction raw generalizing got with
  | nil => simp [fgetsAll]
  | cons c raw ih =>
    have hraw : lf ∉ raw := fun hmem => h (List.mem_cons_of_mem _ hmem)
    rw [List.cons_append, List.cons_append, fgetsAll, fgetsAll]
    split
    · rw [ih hraw, List.cons_append]
    · rw [ih hraw]

theorem fgetsAll_lines (lines : List Line) :
    fgetsAll [] (lines.flatMap Line.bytes) = lines.flatMap Line.pieces := by
  induction lines with
  | nil => rfl
  | cons l lines ih =>
    have hline := fgetsAll_line l.no_lf [] (lines.flatMap Line.bytes)
    rw [ih] at hline
    rw [List.flatMap_cons, List.flatMap_cons, Line.pieces, Line.bytes, ← hline, List.append_assoc]
    rfl

/-- The first piece of a line takes what fits the buffer. -/
theorem fgetsAll_first {raw : List UInt8} (h : lf ∉ raw) {got : List UInt8}
    (hgot : got.length < lineBufSize - 1) :
    ∃ later, fgetsAll got (raw ++ [lf]) = (got ++ (raw ++ [lf])).take (lineBufSize - 1) :: later ∧
      later.flatten = (got ++ (raw ++ [lf])).drop (lineBufSize - 1) := by
  induction raw generalizing got with
  | nil =>
    refine ⟨[], ?_, ?_⟩
    · rw [List.take_of_length_le (by simp; omega)]
      simp [fgetsAll]
    · rw [List.drop_of_length_le (by simp; omega)]
      rfl
  | cons c raw ih =>
    have hraw : lf ∉ raw := fun hmem => h (List.mem_cons_of_mem _ hmem)
    have hc : c ≠ lf := fun heq => h (heq ▸ List.mem_cons_self)
    rw [List.cons_append, fgetsAll, List.append_cons got c (raw ++ [lf])]
    by_cases hfull : got.length + 1 = lineBufSize - 1
    · rw [if_pos (.inr hfull)]
      have hlen : (got ++ [c]).length = lineBufSize - 1 := by simpa using hfull
      refine ⟨fgetsAll [] (raw ++ [lf]), ?_, ?_⟩
      · rw [List.take_left' hlen]
      · rw [List.drop_left' hlen, flatten_fgetsAll, List.nil_append]
    · rw [if_neg (by simp [hc, hfull])]
      exact ih hraw (by simp; omega)

theorem Line.pieces_eq (l : Line) :
    ∃ later, l.pieces = l.bytes.take (lineBufSize - 1) :: later ∧
      later.flatten = l.bytes.drop (lineBufSize - 1) :=
  fgetsAll_first l.no_lf (by decide)

/-- In pieces without tokens nothing but TABs stands before the first NUL. -/
theorem eq_tab_of_blank {pieces : List (List UInt8)} (h : ∀ piece ∈ pieces, Blank piece)
    {u v : List UInt8} {x : UInt8} (heq : pieces.flatten = u ++ x :: v) (hu : ∀ b ∈ u, b ≠ 0)
    (hx : x ≠ 0) : x = tab := by
  induction pieces generalizing u with
  | nil => cases u <;> cases heq
  | cons piece pieces ih =>
    have hpieces : ∀ p ∈ pieces, Blank p := fun p hp => h p (List.mem_cons_of_mem _ hp)
    rw [List.flatten_cons] at heq
    rcases List.append_eq_append_iff.mp heq with ⟨w, hw, hflat⟩ | ⟨w, hw, hflat⟩
    · apply ih hpieces hflat
      intro b hb
      exact hu b (by rw [hw]; exact List.mem_append_right _ hb)
    · cases w with
      | nil => exact ih hpieces (u := []) hflat.symm (by simp)
      | cons b w =>
        cases hflat
        have hblank := h piece List.mem_cons_self
        rw [Blank, hw, List.takeWhile_append_of_pos (by simpa using hu),
          List.takeWhile_cons_of_pos (by simpa using hx)] at hblank
        exact hblank x (by simp)

/-- The state after some pieces. -/
def afterPieces (s : ImportState) (pieces : List (List UInt8)) : ImportState :=
  pieces.foldl (fun s piece => (importPiece s piece).1) s

theorem importPieces_append (s : ImportState) (pieces rest : List (List UInt8)) :
    importPieces s (pieces ++ rest) =
      importPieces s pieces ++ importPieces (afterPieces s pieces) rest := by
  induction pieces generalizing s with
  | nil => rfl
  | cons piece pieces ih =>
    rw [List.cons_append, importPieces, importPieces, ih, List.append_assoc]
    rfl

theorem importPieces_eq_nil_iff (s : ImportState) (pieces : List (List UInt8)) :
    importPieces s pieces = [] ↔ ∀ piece ∈ pieces, Blank piece := by
  induction pieces generalizing s with
  | nil => simp [importPieces]
  | cons piece pieces ih =>
    rw [importPieces, List.append_eq_nil_iff, ih, List.forall_mem_cons, Option.toList_eq_nil_iff,
      importPiece_eq_none_iff]

/-- The strings of an insertion end before a NUL. -/
def Triple.NulFree (t : Triple) : Prop :=
  ∀ f, t.pid = some f ∨ t.lid = some f ∨ t.type = some f → ∀ b ∈ f, b ≠ 0

theorem arguments_nulFree (s : ImportState) : s.arguments.NulFree := by
  have hstring : ∀ p : Option Nat, ∀ f, p.map (cString s.lineBuf) = some f → ∀ b ∈ f, b ≠ 0 := by
    intro p f hf b hb
    obtain ⟨a, -, rfl⟩ := Option.map_eq_some_iff.mp hf
    simpa using List.mem_takeWhile_imp hb
  intro f hf
  rcases hf with hf | hf | hf
  · exact hstring s.pid f hf
  · exact hstring s.lid f hf
  · exact hstring s.type f hf

theorem importPiece_nulFree (s : ImportState) (piece : List UInt8) {t : Triple}
    (h : (importPiece s piece).2 = some t) : t.NulFree := by
  unfold importPiece at h
  dsimp only at h
  split at h
  · cases h
  · split at h
    · cases h
      exact arguments_nulFree _
    · split at h
      · cases h
        exact arguments_nulFree _
      · cases h
        exact arguments_nulFree _

theorem importPieces_nulFree (s : ImportState) (pieces : List (List UInt8)) :
    ∀ t ∈ importPieces s pieces, t.NulFree := by
  induction pieces generalizing s with
  | nil => simp [importPieces]
  | cons piece pieces ih =>
    intro t ht
    rcases List.mem_append.mp ht with ht | ht
    · exact importPiece_nulFree s piece (Option.mem_toList.mp ht)
    · exact ih _ t ht

end BackupSoftware.Blacklist

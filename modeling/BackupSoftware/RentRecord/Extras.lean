import BackupSoftware.RentRecord.Fields

/-!
# Records with more than seven fields

The field counter starts again at 1 behind the seventh field, so that further fields of
a record, and its LF, are written over the fields from `rent_name` on.
-/

namespace BackupSoftware.RentRecord

open BackupSoftware.Library.Memory

section Line

variable {n e : Nat} {xs : List (List UInt8)} {t t' : Rental} {f : Field}

theorem storeField_self {bytes : List UInt8} (h : storeField e t bytes = some t')
    (hf : fieldOf (fieldNumber e) = some f) : t' f = upToNul bytes ∧ bytes.length < f.width := by
  rw [storeField, hf] at h
  simp only at h
  split at h
  · next hfits =>
    cases h
    exact ⟨Function.update_self _ _ _, hfits⟩
  · cases h

theorem storeField_other {bytes : List UInt8} (h : storeField e t bytes = some t')
    (hf : fieldOf (fieldNumber e) ≠ some f) : t' f = t f := by
  unfold storeField at h
  split at h
  · cases h
    rfl
  · next g hg =>
    split at h
    · cases h
      exact Function.update_of_ne (fun heq => hf (by rw [hg, heq])) _ _
    · cases h

theorem storeField_isSome_iff {bytes : List UInt8} :
    (∃ t', storeField e t bytes = some t') ↔
      ∀ f, fieldOf (fieldNumber e) = some f → bytes.length < f.width := by
  constructor
  · intro h f hf
    obtain ⟨t', h⟩ := h
    exact (storeField_self h hf).2
  · intro h
    rw [storeField]
    split
    · exact ⟨t, rfl⟩
    · next f hf =>
      rw [if_pos (h f hf)]
      exact ⟨_, rfl⟩

theorem storeLine_cons_iff {x : List UInt8} :
    storeLine n e (x :: xs) t = some t' ↔
      ∃ u, storeField e t (copied n e x tab) = some u ∧ storeLine n (e + 1) xs u = some t' :=
  Option.bind_eq_some_iff

theorem copied_of_pos (he : 1 ≤ e) (text : List UInt8) (c : UInt8) :
    copied n e text c = text ++ [c] :=
  if_neg fun h => by omega

/-- The LF is the value of the field whose turn it is. -/
theorem storeLine_lf (h : storeLine n e xs t = some t') (he : 1 ≤ e)
    (hf : fieldOf (fieldNumber (e + xs.length)) = some f) : t' f = [lf] := by
  induction xs generalizing e t with
  | nil =>
    rw [storeLine, copied_of_pos he] at h
    exact (storeField_self h hf).1
  | cons x xs ih =>
    obtain ⟨u, -, hrest⟩ := storeLine_cons_iff.mp h
    refine ih hrest (by omega) ?_
    rw [List.length_cons] at hf
    rw [Nat.add_assoc, Nat.add_comm 1]
    exact hf

/-- A field whose turn does not come is kept. -/
theorem storeLine_kept (h : storeLine n e xs t = some t')
    (hf : ∀ i ≤ xs.length, fieldOf (fieldNumber (e + i)) ≠ some f) : t' f = t f := by
  induction xs generalizing e t with
  | nil => exact storeField_other h (hf 0 (Nat.le_refl 0))
  | cons x xs ih =>
    obtain ⟨u, hfirst, hrest⟩ := storeLine_cons_iff.mp h
    have hlater : t' f = u f := by
      refine ih hrest fun i hi => ?_
      rw [Nat.add_assoc, Nat.add_comm 1]
      exact hf (i + 1) (Nat.succ_le_succ hi)
    exact hlater.trans (storeField_other hfirst (hf 0 (Nat.zero_le _)))

/-- Otherwise it has the last value that was written to it. -/
theorem storeLine_last (h : storeLine n e xs t = some t') (he : 1 ≤ e) {j : Nat} {x : List UInt8}
    (hx : xs[j]? = some x) (hf : fieldOf (fieldNumber (e + j)) = some f)
    (hlast : ∀ i, j < i → i ≤ xs.length → fieldOf (fieldNumber (e + i)) ≠ some f) :
    t' f = upToNul (x ++ [tab]) := by
  induction xs generalizing e t j with
  | nil => cases hx
  | cons y xs ih =>
    obtain ⟨u, hfirst, hrest⟩ := storeLine_cons_iff.mp h
    have hlater (i : Nat) (hi : j < i + 1) (hle : i ≤ xs.length) :
        fieldOf (fieldNumber (e + 1 + i)) ≠ some f := by
      rw [Nat.add_assoc, Nat.add_comm 1]
      exact hlast (i + 1) hi (Nat.succ_le_succ hle)
    cases j with
    | zero =>
      cases hx
      rw [storeLine_kept hrest fun i hi => hlater i (Nat.succ_pos i) hi,
        (storeField_self hfirst hf).1, copied_of_pos he]
    | succ j =>
      refine ih hrest (by omega) hx ?_ fun i hi hle => hlater i (Nat.succ_lt_succ hi) hle
      rw [Nat.add_assoc, Nat.add_comm 1]
      exact hf

/-- The line is stored exactly if each field that has a place fits there. -/
theorem storeLine_isSome_iff (he : 1 ≤ e) :
    (∃ t', storeLine n e xs t = some t') ↔ ∀ j x f, xs[j]? = some x →
      fieldOf (fieldNumber (e + j)) = some f → x.length + 1 < f.width := by
  induction xs generalizing e t with
  | nil =>
    refine iff_of_true ?_ fun j x f hx => by cases hx
    rw [storeLine, copied_of_pos he]
    refine storeField_isSome_iff.mpr fun f _ => ?_
    cases f <;> decide
  | cons y xs ih =>
    have hsucc (j : Nat) : e + 1 + j = e + (j + 1) := by omega
    constructor
    · intro h j x f hx hf
      obtain ⟨t', h⟩ := h
      obtain ⟨u, hfirst, hrest⟩ := storeLine_cons_iff.mp h
      cases j with
      | zero =>
        cases hx
        have hfits := (storeField_self hfirst hf).2
        rwa [copied_of_pos he, List.length_append, List.length_singleton] at hfits
      | succ j =>
        refine (ih (by omega)).mp ⟨t', hrest⟩ j x f hx ?_
        rw [hsucc]
        exact hf
    · intro hfits
      have hfirst : ∃ u, storeField e t (copied n e y tab) = some u := by
        refine storeField_isSome_iff.mpr fun f hf => ?_
        rw [copied_of_pos he, List.length_append, List.length_singleton]
        exact hfits 0 y f rfl hf
      obtain ⟨u, hfirst⟩ := hfirst
      have hrest : ∃ t', storeLine n (e + 1) xs u = some t' := by
        refine (ih (by omega)).mpr fun j x f hx hf => hfits (j + 1) x f hx ?_
        rw [← hsucc]
        exact hf
      obtain ⟨t', hrest⟩ := hrest
      exact ⟨t', storeLine_cons_iff.mpr ⟨u, hfirst, hrest⟩⟩

end Line

/-- The field that extra field number `j` of a record is written to. Every seventh goes nowhere. -/
def extraField (j : Nat) : Option Field := if j % 7 = 0 then none else fieldOf (j % 7)

theorem fieldOf_extra (j : Nat) : fieldOf (fieldNumber (7 + j)) = extraField j := by
  rw [fieldNumber, if_neg (by omega), extraField]
  by_cases hj : j % 7 = 0
  · rw [if_pos hj, show (7 + j - 1) % 7 + 1 = 7 by omega]
    rfl
  · rw [if_neg hj, show (7 + j - 1) % 7 + 1 = j % 7 by omega]

theorem extraField_eq_some_iff {j : Nat} {f : Field} :
    extraField j = some f ↔ j % 7 ≠ 0 ∧ fieldOf (j % 7) = some f := by
  unfold extraField
  split
  · next hj => exact iff_of_false (fun h => by cases h) fun h => h.1 hj
  · next hj => exact ⟨fun h => ⟨hj, h⟩, fun h => h.2⟩

/-- The number of extra fields is a multiple of seven, those that are written to an array fit
there, and the last ones read like the fields that they replace. -/
structure ExtrasAgree (r : Rental) (xs : List (List UInt8)) : Prop where
  count : xs.length % 7 = 0
  fit : ∀ j x f, xs[j]? = some x → extraField j = some f → x.length + 1 < f.width
  last : ∀ j x f, xs[j]? = some x → extraField j = some f → xs.length ≤ j + 7 →
    upToNul (x ++ [tab]) = upToNul (r f ++ [tab])

/-- A value that was read from a field has no LF in it. -/
theorem lf_not_mem_reads {r : Rental} (hr : InWidth r) (n : Nat) (f : Field) : lf ∉ reads n r f := by
  intro h
  have hmem : lf ∈ stored n r f := (List.takeWhile_prefix _).subset h
  have hfield : lf ∉ r f := fun hb => hr.free f lf hb (Or.inr rfl)
  unfold stored at hmem
  split at hmem
  · exact hfield hmem
  · rcases List.mem_append.mp hmem with hb | hb
    · exact hfield hb
    · exact absurd (List.mem_singleton.mp hb) (by decide)

theorem reads_of_extra {r : Rental} {j : Nat} {f : Field} (hf : extraField j = some f) (n : Nat) :
    reads n r f = upToNul (r f ++ [tab]) := by
  rw [reads, stored, if_neg]
  intro h
  obtain ⟨hj, hf⟩ := extraField_eq_some_iff.mp hf
  rw [h.2] at hf
  exact hj (fieldOf_inj hf rfl)

/-- Among the last seven extra fields each array is written at most once. -/
theorem extraField_last {k i j : Nat} {f : Field} (hk : k % 7 = 0) (hlast : k ≤ j + 7)
    (hf : extraField j = some f) (hi : j < i) (hle : i ≤ k) : extraField i ≠ some f := by
  intro hf'
  obtain ⟨hj, hf⟩ := extraField_eq_some_iff.mp hf
  obtain ⟨hi', hf'⟩ := extraField_eq_some_iff.mp hf'
  have hsame := fieldOf_inj hf hf'
  omega

/-- When a record reads the same with its extra fields. -/
theorem storeLine_extras_iff {r : Rental} (hr : InWidth r) (n : Nat) (xs : List (List UInt8)) :
    storeLine n 7 xs (reads n r) = some (reads n r) ↔ ExtrasAgree r xs := by
  have hfits : (∃ t', storeLine n 7 xs (reads n r) = some t') ↔ _ :=
    storeLine_isSome_iff (by decide)
  simp only [fieldOf_extra] at hfits
  constructor
  · intro h
    have hcount : xs.length % 7 = 0 := by
      by_contra hk
      have hsome : (fieldOf (xs.length % 7)).isSome = true := by
        rw [fieldOf_isSome]
        exact decide_eq_true (Nat.mod_lt _ (by decide))
      obtain ⟨f, hf⟩ := Option.isSome_iff_exists.mp hsome
      have hlf := storeLine_lf h (by decide) (f := f)
        (by rw [fieldOf_extra]; exact extraField_eq_some_iff.mpr ⟨hk, hf⟩)
      refine lf_not_mem_reads hr n f ?_
      rw [hlf]
      exact List.mem_singleton_self lf
    refine ⟨hcount, hfits.mp ⟨_, h⟩, ?_⟩
    intro j x f hx hf hlast
    rw [← reads_of_extra hf n]
    refine (storeLine_last h (by decide) hx (by rw [fieldOf_extra]; exact hf) ?_).symm
    intro i hi hle
    rw [fieldOf_extra]
    exact extraField_last hcount hlast hf hi hle
  · intro h
    obtain ⟨t', ht'⟩ := hfits.mpr h.fit
    rw [ht']
    congr 1
    funext f
    by_cases hwritten : ∃ j x, xs[j]? = some x ∧ extraField j = some f ∧ xs.length ≤ j + 7
    · obtain ⟨j, x, hx, hf, hlast⟩ := hwritten
      rw [reads_of_extra hf n, ← h.last j x f hx hf hlast]
      refine storeLine_last ht' (by decide) hx (by rw [fieldOf_extra]; exact hf) ?_
      intro i hi hle
      rw [fieldOf_extra]
      exact extraField_last h.count hlast hf hi hle
    · refine storeLine_kept ht' fun i hi hf => hwritten ?_
      rw [fieldOf_extra] at hf
      obtain ⟨hi', hf⟩ := extraField_eq_some_iff.mp hf
      have hcount := h.count
      have hlt : xs.length - 7 + i % 7 < xs.length := by omega
      refine ⟨xs.length - 7 + i % 7, xs[xs.length - 7 + i % 7], List.getElem?_eq_getElem hlt, ?_,
        by omega⟩
      rw [extraField_eq_some_iff, show (xs.length - 7 + i % 7) % 7 = i % 7 by omega]
      exact ⟨hi', hf⟩

/-- The seven fields sent again are such extra fields. -/
theorem extrasAgree_again {r : Rental} (hr : InWidth r) : ExtrasAgree r (Field.all.map r) := by
  have hown : ∀ j x f, (Field.all.map r)[j]? = some x → extraField j = some f → x = r f := by
    intro j x f hx hf
    rw [List.getElem?_map, ← fieldOf_eq] at hx
    obtain ⟨g, hg, rfl⟩ := Option.map_eq_some_iff.mp hx
    have hf := (extraField_eq_some_iff.mp hf).2
    rw [Nat.mod_eq_of_lt (fieldOf_lt hg), hg] at hf
    cases hf
    rfl
  refine ⟨by rw [List.length_map]; rfl, ?_, ?_⟩
  · intro j x f hx hf
    rw [hown j x f hx hf]
    have hshort := hr.short f
    omega
  · intro j x f hx hf _
    rw [hown j x f hx hf]

/-- A record and the fields behind its seventh. -/
abbrev Extended := Rental × List (List UInt8)

/-- The seven fields, the extra ones, each followed by TAB, and LF. -/
def encodeExtended (q : Extended) : List UInt8 :=
  encodeFields q.1 Field.all ++ q.2.flatMap (· ++ [tab]) ++ [lf]

theorem encodeExtended_eq (q : Extended) :
    encodeExtended q = encodeLine (Field.all.map q.1 ++ q.2) := by
  rw [encodeExtended, encodeLine, List.flatMap_append, List.flatMap_map]
  rfl

theorem payload_extended (records : List Extended) : records.flatMap encodeExtended =
    (records.map fun q => Field.all.map q.1 ++ q.2).flatMap encodeLine := by
  rw [List.flatMap_map]
  exact congrArg (records.flatMap ·) (funext encodeExtended_eq)

/-- The parser returns for the message with the extra fields and for the one without them, and the
two tables read the same. -/
def KeepsRecords (buff plain : Nat → UInt8) (records : List Extended) : Prop :=
  ∃ ret info prints ret' info' prints',
    parseRentBikeRecord true buff (records.flatMap encodeExtended).length =
      .ok (ret, info, prints) ∧
    parseRentBikeRecord true plain (payloadOf (records.map Prod.fst)).length =
      .ok (ret', info', prints') ∧
    info.map RentInfo.strings = info'.map RentInfo.strings

theorem storeLines_extended_iff {records : List Extended} (hrecords : ∀ q ∈ records, InWidth q.1)
    (n : Nat) :
    storeLines n (records.map fun q => Field.all.map q.1 ++ q.2) =
        some ((records.map Prod.fst).mapIdx fun k r => reads (n + k) r) ↔
      ∀ q ∈ records, ExtrasAgree q.1 q.2 := by
  induction records generalizing n with
  | nil => exact iff_of_true rfl fun q hq => by cases hq
  | cons q records ih =>
    rw [List.forall_mem_cons] at hrecords
    have hrest := ih hrecords.2 (n + 1)
    simp only [Nat.add_assoc, Nat.add_comm 1] at hrest
    rw [List.map_cons, List.map_cons, storeLines, storeLine_seven hrecords.1, List.mapIdx_cons,
      Nat.add_zero, List.forall_mem_cons, ← hrest, ← storeLine_extras_iff hrecords.1 n]
    constructor
    · intro h
      obtain ⟨t, hfirst, h⟩ := Option.bind_eq_some_iff.mp h
      obtain ⟨ts, hlines, h⟩ := Option.map_eq_some_iff.mp h
      cases h
      exact ⟨hfirst, hlines⟩
    · intro h
      rw [h.1, h.2]
      rfl

/-- Extra fields change no field of the table exactly if in every record their number is a multiple
of seven, those that are written fit, and the last six spell the fields from `rent_name` to `fee`
again. -/
theorem extra_fields_kept_iff (buff plain : Nat → UInt8) (records : List Extended)
    (hrecords : ∀ q ∈ records, InWidth q.1)
    (hextras : ∀ q ∈ records, ∀ x ∈ q.2, ∀ b ∈ x, ¬ IsSeparator b)
    (hcount : (buff 8).toNat = records.length) (hcount' : (plain 8).toNat = records.length)
    (hpayload : load buff 11 (records.flatMap encodeExtended).length =
      records.flatMap encodeExtended)
    (hplain : load plain 11 (payloadOf (records.map Prod.fst)).length =
      payloadOf (records.map Prod.fst)) :
    KeepsRecords buff plain records ↔ ∀ q ∈ records, ExtrasAgree q.1 q.2 := by
  have hfree : ∀ xs ∈ records.map (fun q => Field.all.map q.1 ++ q.2), ∀ x ∈ xs, ∀ b ∈ x,
      ¬ IsSeparator b := by
    intro xs hxs x hx
    obtain ⟨q, hq, rfl⟩ := List.mem_map.mp hxs
    rcases List.mem_append.mp hx with hx | hx
    · obtain ⟨f, -, rfl⟩ := List.mem_map.mp hx
      exact (hrecords q hq).free f
    · exact hextras q hq x hx
  have hplain_free : ∀ r ∈ records.map Prod.fst, InWidth r := by
    intro r hr
    obtain ⟨q, hq, rfl⟩ := List.mem_map.mp hr
    exact hrecords q hq
  obtain ⟨ret', info', prints', hparse', hmap'⟩ :=
    parse_records hplain_free (by rw [hcount', List.length_map]) hplain
  rw [payload_extended] at hpayload
  have hparse := parse_lines hfree (by rw [hcount, List.length_map]) hpayload
  have hiff := storeLines_extended_iff hrecords 0
  simp only [Nat.zero_add] at hiff
  rw [← hiff, KeepsRecords, payload_extended]
  constructor
  · intro h
    obtain ⟨ret, info, prints, ret'', info'', prints'', hok, hok', hsame⟩ := h
    rw [hparse'] at hok'
    cases hok'
    cases hstore : storeLines 0 (records.map fun q => Field.all.map q.1 ++ q.2) with
    | none =>
      simp only [hstore] at hparse
      rw [hparse] at hok
      cases hok
    | some ts =>
      simp only [hstore] at hparse
      obtain ⟨ret, info, prints, hparse, hmap⟩ := hparse
      rw [hparse] at hok
      cases hok
      rw [← hmap, hsame, hmap']
  · intro h
    simp only [h] at hparse
    obtain ⟨ret, info, prints, hparse, hmap⟩ := hparse
    exact ⟨ret, info, prints, ret', info', prints', hparse, hparse', hmap.trans hmap'.symm⟩

/-- The record of one-character fields, with its fields behind it again. -/
def digitsTwice : Extended := (digitsRental, Field.all.map digitsRental)

def digitsTwiceMessage : Nat → UInt8 :=
  store (fun _ => 0) 8 ([1, 0, 29] ++ encodeExtended digitsTwice)

theorem extra_fields_kept_twice : KeepsRecords digitsTwiceMessage digitsMessage [digitsTwice] := by
  have hrecords : ∀ q ∈ [digitsTwice], InWidth q.1 := by
    intro q hq
    rw [List.mem_singleton.mp hq]
    constructor
    · intro f
      cases f <;> decide +kernel
    · intro f
      cases f <;> decide +kernel
  have hextras : ∀ q ∈ [digitsTwice], ∀ x ∈ q.2, ∀ b ∈ x, ¬ IsSeparator b := by
    decide +kernel
  refine (extra_fields_kept_iff digitsTwiceMessage digitsMessage [digitsTwice] hrecords hextras
    (by decide) (by decide) (by decide) (by decide)).mpr ?_
  intro q hq
  rw [List.mem_singleton.mp hq]
  exact extrasAgree_again (hrecords digitsTwice List.mem_cons_self)

/-- One extra field, "8". -/
def digitsMore : Extended := (digitsRental, [[0x38]])

def digitsMoreMessage : Nat → UInt8 :=
  store (fun _ => 0) 8 ([1, 0, 17] ++ encodeExtended digitsMore)

/-- The extra field itself goes nowhere, but the LF behind it replaces the name of the station. -/
theorem extra_field_replaces_name : ¬ KeepsRecords digitsMoreMessage digitsMessage [digitsMore] := by
  have hname : (parseRentBikeRecord true digitsMoreMessage 17).toOption.map
      (fun r => r.2.1.map fun e => cString (e .rentName)) = some [[lf]] := by
    decide +kernel
  have hname' : (parseRentBikeRecord true digitsMessage 15).toOption.map
      (fun r => r.2.1.map fun e => cString (e .rentName)) = some [[0x32, tab]] := by
    decide +kernel
  intro h
  obtain ⟨ret, info, prints, ret', info', prints', hparse, hparse', hsame⟩ := h
  rw [show (([digitsMore].flatMap encodeExtended).length : Int) = 17 from rfl] at hparse
  rw [show ((payloadOf ([digitsMore].map Prod.fst)).length : Int) = 15 from rfl] at hparse'
  rw [hparse] at hname
  rw [hparse'] at hname'
  have hnames := congrArg (List.map fun r : Rental => r .rentName) hsame
  rw [List.map_map, List.map_map] at hnames
  have hboth := (Option.some.inj hname).symm.trans (hnames.trans (Option.some.inj hname'))
  exact absurd hboth (by decide)

end BackupSoftware.RentRecord

import Mathlib.Data.List.TakeWhile
import BackupSoftware.RentRecord.Lines

/-!
# What the parser stores for a well-formed message

After the first field of a message, `begin` is the position of the separator before
a field and not of its first byte. The size computed from it is one too large, so
every later field is stored with the TAB behind it.
-/

namespace BackupSoftware.RentRecord

open BackupSoftware.Library.Memory BackupSoftware.Library.Trace

def Field.all : List Field :=
  [.bikeNO, .rentName, .rentTime, .returnName, .returnTime, .usedTime, .fee]

/-- Each field followed by TAB, and the record closed by LF. -/
def encodeFields (r : Rental) (fs : List Field) : List UInt8 := fs.flatMap fun f => r f ++ [tab]

def encodeRecord (r : Rental) : List UInt8 := encodeFields r Field.all ++ [lf]

/-- No field has a TAB, LF or NUL in it, and each is shorter than its width minus one. -/
structure Encodable (r : Rental) : Prop where
  free : ∀ f, ∀ b ∈ r f, b ≠ tab ∧ b ≠ lf ∧ b ≠ 0
  short : ∀ f, (r f).length < f.width - 1

/-- What is stored for record number `n`. -/
def stored (n : Nat) (r : Rental) : Rental := fun f =>
  if n = 0 ∧ f = .bikeNO then r f else r f ++ [tab]

/-- Fields without TAB and LF that leave room in their arrays for a TAB and the NUL. -/
structure InWidth (r : Rental) : Prop where
  free : ∀ f, ∀ b ∈ r f, ¬ IsSeparator b
  short : ∀ f, (r f).length < f.width - 1

/-- What the entry of record `n` reads as. -/
def reads (n : Nat) (r : Rental) : Rental := fun f => upToNul (stored n r f)

theorem fieldOf_eq (k : Nat) : fieldOf k = Field.all[k]? := by
  match k with
  | 0 | 1 | 2 | 3 | 4 | 5 | 6 => rfl
  | k + 7 => rfl

theorem fieldNumber_of_le {e : Nat} (he : e ≤ 7) : fieldNumber e = e := by
  unfold fieldNumber
  split
  · omega
  · omega

theorem fieldOf_lt {e : Nat} {f : Field} (h : fieldOf e = some f) : e < 7 := by
  rw [fieldOf_eq] at h
  exact (List.getElem?_eq_some_iff.mp h).1

theorem fieldOf_inj {a b : Nat} {f : Field} (ha : fieldOf a = some f) (hb : fieldOf b = some f) :
    a = b := by
  have hlt := fieldOf_lt ha
  rw [fieldOf_eq] at ha hb
  exact (List.getElem?_inj hlt (by decide)).mp (ha.trans hb.symm)

theorem length_stored_lt {r : Rental} (hr : InWidth r) (n : Nat) (f : Field) :
    (stored n r f).length < f.width := by
  have hshort := hr.short f
  unfold stored
  split
  · omega
  · rw [List.length_append, List.length_singleton]
    omega

/-- One of the seven fields goes to its place. -/
theorem storeField_own {r : Rental} (hr : InWidth r) {e : Nat} {f : Field}
    (hf : fieldOf e = some f) (n : Nat) (t : Rental) :
    storeField e t (copied n e (r f) tab) = some (Function.update t f (reads n r f)) := by
  have hlt := fieldOf_lt hf
  have hfirst : e = 0 ↔ f = .bikeNO := by
    constructor
    · intro h
      rw [h] at hf
      exact (Option.some.inj hf).symm
    · intro h
      rw [h] at hf
      exact fieldOf_inj hf rfl
  have hcopied : copied n e (r f) tab = stored n r f := by
    simp only [copied, stored, hfirst]
  rw [storeField, fieldNumber_of_le (Nat.le_of_lt hlt), hf, hcopied]
  exact if_pos (length_stored_lt hr n f)

theorem storeLine_seven {r : Rental} (hr : InWidth r) (n : Nat) (xs : List (List UInt8))
    (t : Rental) :
    storeLine n 0 (Field.all.map r ++ xs) t = storeLine n 7 xs (reads n r) := by
  simp only [Field.all, List.map_cons, List.map_nil, List.cons_append, List.nil_append, storeLine,
    storeField_own hr (show fieldOf 0 = some .bikeNO from rfl),
    storeField_own hr (show fieldOf (0 + 1) = some .rentName from rfl),
    storeField_own hr (show fieldOf (0 + 1 + 1) = some .rentTime from rfl),
    storeField_own hr (show fieldOf (0 + 1 + 1 + 1) = some .returnName from rfl),
    storeField_own hr (show fieldOf (0 + 1 + 1 + 1 + 1) = some .returnTime from rfl),
    storeField_own hr (show fieldOf (0 + 1 + 1 + 1 + 1 + 1) = some .usedTime from rfl),
    storeField_own hr (show fieldOf (0 + 1 + 1 + 1 + 1 + 1 + 1) = some .fee from rfl),
    Option.bind_some]
  congr 1
  funext f
  cases f <;> rfl

/-- The records of a message fill the table in order. -/
theorem storeLines_seven {records : List Rental} (hrecords : ∀ r ∈ records, InWidth r) (n : Nat) :
    storeLines n (records.map (Field.all.map ·)) =
      some (records.mapIdx fun k r => reads (n + k) r) := by
  induction records generalizing n with
  | nil => rfl
  | cons r records ih =>
    rw [List.forall_mem_cons] at hrecords
    have hfirst : storeLine n 0 (Field.all.map r) (fun _ => []) = some (reads n r) := by
      rw [← List.append_nil (Field.all.map r), storeLine_seven hrecords.1]
      rfl
    rw [List.map_cons, storeLines, hfirst, ih hrecords.2, List.mapIdx_cons]
    simp only [Option.bind_some, Option.map_some, Nat.add_zero, Nat.add_assoc, Nat.add_comm 1]

theorem Encodable.inWidth {r : Rental} (hr : Encodable r) : InWidth r := by
  refine ⟨?_, hr.short⟩
  intro f b hb hsep
  obtain ⟨htab, hlf, -⟩ := hr.free f b hb
  rcases hsep with h | h
  · exact htab h
  · exact hlf h

/-- Without a NUL the whole text is read. -/
theorem reads_eq_stored {r : Rental} (hr : Encodable r) (n : Nat) : reads n r = stored n r := by
  funext f
  refine List.takeWhile_eq_self_iff.mpr fun b hb => decide_eq_true ?_
  unfold stored at hb
  split at hb
  · exact (hr.free f b hb).2.2
  · rcases List.mem_append.mp hb with hb | hb
    · exact (hr.free f b hb).2.2
    · rw [List.mem_singleton.mp hb]
      decide

theorem encodeRecord_eq (r : Rental) : encodeRecord r = encodeLine (Field.all.map r) := by
  rw [encodeRecord, encodeLine, List.flatMap_map]
  rfl

/-- The payload of a message with these records. -/
def payloadOf (records : List Rental) : List UInt8 := records.flatMap encodeRecord

/-- The parser returns, and its table has one entry for each record, in order, with the
texts of the record. -/
def FillsTable (allocated : Bool) (buff : Nat → UInt8) (records : List Rental) : Prop :=
  ∃ ret info prints,
    parseRentBikeRecord allocated buff (payloadOf records).length = .ok (ret, info, prints) ∧
      info.map RentInfo.strings = records

theorem payloadOf_eq (records : List Rental) :
    payloadOf records = (records.map (Field.all.map ·)).flatMap encodeLine := by
  rw [payloadOf, List.flatMap_map]
  exact congrArg (records.flatMap ·) (funext encodeRecord_eq)

/-- The table that a message really leaves. -/
theorem parse_records {buff : Nat → UInt8} {records : List Rental}
    (hrecords : ∀ r ∈ records, InWidth r) (hcount : (buff 8).toNat = records.length)
    (hpayload : load buff 11 (payloadOf records).length = payloadOf records) :
    ∃ ret info prints, parseRentBikeRecord true buff (payloadOf records).length =
        .ok (ret, info, prints) ∧
      info.map RentInfo.strings = records.mapIdx reads := by
  have hfree : ∀ xs ∈ records.map (Field.all.map ·), ∀ x ∈ xs, ∀ b ∈ x, ¬ IsSeparator b := by
    intro xs hxs x hx
    obtain ⟨r, hr, rfl⟩ := List.mem_map.mp hxs
    obtain ⟨f, -, rfl⟩ := List.mem_map.mp hx
    exact (hrecords r hr).free f
  rw [payloadOf_eq] at hpayload ⊢
  have hparse := parse_lines hfree (by rw [hcount, List.length_map]) hpayload
  simp only [storeLines_seven hrecords, Nat.zero_add] at hparse
  exact hparse

theorem parse_message {buff : Nat → UInt8} {records : List Rental}
    (hfields : ∀ r ∈ records, Encodable r) (hcount : (buff 8).toNat = records.length)
    (hpayload : load buff 11 (payloadOf records).length = payloadOf records) :
    ∃ ret info prints, parseRentBikeRecord true buff (payloadOf records).length =
        .ok (ret, info, prints) ∧
      info.map RentInfo.strings = records.mapIdx stored := by
  obtain ⟨ret, info, prints, hparse, hmap⟩ :=
    parse_records (fun r hr => (hfields r hr).inWidth) hcount hpayload
  refine ⟨ret, info, prints, hparse, hmap.trans ?_⟩
  rw [List.mapIdx_eq_mapIdx_iff]
  intro k hk
  rw [reads_eq_stored (hfields _ (List.getElem_mem hk))]

theorem stored_ne (r : Rental) : stored 0 r ≠ r := by
  intro h
  have hname := congrArg List.length (congrFun h .rentName)
  simp [stored] at hname

/-- The table is as it should be only for the message without records: in every other one
the second field of the first record is stored with its TAB. -/
theorem rental_fields_iff (allocated : Bool) (buff : Nat → UInt8) (records : List Rental)
    (hfields : ∀ r ∈ records, Encodable r) (hcount : (buff 8).toNat = records.length)
    (hpayload : load buff 11 (payloadOf records).length = payloadOf records) :
    FillsTable allocated buff records ↔ records = [] := by
  constructor
  · intro h
    obtain ⟨ret, info, prints, hparse, htexts⟩ := h
    by_contra hne
    cases allocated with
    | true =>
      obtain ⟨ret', info', prints', hparse', hmap⟩ := parse_message hfields hcount hpayload
      rw [hparse'] at hparse
      cases hparse
      rw [hmap] at htexts
      cases records with
      | nil => exact hne rfl
      | cons r records =>
        rw [List.mapIdx_cons] at htexts
        exact stored_ne r (List.cons.inj htexts).1
    | false =>
      have hlen := congrArg List.length htexts
      rw [List.length_map] at hlen
      rw [parseRentBikeRecord] at hparse
      split at hparse
      · cases hparse
        exact hne (List.eq_nil_of_length_eq_zero hlen.symm)
      · cases hrun : run (parseStep buff) (.initial (callocEntries false (buff 8)))
            (List.range' 11 ((payloadOf records).length : Int).toNat) with
        | error e => rw [hrun] at hparse; cases hparse
        | ok q =>
          rw [hrun] at hparse
          cases hparse
          have hzero := (run_tracks (show _ = Except.ok (q.1, q.2) from hrun)).info
          exact hne (List.eq_nil_of_length_eq_zero (hlen.symm.trans hzero))
  · intro h
    subst h
    exact ⟨-1, [], [], rfl, rfl⟩

/-- Seven fields of one character. -/
def digitsRental : Rental
  | .bikeNO => [0x31]
  | .rentName => [0x32]
  | .rentTime => [0x33]
  | .returnName => [0x34]
  | .returnTime => [0x35]
  | .usedTime => [0x36]
  | .fee => [0x37]

def digitsMessage : Nat → UInt8 := store (fun _ => 0) 8 ([1, 0, 15] ++ encodeRecord digitsRental)

theorem rental_fields_iff_digits :
    FillsTable true (fun _ => 0) [] ∧ ¬ FillsTable true digitsMessage [digitsRental] := by
  constructor
  · exact (rental_fields_iff true (fun _ => 0) [] (by simp) rfl rfl).mpr rfl
  · have hfields : ∀ r ∈ [digitsRental], Encodable r := by
      intro r hr
      rw [List.mem_singleton.mp hr]
      constructor
      · intro f
        cases f <;> decide +kernel
      · intro f
        cases f <;> decide +kernel
    intro h
    have hnil := (rental_fields_iff true digitsMessage [digitsRental] hfields (by decide)
      (by decide)).mp h
    cases hnil

/-- The name of the first station is stored as "2" and a TAB. -/
theorem rental_name_with_tab : ¬ FillsTable true digitsMessage [digitsRental] := by
  have hname : (parseRentBikeRecord true digitsMessage 15).toOption.map
      (fun r => r.2.1.map fun e => cString (e .rentName)) = some [[0x32, tab]] := by
    decide +kernel
  intro h
  obtain ⟨ret, info, prints, hparse, htexts⟩ := h
  rw [show ((payloadOf [digitsRental]).length : Int) = 15 from rfl] at hparse
  rw [hparse] at hname
  have hnames : (info.map RentInfo.strings).map (fun r => r .rentName) = [[0x32]] := by
    rw [htexts]
    rfl
  rw [List.map_map] at hnames
  have hboth := hnames.symm.trans (Option.some.inj hname)
  exact absurd hboth (by decide)

end BackupSoftware.RentRecord

import BackupSoftware.Records.QueueLaws

/-!
# What a select reports

The selects return LIB_REC_OK at the end of the function whatever happened before: also if
the query gave no row, if `sqlite3_step` failed, or if the row had no data. The caller
then takes what stands in its variables for a record.
-/

namespace BackupSoftware.Records

open BackupSoftware.Library

variable {α : Type}

/-- A call with return code and stored result: it copies nothing from outside a blob, and it
returns LIB_REC_OK exactly if it has set the caller's variables as `Set` says. -/
def Truthful (r : Except Stop ((Int × Option α) × RecordsFile)) (Set : α → Prop) : Prop :=
  r ≠ .error .undefined ∧
    ((∃ out rec', r = .ok ((libRecOk, out), rec')) ↔
      ∃ code a rec', r = .ok ((code, some a), rec') ∧ Set a)

/-- The number, the length and the whole data of the row. -/
def StoredFrom (row : PacketRow) (p : Packet) : Prop :=
  p.pktSn = sqlite3ColumnInt row.pktSn ∧ p.pktLen = sqlite3ColumnInt row.pktLen ∧
    p.pktData.length = p.pktLen.toInt ∧
    ∃ blob, row.pktData = some blob ∧ p.pktData = blob.take p.pktLen.toNat

/-- A row of which a select tells the truth: it is too long, so that the select fails, or it
has data, and at least `pkt_len` bytes of them. -/
def Reported (row : PacketRow) : Prop :=
  512 < (sqlite3ColumnInt row.pktLen).toInt ∨
    ∃ blob, sqlite3ColumnBlob row.pktData = some blob ∧
      0 ≤ (sqlite3ColumnInt row.pktLen).toInt ∧ (sqlite3ColumnInt row.pktLen).toInt ≤ blob.length

/-- A row with the number `pktSn` was read, and `pkt_len` and `pkt_data` set from it. -/
def SelectDataTruthful (t : QueueTable) (ptrs : Bool) (o : SqliteOutcome) (pktSn : CInt)
    (rec : RecordsFile) : Prop :=
  Truthful (t.selectData ptrs o pktSn rec) fun out =>
    ∃ row p, o.Executes ∧ row ∈ (rec.db.queue t).values ∧ row.pktSn = pktSn.toInt ∧
      StoredFrom row p ∧ out = (p.pktLen, p.pktData)

/-- A row was read, and `pkt_sn`, `pkt_len` and `pkt_data` set from it. -/
def SelectAllDataTruthful (t : QueueTable) (ptrs : Bool) (o : SqliteOutcome)
    (rec : RecordsFile) : Prop :=
  Truthful (t.selectAllData ptrs o rec) fun p =>
    ∃ row, o.Executes ∧ row ∈ (rec.db.queue t).values ∧ StoredFrom row p

section Ends

variable {r : Except Stop ((Int × Option α) × RecordsFile)} {Set : α → Prop} {rec' : RecordsFile}

theorem truthful_of_error (h : r = .ok ((libRecError, none), rec')) : Truthful r Set := by
  subst h
  refine ⟨fun h => (by cases h), ?_⟩
  constructor
  · intro h
    obtain ⟨out, rec'', h⟩ := h
    have hcode := (Prod.mk.inj (Prod.mk.inj (Except.ok.inj h)).1).1
    exact absurd hcode (by decide)
  · intro h
    obtain ⟨code, a, rec'', h, -⟩ := h
    cases h

theorem truthful_of_blocked (h : r = .error .blocked) : Truthful r Set := by
  subst h
  refine ⟨fun h => (by cases h), ?_⟩
  constructor
  · intro h
    obtain ⟨out, rec'', h⟩ := h
    cases h
  · intro h
    obtain ⟨code, a, rec'', h, -⟩ := h
    cases h

theorem truthful_of_set {a : α} (h : r = .ok ((libRecOk, some a), rec')) (hset : Set a) :
    Truthful r Set := by
  subst h
  refine ⟨fun h => (by cases h), ?_⟩
  exact iff_of_true ⟨some a, rec', rfl⟩ ⟨libRecOk, a, rec', rfl, hset⟩

theorem not_truthful_of_unset (h : r = .ok ((libRecOk, none), rec')) : ¬ Truthful r Set := by
  subst h
  intro h'
  obtain ⟨-, hiff⟩ := h'
  obtain ⟨code, a, rec'', h, -⟩ := hiff.mp ⟨none, rec', rfl⟩
  cases h

theorem not_truthful_of_undefined (h : r = .error .undefined) : ¬ Truthful r Set :=
  fun htrue => htrue.1 h

end Ends

/-- `sqlite3_column_blob` returns the cell unless it is NULL or empty. -/
theorem cell_of_columnBlob {cell : Option (List UInt8)} {blob : List UInt8}
    (h : sqlite3ColumnBlob cell = some blob) : cell = some blob := by
  match cell with
  | none => cases h
  | some [] => cases h
  | some (b :: bs) => exact h

/-- A select keeps `g` of what it has stored. -/
def keeping (g : Packet → α) (x : Prog (Int × Option Packet)) : Prog (Int × Option α) :=
  (fun r => (r.1, r.2.map g)) <$> x

section Selects

variable {Set : α → Prop} {rec : RecordsFile}

/-- The row branch tells the truth exactly of the rows that are reported. -/
theorem selectRow_truthful_iff (row : PacketRow) (g : Packet → α) (hs : rec.sem ≠ 0)
    (hset : ∀ p, StoredFrom row p → Set (g p)) :
    Truthful (keeping g (selectRow row)
      { rec with sem := rec.sem - 1, stmts := rec.stmts + 1 }) Set ↔ Reported row := by
  rw [keeping, map_run, selectRow_eq row hs]
  by_cases hlong : 512 < (sqlite3ColumnInt row.pktLen).toInt
  · rw [if_pos hlong]
    exact iff_of_true (truthful_of_error rfl) (Or.inl hlong)
  rw [if_neg hlong]
  cases hblob : sqlite3ColumnBlob row.pktData with
  | none =>
    refine iff_of_false (not_truthful_of_unset rfl) ?_
    intro h
    rcases h with h | ⟨blob, h, -⟩
    · exact hlong h
    · rw [hblob] at h
      cases h
  | some blob =>
    by_cases hcopy : 0 ≤ (sqlite3ColumnInt row.pktLen).toInt ∧
        (sqlite3ColumnInt row.pktLen).toInt ≤ blob.length
    · simp only [if_pos hcopy]
      refine iff_of_true (truthful_of_set rfl (hset _ ⟨rfl, rfl, ?_, blob,
        cell_of_columnBlob hblob, rfl⟩)) (Or.inr ⟨blob, hblob, hcopy⟩)
      have hnat := toInt_of_nonneg hcopy.1
      simp only [List.length_take]
      omega
    · simp only [if_neg hcopy]
      refine iff_of_false (not_truthful_of_undefined rfl) ?_
      intro h
      rcases h with h | ⟨blob', h, hcopy'⟩
      · exact hlong h
      · rw [hblob] at h
        cases h
        exact hcopy hcopy'

/-- A select with the query `sql`. -/
theorem selectPacket_truthful_iff (ptrs : Bool) (o : SqliteOutcome) (sql : Db → Option PacketRow)
    (g : Packet → α)
    (hset : ∀ row p, o.Executes → sql rec.db = some row → StoredFrom row p → Set (g p)) :
    Truthful (keeping g (selectPacket ptrs o sql) rec) Set ↔
      ptrs = false ∨ rec.sem = 0 ∨ o.prepare ≠ .ok ∨
        (o.step = .executes ∧ ∃ row, sql rec.db = some row ∧ Reported row) := by
  rw [keeping, map_run, selectPacket_eq]
  by_cases hp : ptrs = false
  · rw [if_pos hp]
    exact iff_of_true (truthful_of_error rfl) (Or.inl hp)
  rw [if_neg hp, or_iff_right hp]
  by_cases hs : rec.sem = 0
  · rw [if_pos hs]
    exact iff_of_true (truthful_of_blocked rfl) (Or.inl hs)
  rw [if_neg hs, or_iff_right hs]
  by_cases hprepare : o.prepare ≠ .ok
  · rw [if_pos hprepare]
    exact iff_of_true (truthful_of_error rfl) (Or.inl hprepare)
  rw [if_neg hprepare, or_iff_right hprepare]
  by_cases hstep : o.step ≠ .executes
  · rw [if_pos hstep]
    exact iff_of_false (not_truthful_of_unset rfl) fun h => hstep h.1
  have ho : o.Executes := ⟨not_not.mp hprepare, not_not.mp hstep⟩
  rw [if_neg hstep, and_iff_right ho.2]
  cases hrow : sql rec.db with
  | none =>
    refine iff_of_false (not_truthful_of_unset rfl) ?_
    intro h
    obtain ⟨row, h, -⟩ := h
    cases h
  | some row =>
    have hone := selectRow_truthful_iff row g hs fun p => hset row p ho hrow
    rw [keeping, map_run] at hone
    rw [hone]
    constructor
    · intro h
      exact ⟨row, rfl, h⟩
    · intro h
      obtain ⟨row', h, hrep⟩ := h
      cases h
      exact hrep

end Selects

/-- A row that a query gives is in the table and satisfies the condition. -/
theorem mem_of_first {t : RowTable PacketRow} {p : PacketRow → Bool} {row : PacketRow}
    (h : t.first p = some row) : row ∈ t.values ∧ p row = true := by
  rw [RowTable.first_eq] at h
  exact ⟨List.mem_of_find?_eq_some h, List.find?_some h⟩

/-- What decides whether a select whose query has this condition tells the truth. -/
def TellsTruth (t : QueueTable) (ptrs : Bool) (o : SqliteOutcome) (rec : RecordsFile)
    (p : PacketRow → Bool) : Prop :=
  ptrs = false ∨ rec.sem = 0 ∨ o.prepare ≠ .ok ∨
    (o.step = .executes ∧ ∃ row, (rec.db.queue t).first p = some row ∧ Reported row)

/-- The selects of all four tables tell the truth exactly in these cases: a pointer is NULL,
the semaphore cannot be taken, the statement cannot be prepared, or the query gives a row
and that row is reported. -/
theorem selects_truthful_iff (t : QueueTable) (ptrs : Bool) (o : SqliteOutcome) (pktSn : CInt)
    (hsn : 0 ≤ pktSn.toInt) (rec : RecordsFile) :
    (SelectDataTruthful t ptrs o pktSn rec ↔
      TellsTruth t ptrs o rec fun row => row.pktSn = pktSn.toInt) ∧
    (SelectAllDataTruthful t ptrs o rec ↔ TellsTruth t ptrs o rec fun _ => true) := by
  have hquery : (fun row : PacketRow => decide (row.pktSn = pktSn.toInt)) = hasPktSn pktSn := by
    funext row
    rw [hasPktSn, toInt_of_nonneg hsn]
  constructor
  · rw [SelectDataTruthful, selectData_eq, TellsTruth, hquery]
    apply selectPacket_truthful_iff ptrs o (fun db => (db.queue t).first (hasPktSn pktSn))
      fun p => (p.pktLen, p.pktData)
    intro row p ho hrow hstored
    obtain ⟨hmem, hnumber⟩ := mem_of_first hrow
    exact ⟨row, p, ho, hmem, (hasPktSn_iff hsn row).mp hnumber, hstored, rfl⟩
  · have hid : selectAllFrom t ptrs o =
        keeping id (selectPacket ptrs o fun db => (db.queue t).first fun _ => true) := by
      rw [keeping]
      simp only [Option.map_id_fun, id_eq]
      exact (id_map _).symm
    rw [SelectAllDataTruthful, selectAllData_eq, hid, TellsTruth]
    apply selectPacket_truthful_iff
    intro row p ho hrow hstored
    exact ⟨row, ho, (mem_of_first hrow).1, hstored⟩

/-- A table with one record of three bytes under the number 5. -/
def oneRecord : RecordsFile :=
  .created (Db.empty.withQueue .recharge
    (·.insert (packetRow .good 5 (Vector.replicate 8 0) (Vector.replicate 6 0) 3 fun _ => 7)))

theorem selects_truthful_one_record :
    SelectDataTruthful .recharge true .good 5 oneRecord ∧
      SelectAllDataTruthful .recharge true .good oneRecord := by
  have h := selects_truthful_iff .recharge true .good 5 (by decide) oneRecord
  refine ⟨h.1.mpr ?_, h.2.mpr ?_⟩
  · refine Or.inr (Or.inr (Or.inr ⟨rfl, _, rfl, Or.inr ⟨[7, 7, 7], rfl, by decide, by decide⟩⟩))
  · refine Or.inr (Or.inr (Or.inr ⟨rfl, _, rfl, Or.inr ⟨[7, 7, 7], rfl, by decide, by decide⟩⟩))

/-- An empty table: both selects return LIB_REC_OK and set nothing. -/
theorem selects_report_missing_row :
    (QueueTable.recharge.selectData true .good 5 (.created .empty) =
        .ok ((libRecOk, none), .created .empty) ∧
      ¬ SelectDataTruthful .recharge true .good 5 (.created .empty)) ∧
    (QueueTable.recharge.selectAllData true .good (.created .empty) =
        .ok ((libRecOk, none), .created .empty) ∧
      ¬ SelectAllDataTruthful .recharge true .good (.created .empty)) :=
  ⟨⟨rfl, not_truthful_of_unset rfl⟩, ⟨rfl, not_truthful_of_unset rfl⟩⟩

end BackupSoftware.Records

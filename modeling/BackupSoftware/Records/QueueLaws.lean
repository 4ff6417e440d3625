import BackupSoftware.Records.Store

/-!
# Insert, select and delete on a queue table

The key of a record goes in as a signed integer and comes back, in the SQL text of
select and delete, as an unsigned one. For negative keys these are different
numbers.
-/

namespace BackupSoftware.Records

open BackupSoftware.Library

theorem toInt_of_nonneg {n : CInt} (h : 0 ≤ n.toInt) : n.toInt = (n.toNat : Int) := by
  rw [BitVec.toInt_eq_toNat_cond] at h ⊢
  split
  · rfl
  · rename_i hlarge
    rw [if_neg hlarge] at h
    have := n.isLt
    omega

/-- A row as an insert of 1 to 512 bytes leaves it. -/
structure PacketRow.Holds (row : PacketRow) (bytes : List UInt8) : Prop where
  data : row.pktData = some bytes
  len : row.pktLen = (bytes.length : Int)
  pos : 1 ≤ bytes.length
  le : bytes.length ≤ 512

theorem packetRow_holds {pktLen : CInt} (h1 : 1 ≤ pktLen.toInt) (h512 : pktLen.toInt ≤ 512)
    (o : SqliteOutcome) (pktSn : CInt) (pid : Vector UInt8 8) (macaddr : Vector UInt8 6)
    (pktData : Nat → UInt8) :
    (packetRow o pktSn pid macaddr pktLen pktData).Holds
      ((List.range pktLen.toNat).map pktData) := by
  have hlen := toInt_of_nonneg (Int.le_trans (by decide) h1)
  refine ⟨?_, ?_, ?_, ?_⟩
  · have hmax : ¬ sqliteMaxLength < pktLen.toInt := by
      unfold sqliteMaxLength
      omega
    rw [packetRow, sqlite3BindBlob, if_neg (by omega), if_neg hmax]
  · simpa [packetRow] using hlen
  · simp only [List.length_map, List.length_range]
    omega
  · simp only [List.length_map, List.length_range]
    omega

/-- A select whose query gives a row with 1 to 512 bytes returns them. -/
theorem selectPacket_holds {o : SqliteOutcome} (ho : o.Executes) {sql : Db → Option PacketRow}
    {rec : RecordsFile} (hs : rec.sem ≠ 0) {row : PacketRow} (hrow : sql rec.db = some row)
    {bytes : List UInt8} (h : row.Holds bytes) :
    selectPacket true o sql rec =
      .ok ((libRecOk, some ⟨sqlite3ColumnInt row.pktSn, sqlite3ColumnInt row.pktLen, bytes⟩),
        rec) := by
  have hpos := h.pos
  have hle := h.le
  have hint : (sqlite3ColumnInt row.pktLen).toInt = bytes.length := by
    rw [sqlite3ColumnInt, h.len, BitVec.toInt_ofInt]
    exact Int.bmod_eq_of_le (by omega) (by omega)
  have hnat : (sqlite3ColumnInt row.pktLen).toNat = bytes.length := by
    have := toInt_of_nonneg (n := sqlite3ColumnInt row.pktLen) (by omega)
    omega
  have hblob : sqlite3ColumnBlob row.pktData = some bytes := by
    rw [h.data]
    cases bytes with
    | nil => cases hpos
    | cons b bs => rfl
  have hshort : ¬ 512 < (sqlite3ColumnInt row.pktLen).toInt := by omega
  have hcopy : 0 ≤ (sqlite3ColumnInt row.pktLen).toInt ∧
      (sqlite3ColumnInt row.pktLen).toInt ≤ bytes.length := by omega
  rw [selectPacket_eq]
  simp only [Bool.true_eq_false, hs, ho.1, ho.2, ne_eq, not_true_eq_false, ↓reduceIte, hrow,
    selectRow_eq row hs, hshort, hblob, hcopy, and_self, hnat, List.take_length]

theorem insertData_executes (t : QueueTable) {o : SqliteOutcome} (ho : o.Executes)
    {rec : RecordsFile} (hs : rec.sem ≠ 0) (pktSn : CInt) (pid : Vector UInt8 8)
    (macaddr : Vector UInt8 6) (pktLen : CInt) (pktData : Nat → UInt8) :
    t.insertData true o pktSn pid macaddr pktLen pktData rec =
      .ok (libRecOk, { rec with
        db := rec.db.withQueue t (·.insert (packetRow o pktSn pid macaddr pktLen pktData)) }) := by
  rw [insertData_eq, insertInto, execStatement_eq, if_neg (by decide), if_neg hs, if_pos ho]

theorem deleteData_executes (t : QueueTable) {o : SqliteOutcome} (ho : o.Executes)
    {rec : RecordsFile} (hs : rec.sem ≠ 0) (pktSn : CInt) :
    t.deleteData o pktSn rec =
      .ok (libRecOk, { rec with db := rec.db.withQueue t (·.delete (hasPktSn pktSn)) }) := by
  rw [deleteData_eq, deleteFrom, execStatement_eq, if_neg (by decide), if_neg hs, if_pos ho]

/-- A delete that returns LIB_REC_OK has executed its statement. -/
theorem deleteData_ok {t : QueueTable} {o : SqliteOutcome} {pktSn : CInt} {rec rec' : RecordsFile}
    (h : t.deleteData o pktSn rec = .ok (libRecOk, rec')) :
    rec'.db = rec.db.withQueue t (·.delete (hasPktSn pktSn)) := by
  rw [deleteData_eq, deleteFrom, execStatement_eq, if_neg (by decide)] at h
  split at h
  · cases h
  · split at h
    · cases h
      rfl
    · have hcode := (Prod.mk.inj (Except.ok.inj h)).1
      exact absurd hcode (by decide)

/-- No select changes a table. -/
theorem selectPacket_db {ptrs : Bool} {o : SqliteOutcome} {sql : Db → Option PacketRow}
    {rec rec' : RecordsFile} {r : Int × Option Packet}
    (h : selectPacket ptrs o sql rec = .ok (r, rec')) : rec'.db = rec.db := by
  by_cases hs : rec.sem = 0
  · rw [selectPacket_eq, if_pos hs] at h
    split at h
    · cases h
      rfl
    · cases h
  · by_cases hlong : ptrs = true ∧ o.Executes ∧
        ∃ row, sql rec.db = some row ∧ 512 < (sqlite3ColumnInt row.pktLen).toInt
    · obtain ⟨rfl, ho, row, hrow, hlong⟩ := hlong
      rw [selectPacket_long ho hs hrow hlong] at h
      cases h
      rfl
    · have hshort : ptrs = true → o.Executes → ∀ row, sql rec.db = some row →
          (sqlite3ColumnInt row.pktLen).toInt ≤ 512 := by
        intro hp ho row hrow
        by_contra hgt
        exact hlong ⟨hp, ho, row, hrow, by omega⟩
      rcases selectPacket_balanced hs hshort with ⟨r', hok⟩ | herr
      · rw [hok] at h
        cases h
        rfl
      · rw [herr] at h
        cases h

theorem selectData_db {t : QueueTable} {ptrs : Bool} {o : SqliteOutcome} {pktSn : CInt}
    {rec rec' : RecordsFile} {r : Int × Option (CInt × List UInt8)}
    (h : t.selectData ptrs o pktSn rec = .ok (r, rec')) : rec'.db = rec.db := by
  rw [selectData_eq, selectFrom] at h
  cases hselect : selectPacket ptrs o (fun db => (db.queue t).first (hasPktSn pktSn)) rec with
  | error e =>
    rw [map_error hselect] at h
    cases h
  | ok q =>
    obtain ⟨q, rec''⟩ := q
    rw [map_ok hselect] at h
    cases h
    exact selectPacket_db hselect

/-- Insert, select by the same number, and delete by it: the select returns what was
inserted and the delete leaves the rows that were there before. -/
def InsertSelectDelete (t : QueueTable) (rec : RecordsFile) (pktSn : CInt) (pid : Vector UInt8 8)
    (macaddr : Vector UInt8 6) (pktLen : CInt) (pktData : Nat → UInt8) : Prop :=
  ∃ rec₁ rec₂ rec₃,
    t.insertData true .good pktSn pid macaddr pktLen pktData rec = .ok (libRecOk, rec₁) ∧
    t.selectData true .good pktSn rec₁ =
      .ok ((libRecOk, some (pktLen, (List.range pktLen.toNat).map pktData)), rec₂) ∧
    t.deleteData .good pktSn rec₂ = .ok (libRecOk, rec₃) ∧
    (rec₃.db.queue t).rows = (rec.db.queue t).rows

/-- A number that is not negative is printed as it was bound. -/
theorem hasPktSn_iff {pktSn : CInt} (h : 0 ≤ pktSn.toInt) (row : PacketRow) :
    hasPktSn pktSn row = true ↔ row.pktSn = pktSn.toInt := by
  rw [hasPktSn, decide_eq_true_iff, toInt_of_nonneg h]

section Law

variable {t : QueueTable} {rec : RecordsFile} {pktSn pktLen : CInt} {pid : Vector UInt8 8}
  {macaddr : Vector UInt8 6} {pktData : Nat → UInt8}

theorem insertSelectDelete_of_nonneg (hs : rec.sem ≠ 0)
    (habsent : ∀ row ∈ (rec.db.queue t).values, row.pktSn ≠ pktSn.toInt)
    (h1 : 1 ≤ pktLen.toInt) (h512 : pktLen.toInt ≤ 512) (hsn : 0 ≤ pktSn.toInt) :
    InsertSelectDelete t rec pktSn pid macaddr pktLen pktData := by
  have hgood : SqliteOutcome.good.Executes := ⟨rfl, rfl⟩
  have hholds := packetRow_holds h1 h512 .good pktSn pid macaddr pktData
  set row := packetRow .good pktSn pid macaddr pktLen pktData
  have hnew : hasPktSn pktSn row = true := (hasPktSn_iff hsn row).mpr rfl
  have hold : ∀ r ∈ (rec.db.queue t).values, hasPktSn pktSn r = false := by
    intro r hr
    rw [← Bool.not_eq_true, hasPktSn_iff hsn]
    exact habsent r hr
  obtain ⟨rec₁, hrec₁⟩ : ∃ rec₁ : RecordsFile,
      rec₁ = { rec with db := rec.db.withQueue t (·.insert row) } := ⟨_, rfl⟩
  have hs₁ : rec₁.sem ≠ 0 := by rw [hrec₁]; exact hs
  have hqueue : rec₁.db.queue t = (rec.db.queue t).insert row := by
    rw [hrec₁, Db.queue_withQueue_same]
  refine ⟨rec₁, rec₁, _, ?_, ?_, deleteData_executes t hgood hs₁ pktSn, ?_⟩
  · rw [hrec₁]
    exact insertData_executes t hgood hs pktSn pid macaddr pktLen pktData
  · have hfirst : (rec₁.db.queue t).first (hasPktSn pktSn) = some row := by
      rw [hqueue]
      exact RowTable.first_insert _ hnew hold
    have hlen : sqlite3ColumnInt row.pktLen = pktLen := BitVec.ofInt_toInt
    have hselect : selectPacket true .good (fun db => (db.queue t).first (hasPktSn pktSn)) rec₁ =
        .ok ((libRecOk, some ⟨sqlite3ColumnInt row.pktSn, sqlite3ColumnInt row.pktLen,
          (List.range pktLen.toNat).map pktData⟩), rec₁) :=
      selectPacket_holds hgood hs₁ hfirst hholds
    rw [hlen] at hselect
    rw [selectData_eq, selectFrom]
    exact map_ok hselect _
  · rw [Db.queue_withQueue_same, hqueue]
    exact RowTable.rows_delete_insert _ hnew hold

theorem nonneg_of_insertSelectDelete (hs : rec.sem ≠ 0)
    (habsent : ∀ row ∈ (rec.db.queue t).values, row.pktSn ≠ pktSn.toInt)
    (h : InsertSelectDelete t rec pktSn pid macaddr pktLen pktData) : 0 ≤ pktSn.toInt := by
  by_contra hneg
  obtain ⟨rec₁, rec₂, rec₃, hins, hsel, hdel, hrows⟩ := h
  rw [insertData_executes t ⟨rfl, rfl⟩ hs] at hins
  cases hins
  have hkept : packetRow .good pktSn pid macaddr pktLen pktData ∈ (rec₃.db.queue t).values := by
    rw [deleteData_ok hdel, selectData_db hsel, Db.queue_withQueue_same, Db.queue_withQueue_same,
      RowTable.mem_values_delete, RowTable.values_insert]
    refine ⟨List.mem_append_right _ List.mem_cons_self, ?_⟩
    rw [hasPktSn, decide_eq_false_iff_not, packetRow]
    simp only
    omega
  rw [RowTable.values, hrows] at hkept
  exact habsent _ hkept rfl

end Law

/-- The law of insert, select and delete holds exactly for the numbers that are not
negative, on every table and whatever it holds. -/
theorem insert_select_delete_iff (t : QueueTable) (rec : RecordsFile) (hs : rec.sem ≠ 0)
    (pktSn : CInt) (habsent : ∀ row ∈ (rec.db.queue t).values, row.pktSn ≠ pktSn.toInt)
    (pid : Vector UInt8 8) (macaddr : Vector UInt8 6) (pktLen : CInt) (h1 : 1 ≤ pktLen.toInt)
    (h512 : pktLen.toInt ≤ 512) (pktData : Nat → UInt8) :
    InsertSelectDelete t rec pktSn pid macaddr pktLen pktData ↔ 0 ≤ pktSn.toInt :=
  ⟨nonneg_of_insertSelectDelete hs habsent, insertSelectDelete_of_nonneg hs habsent h1 h512⟩

theorem insert_select_delete_five :
    InsertSelectDelete .recharge (.created .empty) 5 (Vector.replicate 8 0) (Vector.replicate 6 0)
      3 (fun _ => 7) :=
  (insert_select_delete_iff .recharge (.created .empty) (by decide) 5 (by decide)
    (Vector.replicate 8 0) (Vector.replicate 6 0) 3 (by decide) (by decide) (fun _ => 7)).mpr
    (by decide)

/-- The number -1 is bound as -1 and looked for as 4294967295. -/
theorem insert_select_delete_minus_one :
    ¬ InsertSelectDelete .recharge (.created .empty) (-1) (Vector.replicate 8 0)
      (Vector.replicate 6 0) 3 (fun _ => 7) := by
  intro h
  exact absurd (nonneg_of_insertSelectDelete (by decide) (by decide) h) (by decide)

end BackupSoftware.Records

import BackupSoftware.Records.Sqlite

/-!
# The operations of the record store

The functions of the four queue tables are copies of each other, and inserts and
deletes share one shape: both are written once, with the table as a parameter.
Each shape has one equation that says what it does in every case; nothing after
it looks inside.
-/

namespace BackupSoftware.Records

open BackupSoftware.Library

/-- Inserts and deletes: everything around the statement. `ptrs` says that no pointer
argument is NULL. -/
def execStatement (ptrs : Bool) (o : SqliteOutcome) (sql : Db → Db) : Prog Int := do
  if ptrs = false then
    return libRecError
  else
    semP
    let (ok, stmt) ← sqlite3PrepareV2 o.prepare
    if ok = false then
      if stmt then sqlite3Finalize
      semV
      return libRecError
    else
      match ← sqlite3Step o.step fun db => (sql db, (none : Option Unit)) with
      | .done =>
          sqlite3Finalize
          semV
          return libRecOk
      | _ =>
          sqlite3Finalize
          semV
          return libRecError

/-- What a select stores at the caller's pointers. -/
structure Packet where
  pktSn : CInt
  pktLen : CInt
  pktData : List UInt8
  deriving DecidableEq

/-- The selects after SQLITE_ROW, on columns 1, 4 and 5 of the row. With more than 512 bytes they
return without finalizing the statement and without releasing the semaphore. -/
def selectRow (row : PacketRow) : Prog (Int × Option Packet) := do
  let pktSn := sqlite3ColumnInt row.pktSn
  let pktLen := sqlite3ColumnInt row.pktLen
  if 512 < pktLen.toInt then
    return (libRecError, none)
  else
    match sqlite3ColumnBlob row.pktData with
    | some blob =>
        let pktData ← memcpy blob pktLen
        sqlite3Finalize
        semV
        return (libRecOk, some ⟨pktSn, pktLen, pktData⟩)
    | none =>
        sqlite3Finalize
        semV
        return (libRecOk, none)

/-- Both selects: the return code, and what is stored if anything is. -/
def selectPacket (ptrs : Bool) (o : SqliteOutcome) (sql : Db → Option PacketRow) :
    Prog (Int × Option Packet) := do
  if ptrs = false then
    return (libRecError, none)
  else
    semP
    let (ok, stmt) ← sqlite3PrepareV2 o.prepare
    if ok = false then
      if stmt then sqlite3Finalize
      semV
      return (libRecError, none)
    else
      match ← sqlite3Step o.step fun db => (db, sql db) with
      | .row row => selectRow row
      | _ =>
          sqlite3Finalize
          semV
          return (libRecOk, none)

/-- The counts: the return code and what is stored at `count`. -/
def countRows (ptrs : Bool) (o : SqliteOutcome) (sql : Db → Nat) : Prog (Int × Option CInt) := do
  if ptrs = false then
    return (libRecError, none)
  else
    semP
    let (ok, stmt) ← sqlite3PrepareV2 o.prepare
    if ok = false then
      if stmt then sqlite3Finalize
      semV
      return (libRecError, none)
    else
      match ← sqlite3Step o.step fun db => (db, some (sql db)) with
      | .row n =>
          sqlite3Finalize
          semV
          return (libRecOk, some (sqlite3ColumnInt n))
      | _ =>
          sqlite3Finalize
          semV
          return (libRecError, none)

theorem sem_restored {rec : RecordsFile} (h : rec.sem ≠ 0) : rec.sem - 1 + 1 = rec.sem :=
  Nat.sub_add_cancel (Nat.pos_of_ne_zero h)

theorem execStatement_eq (ptrs : Bool) (o : SqliteOutcome) (sql : Db → Db) (rec : RecordsFile) :
    execStatement ptrs o sql rec =
      if ptrs = false then .ok (libRecError, rec)
      else if rec.sem = 0 then .error .blocked
      else if o.Executes then .ok (libRecOk, { rec with db := sql rec.db })
      else .ok (libRecError, rec) := by
  obtain ⟨prepare, step, blob⟩ := o
  cases ptrs with
  | false => rfl
  | true =>
    by_cases hs : rec.sem = 0
    · simp [execStatement, semP, hs]
    · have hsem := sem_restored hs
      rcases prepare with _ | _ | _
      all_goals cases step
      all_goals simp [execStatement, semP, semV, sqlite3PrepareV2, sqlite3Step, sqlite3Finalize,
        SqliteOutcome.Executes, hs, hsem]

/-- The row branch, entered with the semaphore taken and one more statement. -/
theorem selectRow_eq (row : PacketRow) {rec : RecordsFile} (hs : rec.sem ≠ 0) :
    selectRow row { rec with sem := rec.sem - 1, stmts := rec.stmts + 1 } =
      if 512 < (sqlite3ColumnInt row.pktLen).toInt then
        .ok ((libRecError, none), { rec with sem := rec.sem - 1, stmts := rec.stmts + 1 })
      else
        match sqlite3ColumnBlob row.pktData with
        | none => .ok ((libRecOk, none), rec)
        | some blob =>
            if 0 ≤ (sqlite3ColumnInt row.pktLen).toInt ∧
                (sqlite3ColumnInt row.pktLen).toInt ≤ blob.length then
              .ok ((libRecOk, some ⟨sqlite3ColumnInt row.pktSn, sqlite3ColumnInt row.pktLen,
                blob.take (sqlite3ColumnInt row.pktLen).toNat⟩), rec)
            else .error .undefined := by
  have hsem := sem_restored hs
  unfold selectRow
  by_cases hlong : 512 < (sqlite3ColumnInt row.pktLen).toInt
  · simp only [hlong, ↓reduceIte]
    rfl
  · simp only [hlong, ↓reduceIte]
    cases sqlite3ColumnBlob row.pktData with
    | none =>
      simp [semV, sqlite3Finalize, hsem]
    | some blob =>
      by_cases hcopy : 0 ≤ (sqlite3ColumnInt row.pktLen).toInt ∧
          (sqlite3ColumnInt row.pktLen).toInt ≤ blob.length
      · simp [memcpy, semV, sqlite3Finalize, hcopy, hsem]
      · simp [memcpy, hcopy]

theorem selectPacket_eq (ptrs : Bool) (o : SqliteOutcome) (sql : Db → Option PacketRow)
    (rec : RecordsFile) :
    selectPacket ptrs o sql rec =
      if ptrs = false then .ok ((libRecError, none), rec)
      else if rec.sem = 0 then .error .blocked
      else if o.prepare ≠ .ok then .ok ((libRecError, none), rec)
      else if o.step ≠ .executes then .ok ((libRecOk, none), rec)
      else
        match sql rec.db with
        | none => .ok ((libRecOk, none), rec)
        | some row => selectRow row { rec with sem := rec.sem - 1, stmts := rec.stmts + 1 } := by
  obtain ⟨prepare, step, cell⟩ := o
  cases ptrs with
  | false => rfl
  | true =>
    by_cases hs : rec.sem = 0
    · simp [selectPacket, semP, hs]
    · have hsem := sem_restored hs
      rcases prepare with _ | stmt
      · cases step with
        | fails =>
          simp [selectPacket, semP, semV, sqlite3PrepareV2, sqlite3Step, sqlite3Finalize, hs, hsem]
        | executes =>
          cases hrow : sql rec.db with
          | none =>
            simp [selectPacket, semP, semV, sqlite3PrepareV2, sqlite3Step, sqlite3Finalize, hs,
              hsem, hrow]
          | some row =>
            simp [selectPacket, semP, sqlite3PrepareV2, sqlite3Step, hs, hrow]
      · cases stmt <;>
          simp [selectPacket, semP, semV, sqlite3PrepareV2, sqlite3Finalize, hs, hsem]

theorem countRows_eq (ptrs : Bool) (o : SqliteOutcome) (sql : Db → Nat) (rec : RecordsFile) :
    countRows ptrs o sql rec =
      if ptrs = false then .ok ((libRecError, none), rec)
      else if rec.sem = 0 then .error .blocked
      else if o.Executes then .ok ((libRecOk, some (sqlite3ColumnInt (sql rec.db))), rec)
      else .ok ((libRecError, none), rec) := by
  obtain ⟨prepare, step, blob⟩ := o
  cases ptrs with
  | false => rfl
  | true =>
    by_cases hs : rec.sem = 0
    · simp [countRows, semP, hs]
    · have hsem := sem_restored hs
      rcases prepare with _ | _ | _
      all_goals cases step
      all_goals simp [countRows, semP, semV, sqlite3PrepareV2, sqlite3Step, sqlite3Finalize,
        SqliteOutcome.Executes, hs, hsem]

theorem execStatement_balanced {ptrs : Bool} {o : SqliteOutcome} {sql : Db → Db}
    {rec : RecordsFile} (hs : rec.sem ≠ 0) :
    ∃ code db, execStatement ptrs o sql rec = .ok (code, { rec with db := db }) ∧
      (db = rec.db ∨ db = sql rec.db) := by
  rw [execStatement_eq]
  by_cases hp : ptrs = false
  · exact ⟨libRecError, rec.db, if_pos hp, Or.inl rfl⟩
  · rw [if_neg hp, if_neg hs]
    by_cases ho : o.Executes
    · exact ⟨libRecOk, sql rec.db, if_pos ho, Or.inr rfl⟩
    · exact ⟨libRecError, rec.db, if_neg ho, Or.inl rfl⟩

theorem countRows_balanced {ptrs : Bool} {o : SqliteOutcome} {sql : Db → Nat}
    {rec : RecordsFile} (hs : rec.sem ≠ 0) : ∃ r, countRows ptrs o sql rec = .ok (r, rec) := by
  rw [countRows_eq]
  by_cases hp : ptrs = false
  · exact ⟨_, if_pos hp⟩
  · rw [if_neg hp, if_neg hs]
    by_cases ho : o.Executes
    · exact ⟨_, if_pos ho⟩
    · exact ⟨_, if_neg ho⟩

/-- A select that reads no row with `pkt_len` above 512 leaves the handle as it was,
unless the copy goes outside the blob. -/
theorem selectPacket_balanced {ptrs : Bool} {o : SqliteOutcome} {sql : Db → Option PacketRow}
    {rec : RecordsFile} (hs : rec.sem ≠ 0)
    (hshort : ptrs = true → o.Executes → ∀ row, sql rec.db = some row →
      (sqlite3ColumnInt row.pktLen).toInt ≤ 512) :
    (∃ r, selectPacket ptrs o sql rec = .ok (r, rec)) ∨
      selectPacket ptrs o sql rec = .error .undefined := by
  rw [selectPacket_eq]
  cases ptrs with
  | false => exact Or.inl ⟨_, rfl⟩
  | true =>
    simp only [Bool.true_eq_false, hs, ↓reduceIte]
    split
    · exact Or.inl ⟨_, rfl⟩
    · rename_i hprepare
      split
      · exact Or.inl ⟨_, rfl⟩
      · rename_i hstep
        cases hrow : sql rec.db with
        | none => exact Or.inl ⟨_, rfl⟩
        | some row =>
          have hlen := hshort rfl ⟨not_not.mp hprepare, not_not.mp hstep⟩ row hrow
          have hnot : ¬ 512 < (sqlite3ColumnInt row.pktLen).toInt := by omega
          simp only [selectRow_eq row hs, hnot, ↓reduceIte]
          split
          · exact Or.inl ⟨_, rfl⟩
          · split
            · exact Or.inl ⟨_, rfl⟩
            · exact Or.inr rfl

/-- A select that reads a row with `pkt_len` above 512 keeps the semaphore and the statement. -/
theorem selectPacket_long {o : SqliteOutcome} (ho : o.Executes) {sql : Db → Option PacketRow}
    {rec : RecordsFile} (hs : rec.sem ≠ 0) {row : PacketRow} (hrow : sql rec.db = some row)
    (hlong : 512 < (sqlite3ColumnInt row.pktLen).toInt) :
    selectPacket true o sql rec =
      .ok ((libRecError, none), { rec with sem := rec.sem - 1, stmts := rec.stmts + 1 }) := by
  rw [selectPacket_eq]
  simp only [Bool.true_eq_false, hs, ho.1, ho.2, ne_eq, not_true_eq_false, ↓reduceIte, hrow,
    selectRow_eq row hs, hlong]

/-- The tables after a change to one of the queue tables. -/
def Db.withQueue (db : Db) (t : QueueTable) (f : RowTable PacketRow → RowTable PacketRow) : Db :=
  { db with queue := Function.update db.queue t (f (db.queue t)) }

@[simp] theorem Db.queue_withQueue_same (db : Db) (t : QueueTable)
    (f : RowTable PacketRow → RowTable PacketRow) : (db.withQueue t f).queue t = f (db.queue t) :=
  Function.update_self ..

theorem Db.queue_withQueue_ne (db : Db) {t t' : QueueTable} (h : t' ≠ t)
    (f : RowTable PacketRow → RowTable PacketRow) : (db.withQueue t f).queue t' = db.queue t' :=
  Function.update_of_ne h ..

/-- The row that an insert binds: the number goes in as a signed integer. -/
def packetRow (o : SqliteOutcome) (pktSn : CInt) (pid : Vector UInt8 8) (macaddr : Vector UInt8 6)
    (pktLen : CInt) (pktData : Nat → UInt8) : PacketRow where
  pktSn := pktSn.toInt
  pid := pid
  macaddr := macaddr
  pktLen := pktLen.toInt
  pktData := sqlite3BindBlob o pktData pktLen

/-- The condition `pkt_sn = %u`: the number is printed as an unsigned integer. -/
def hasPktSn (pktSn : CInt) (row : PacketRow) : Bool := row.pktSn = (pktSn.toNat : Int)

def insertInto (t : QueueTable) (ptrs : Bool) (o : SqliteOutcome) (pktSn : CInt)
    (pid : Vector UInt8 8) (macaddr : Vector UInt8 6) (pktLen : CInt) (pktData : Nat → UInt8) :
    Prog Int :=
  execStatement ptrs o fun db =>
    db.withQueue t (·.insert (packetRow o pktSn pid macaddr pktLen pktData))

/-- Of `SELECT * … WHERE pkt_sn = %u` only the first row is read. -/
def selectFrom (t : QueueTable) (ptrs : Bool) (o : SqliteOutcome) (pktSn : CInt) :
    Prog (Int × Option (CInt × List UInt8)) :=
  (fun r => (r.1, r.2.map fun p => (p.pktLen, p.pktData))) <$>
    selectPacket ptrs o fun db => (db.queue t).first (hasPktSn pktSn)

def selectAllFrom (t : QueueTable) (ptrs : Bool) (o : SqliteOutcome) : Prog (Int × Option Packet) :=
  selectPacket ptrs o fun db => (db.queue t).first fun _ => true

def deleteFrom (t : QueueTable) (o : SqliteOutcome) (pktSn : CInt) : Prog Int :=
  execStatement true o fun db => db.withQueue t (·.delete (hasPktSn pktSn))

def countIn (t : QueueTable) (ptrs : Bool) (o : SqliteOutcome) : Prog (Int × Option CInt) :=
  countRows ptrs o fun db => (db.queue t).rows.length

def libRecordsConsumeInsertData (ptrs : Bool) (o : SqliteOutcome) (pktSn : CInt)
    (pid lid : Vector UInt8 8) (tradeRecord : Vector UInt8 90) : Prog Int :=
  execStatement ptrs o fun db =>
    { db with consume := db.consume.insert ⟨pktSn.toInt, pid, lid, tradeRecord⟩ }

def libRecordsExceptionInsertData (ptrs : Bool) (o : SqliteOutcome) (sn : CInt)
    (pid : Vector UInt8 8) (tradeRecord : Vector UInt8 90) : Prog Int :=
  execStatement ptrs o fun db =>
    { db with exception := db.exception.insert ⟨sn.toInt, pid, tradeRecord⟩ }

def libRecordsReconsumeInsertData := insertInto .reconsume
def libRecordsReconsumeSelectData := selectFrom .reconsume
def libRecordsReconsumeSelectAllData := selectAllFrom .reconsume
def libRecordsReconsumeDeleteData := deleteFrom .reconsume
def libRecordsReconsumeCount := countIn .reconsume

def libRecordsOncardAckInsertData := insertInto .oncardAck
def libRecordsOncardAckSelectData := selectFrom .oncardAck
def libRecordsOncardAckSelectAllData := selectAllFrom .oncardAck
def libRecordsOncardAckDeleteData := deleteFrom .oncardAck
def libRecordsOncardAckCount := countIn .oncardAck

def libRecordsOffcardAckInsertData := insertInto .offcardAck
def libRecordsOffcardAckSelectData := selectFrom .offcardAck
def libRecordsOffcardAckSelectAllData := selectAllFrom .offcardAck
def libRecordsOffcardAckDeleteData := deleteFrom .offcardAck
def libRecordsOffcardAckCount := countIn .offcardAck

def libRecordsRechargeInsertData := insertInto .recharge
def libRecordsRechargeSelectData := selectFrom .recharge
def libRecordsRechargeSelectAllData := selectAllFrom .recharge
def libRecordsRechargeDeleteData := deleteFrom .recharge
def libRecordsRechargeCount := countIn .recharge

/-! The function of each name for a given table. -/

def QueueTable.insertData : QueueTable → Bool → SqliteOutcome → CInt → Vector UInt8 8 →
    Vector UInt8 6 → CInt → (Nat → UInt8) → Prog Int
  | .reconsume => libRecordsReconsumeInsertData
  | .oncardAck => libRecordsOncardAckInsertData
  | .offcardAck => libRecordsOffcardAckInsertData
  | .recharge => libRecordsRechargeInsertData

def QueueTable.selectData : QueueTable → Bool → SqliteOutcome → CInt →
    Prog (Int × Option (CInt × List UInt8))
  | .reconsume => libRecordsReconsumeSelectData
  | .oncardAck => libRecordsOncardAckSelectData
  | .offcardAck => libRecordsOffcardAckSelectData
  | .recharge => libRecordsRechargeSelectData

def QueueTable.selectAllData : QueueTable → Bool → SqliteOutcome → Prog (Int × Option Packet)
  | .reconsume => libRecordsReconsumeSelectAllData
  | .oncardAck => libRecordsOncardAckSelectAllData
  | .offcardAck => libRecordsOffcardAckSelectAllData
  | .recharge => libRecordsRechargeSelectAllData

def QueueTable.deleteData : QueueTable → SqliteOutcome → CInt → Prog Int
  | .reconsume => libRecordsReconsumeDeleteData
  | .oncardAck => libRecordsOncardAckDeleteData
  | .offcardAck => libRecordsOffcardAckDeleteData
  | .recharge => libRecordsRechargeDeleteData

def QueueTable.count : QueueTable → Bool → SqliteOutcome → Prog (Int × Option CInt)
  | .reconsume => libRecordsReconsumeCount
  | .oncardAck => libRecordsOncardAckCount
  | .offcardAck => libRecordsOffcardAckCount
  | .recharge => libRecordsRechargeCount

theorem insertData_eq (t : QueueTable) : t.insertData = insertInto t := by cases t <;> rfl

theorem selectData_eq (t : QueueTable) : t.selectData = selectFrom t := by cases t <;> rfl

theorem selectAllData_eq (t : QueueTable) : t.selectAllData = selectAllFrom t := by
  cases t <;> rfl

theorem deleteData_eq (t : QueueTable) : t.deleteData = deleteFrom t := by cases t <;> rfl

theorem count_eq (t : QueueTable) : t.count = countIn t := by cases t <;> rfl

end BackupSoftware.Records

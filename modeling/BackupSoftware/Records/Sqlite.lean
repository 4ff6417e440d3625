import BackupSoftware.Library.RowTable
import Mathlib.Logic.Function.Basic

/-!
# The record store: tables, semaphore and the SQLite calls

The data model of `records/records.c`. SQLite is not part of the repository: a
prepared statement is a function on the tables, and what `sqlite3_prepare_v2` and
`sqlite3_step` return is given from outside. A call that waits for the semaphore
for ever, or that copies from outside a blob, does not return.
-/

namespace BackupSoftware.Records

open BackupSoftware.Library

/-- The C type `int`. -/
abbrev CInt := BitVec 32

def libRecOk : Int := 0
def libRecError : Int := 1

/-- Why a call does not return. -/
inductive Stop where
  | blocked
  | undefined
  deriving DecidableEq, Repr

/-- The four tables with the columns of REC_RECONSUME. -/
inductive QueueTable where
  | reconsume
  | oncardAck
  | offcardAck
  | recharge
  deriving DecidableEq, Repr

/-- A row of REC_CONSUME without `last_time`, which nothing reads. -/
structure ConsumeRow where
  pktSn : Int
  pid : Vector UInt8 8
  lid : Vector UInt8 8
  tradeRecord : Vector UInt8 90

/-- A row of REC_EXCEPTION. -/
structure ExceptionRow where
  sn : Int
  pid : Vector UInt8 8
  tradeRecord : Vector UInt8 90

/-- A row of one of the queue tables. `pktData` is `none` for NULL. -/
structure PacketRow where
  pktSn : Int
  pid : Vector UInt8 8
  macaddr : Vector UInt8 6
  pktLen : Int
  pktData : Option (List UInt8)
  deriving DecidableEq

structure Db where
  consume : RowTable ConsumeRow
  exception : RowTable ExceptionRow
  queue : QueueTable → RowTable PacketRow

def Db.empty : Db := ⟨.empty, .empty, fun _ => .empty⟩

/-- The handle, `struct records_file`, after a successful `lib_records_create`: the value
of its semaphore, the number of statements not yet finalized, and the tables. -/
structure RecordsFile where
  sem : Nat
  stmts : Nat
  db : Db

/-- The handle as `lib_records_create` returns it, over whatever the file held. -/
def RecordsFile.created (db : Db) : RecordsFile := ⟨1, 0, db⟩

abbrev Prog := StateT RecordsFile (Except Stop)

@[simp] theorem pure_run {α : Type} (a : α) (rec : RecordsFile) :
    (pure a : Prog α) rec = .ok (a, rec) := rfl

@[simp] theorem bind_run {α β : Type} (x : Prog α) (f : α → Prog β) (rec : RecordsFile) :
    (x >>= f) rec =
      match x rec with
      | .error e => .error e
      | .ok (a, rec') => f a rec' := by
  show (x rec >>= fun r => f r.1 r.2) = _
  cases x rec with
  | error e => rfl
  | ok r => rfl

@[simp] theorem map_run {α β : Type} (f : α → β) (x : Prog α) (rec : RecordsFile) :
    (f <$> x) rec =
      match x rec with
      | .error e => .error e
      | .ok (a, rec') => .ok (f a, rec') := by
  show (x rec >>= fun r => pure (f r.1, r.2)) = _
  cases x rec with
  | error e => rfl
  | ok r => rfl

theorem map_ok {α β : Type} {x : Prog α} {rec rec' : RecordsFile} {a : α}
    (h : x rec = .ok (a, rec')) (f : α → β) : (f <$> x) rec = .ok (f a, rec') := by
  rw [map_run, h]

theorem map_error {α β : Type} {x : Prog α} {rec : RecordsFile} {e : Stop}
    (h : x rec = .error e) (f : α → β) : (f <$> x) rec = .error e := by
  rw [map_run, h]

def semP : Prog Unit := fun rec =>
  if rec.sem = 0 then .error .blocked else .ok ((), { rec with sem := rec.sem - 1 })

def semV : Prog Unit := fun rec => .ok ((), { rec with sem := rec.sem + 1 })

/-- What `sqlite3_prepare_v2` does: SQLITE_OK with a statement, or an error code with
or without one. -/
inductive PrepareOutcome where
  | ok
  | fails (stmt : Bool)
  deriving DecidableEq

/-- What `sqlite3_step` does: it executes the statement, or returns an error code and
changes no table. -/
inductive StepOutcome where
  | executes
  | fails
  deriving DecidableEq

/-- The behaviour of SQLite during one call. `negativeBlob` is the cell that
`sqlite3_bind_blob` leaves for a negative length, where its behaviour is undefined. -/
structure SqliteOutcome where
  prepare : PrepareOutcome
  step : StepOutcome
  negativeBlob : Option (List UInt8)

/-- Nothing fails. -/
def SqliteOutcome.good : SqliteOutcome := ⟨.ok, .executes, none⟩

/-- Both calls succeed. -/
def SqliteOutcome.Executes (o : SqliteOutcome) : Prop := o.prepare = .ok ∧ o.step = .executes

instance (o : SqliteOutcome) : Decidable o.Executes := inferInstanceAs (Decidable (_ ∧ _))

/-- The return code is SQLITE_OK, and the statement is not NULL. -/
def sqlite3PrepareV2 (o : PrepareOutcome) : Prog (Bool × Bool) := fun rec =>
  match o with
  | .ok => .ok ((true, true), { rec with stmts := rec.stmts + 1 })
  | .fails stmt => .ok ((false, stmt), { rec with stmts := rec.stmts + stmt.toNat })

def sqlite3Finalize : Prog Unit := fun rec => .ok ((), { rec with stmts := rec.stmts - 1 })

/-- The return codes of `sqlite3_step`: SQLITE_ROW, SQLITE_DONE and all others. -/
inductive StepCode (ρ : Type) where
  | row (r : ρ)
  | done
  | error

/-- The first step of a statement: its effect on the tables and its first row. -/
def sqlite3Step {ρ : Type} (o : StepOutcome) (sql : Db → Db × Option ρ) : Prog (StepCode ρ) :=
  fun rec =>
    match o with
    | .fails => .ok (.error, rec)
    | .executes =>
        match sql rec.db with
        | (db, some r) => .ok (.row r, { rec with db := db })
        | (db, none) => .ok (.done, { rec with db := db })

/-- The default of SQLITE_MAX_LENGTH. -/
def sqliteMaxLength : Int := 1000000000

/-- The cell that `sqlite3_bind_blob(stmt, i, data, len, SQLITE_STATIC)` stores: NULL
above SQLITE_MAX_LENGTH, where it returns SQLITE_TOOBIG. -/
def sqlite3BindBlob (o : SqliteOutcome) (data : Nat → UInt8) (len : CInt) : Option (List UInt8) :=
  if len.toInt < 0 then o.negativeBlob
  else if sqliteMaxLength < len.toInt then none
  else some ((List.range len.toNat).map data)

/-- The lower 32 bits of an integer cell. -/
def sqlite3ColumnInt (cell : Int) : CInt := BitVec.ofInt 32 cell

/-- A blob cell; NULL for a blob without bytes. -/
def sqlite3ColumnBlob (cell : Option (List UInt8)) : Option (List UInt8) :=
  match cell with
  | none => none
  | some [] => none
  | some (b :: bs) => some (b :: bs)

/-- The bytes that `memcpy` takes from the start of a blob. -/
def memcpy (blob : List UInt8) (len : CInt) : Prog (List UInt8) := fun rec =>
  if 0 ≤ len.toInt ∧ len.toInt ≤ blob.length then .ok (blob.take len.toNat, rec)
  else .error .undefined

end BackupSoftware.Records

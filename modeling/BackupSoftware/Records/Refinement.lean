import BackupSoftware.Library.Trace
import BackupSoftware.Records.QueueLaws
import Mathlib.Algebra.Group.Nat.Defs

/-!
# The queue tables as four lists

What the queue tables are for: four lists of numbers with their payloads, to which an
insert appends, from which a delete removes all entries of a number, and whose length
is counted. Every run of inserts, deletes and counts on the tables is a run on these
lists, whatever the file held and whatever SQLite does. The count is an `int`.
-/

namespace BackupSoftware.Records

open BackupSoftware.Library BackupSoftware.Library.Trace

/-- A call on one of the queue tables, with its arguments. -/
inductive QueueCall where
  | insertData (t : QueueTable) (ptrs : Bool) (pktSn : CInt) (pid : Vector UInt8 8)
      (macaddr : Vector UInt8 6) (pktLen : CInt) (pktData : Nat → UInt8)
  | deleteData (t : QueueTable) (pktSn : CInt)
  | count (t : QueueTable) (ptrs : Bool)

/-- The return code, and what a count stores. -/
def QueueCall.result (o : SqliteOutcome) : QueueCall → Prog (Int × Option CInt)
  | .insertData t ptrs pktSn pid macaddr pktLen pktData =>
      (fun code => (code, none)) <$> t.insertData ptrs o pktSn pid macaddr pktLen pktData
  | .deleteData t pktSn => (fun code => (code, none)) <$> t.deleteData o pktSn
  | .count t ptrs => t.count ptrs o

/-- One call, with what SQLite does during it. -/
def queueStep (rec : RecordsFile) (c : QueueCall × SqliteOutcome) :
    Except Stop (RecordsFile × (Int × Option CInt)) :=
  (c.1.result c.2 rec).map Prod.swap

/-- No pointer argument is NULL. -/
def QueueCall.ptrs : QueueCall → Bool
  | .insertData _ ptrs _ _ _ _ _ => ptrs
  | .deleteData _ _ => true
  | .count _ ptrs => ptrs

/-- The number is not negative. -/
def QueueCall.NonnegSn : QueueCall → Prop
  | .insertData _ _ pktSn _ _ _ _ => 0 ≤ pktSn.toInt
  | .deleteData _ pktSn => 0 ≤ pktSn.toInt
  | .count _ _ => True

/-- For each table the numbers and payloads, in the order of their insertion. A payload is
`none` for NULL. -/
abbrev Lists := QueueTable → List (Int × Option (List UInt8))

/-- The lists that the tables hold. -/
def Db.lists (db : Db) : Lists :=
  fun t => (db.queue t).values.map fun row => (row.pktSn, row.pktData)

/-- What a call that succeeds does. Nothing is said of the payload of an insert with a
length that SQLite cannot bind. -/
def Succeeds (lists : Lists) (c : QueueCall) (count : Option CInt) (lists' : Lists) : Prop :=
  match c with
  | .insertData t _ pktSn _ _ pktLen pktData =>
      ∃ payload, (0 ≤ pktLen.toInt ∧ pktLen.toInt ≤ sqliteMaxLength →
          payload = some ((List.range pktLen.toNat).map pktData)) ∧
        lists' = Function.update lists t (lists t ++ [(pktSn.toInt, payload)])
  | .deleteData t pktSn =>
      lists' = Function.update lists t ((lists t).filter fun e => e.1 ≠ pktSn.toInt)
  | .count t _ =>
      lists' = lists ∧ ∃ n, count = some n ∧ n = BitVec.ofNat 32 (lists t).length ∧
        ((lists t).length < 2 ^ 31 → n.toInt = (lists t).length)

/-- A call succeeds exactly if SQLite executes its statement; otherwise it changes
nothing. -/
def ListStep (lists : Lists) (c : QueueCall × SqliteOutcome) (result : Int × Option CInt)
    (lists' : Lists) : Prop :=
  if c.1.ptrs = true ∧ c.2.Executes then
    result.1 = libRecOk ∧ Succeeds lists c.1 result.2 lists'
  else result = (libRecError, none) ∧ lists' = lists

theorem lists_withQueue (db : Db) (t : QueueTable) (f : RowTable PacketRow → RowTable PacketRow) :
    (db.withQueue t f).lists = Function.update db.lists t
      ((f (db.queue t)).values.map fun row => (row.pktSn, row.pktData)) := by
  funext t'
  by_cases h : t' = t
  · subst h
    rw [Function.update_self, Db.lists, Db.queue_withQueue_same]
  · rw [Function.update_of_ne h, Db.lists, Db.queue_withQueue_ne db h]
    rfl

theorem lists_insert (db : Db) (t : QueueTable) (row : PacketRow) :
    (db.withQueue t (·.insert row)).lists =
      Function.update db.lists t (db.lists t ++ [(row.pktSn, row.pktData)]) := by
  rw [lists_withQueue, RowTable.values_insert, List.map_append]
  rfl

theorem lists_delete (db : Db) (t : QueueTable) {pktSn : CInt} (hsn : 0 ≤ pktSn.toInt) :
    (db.withQueue t (·.delete (hasPktSn pktSn))).lists =
      Function.update db.lists t ((db.lists t).filter fun e => e.1 ≠ pktSn.toInt) := by
  rw [lists_withQueue, RowTable.values_delete, Db.lists, List.filter_map]
  congr 2
  apply List.filter_congr
  intro row _
  have h := hasPktSn_iff hsn row
  by_cases hrow : row.pktSn = pktSn.toInt
  · rw [h.mpr hrow]
    simp [hrow]
  · rw [Bool.eq_false_iff.mpr fun htrue => hrow (h.mp htrue)]
    simp [hrow]

theorem length_lists (db : Db) (t : QueueTable) :
    (db.lists t).length = (db.queue t).rows.length := by
  rw [Db.lists, RowTable.values, List.length_map, List.length_map]

theorem bindBlob_payload (o : SqliteOutcome) (pktData : Nat → UInt8) {pktLen : CInt}
    (h : 0 ≤ pktLen.toInt ∧ pktLen.toInt ≤ sqliteMaxLength) :
    sqlite3BindBlob o pktData pktLen = some ((List.range pktLen.toNat).map pktData) := by
  rw [sqlite3BindBlob, if_neg (by omega), if_neg (by omega)]

theorem columnInt_length (n : Nat) :
    sqlite3ColumnInt n = BitVec.ofNat 32 n ∧
      (n < 2 ^ 31 → (sqlite3ColumnInt n).toInt = n) := by
  refine ⟨BitVec.ofInt_natCast .., fun h => ?_⟩
  rw [sqlite3ColumnInt, BitVec.toInt_ofInt]
  exact Int.bmod_eq_of_le (by omega) (by omega)

theorem queueStep_of_ok {rec rec' : RecordsFile} {c : QueueCall} {o : SqliteOutcome}
    {r : Int × Option CInt} (h : c.result o rec = .ok (r, rec')) :
    queueStep rec (c, o) = .ok (rec', r) := by
  rw [queueStep, h]
  rfl

/-! What the three functions do when the semaphore is free. -/

section Calls

variable {rec : RecordsFile} (hs : rec.sem ≠ 0) (t : QueueTable) (ptrs : Bool) (o : SqliteOutcome)
  (pktSn : CInt)

include hs

theorem execStatement_free (sql : Db → Db) :
    execStatement ptrs o sql rec =
      if ptrs = true ∧ o.Executes then .ok (libRecOk, { rec with db := sql rec.db })
      else .ok (libRecError, rec) := by
  rw [execStatement_eq]
  cases ptrs with
  | false => simp
  | true => simp [hs]

theorem insertData_free (pid : Vector UInt8 8) (macaddr : Vector UInt8 6) (pktLen : CInt)
    (pktData : Nat → UInt8) :
    t.insertData ptrs o pktSn pid macaddr pktLen pktData rec =
      if ptrs = true ∧ o.Executes then
        .ok (libRecOk, { rec with
          db := rec.db.withQueue t (·.insert (packetRow o pktSn pid macaddr pktLen pktData)) })
      else .ok (libRecError, rec) := by
  rw [insertData_eq, insertInto, execStatement_free hs]

theorem deleteData_free :
    t.deleteData o pktSn rec =
      if true = true ∧ o.Executes then
        .ok (libRecOk, { rec with db := rec.db.withQueue t (·.delete (hasPktSn pktSn)) })
      else .ok (libRecError, rec) := by
  rw [deleteData_eq, deleteFrom, execStatement_free hs]

theorem count_free :
    t.count ptrs o rec =
      if ptrs = true ∧ o.Executes then
        .ok ((libRecOk, some (sqlite3ColumnInt (rec.db.lists t).length)), rec)
      else .ok ((libRecError, none), rec) := by
  rw [count_eq, countIn, countRows_eq, length_lists]
  cases ptrs with
  | false => simp
  | true => simp [hs]

end Calls

/-- The call is one step on the lists, and the rest of the handle is as it was. -/
theorem queueStep_refines {rec : RecordsFile} (hs : rec.sem ≠ 0) {c : QueueCall × SqliteOutcome}
    (hsn : c.1.NonnegSn) :
    ∃ queue result,
      queueStep rec c = .ok ({ rec with db := { rec.db with queue := queue } }, result) ∧
        ListStep rec.db.lists c result { rec.db with queue := queue }.lists := by
  obtain ⟨c, o⟩ := c
  unfold ListStep
  cases c with
  | insertData t ptrs pktSn pid macaddr pktLen pktData =>
    have hcall := insertData_free hs t ptrs o pktSn pid macaddr pktLen pktData
    by_cases hok : ptrs = true ∧ o.Executes
    · rw [if_pos hok] at hcall
      refine ⟨_, _, queueStep_of_ok (map_ok hcall _), ?_⟩
      rw [if_pos (by exact hok)]
      exact ⟨rfl, _, bindBlob_payload o pktData, lists_insert rec.db t _⟩
    · rw [if_neg hok] at hcall
      refine ⟨rec.db.queue, _, queueStep_of_ok (map_ok hcall _), ?_⟩
      rw [if_neg (by exact hok)]
      exact ⟨rfl, rfl⟩
  | deleteData t pktSn =>
    have hcall := deleteData_free hs t o pktSn
    by_cases hok : true = true ∧ o.Executes
    · rw [if_pos hok] at hcall
      refine ⟨_, _, queueStep_of_ok (map_ok hcall _), ?_⟩
      rw [if_pos (by exact hok)]
      exact ⟨rfl, lists_delete rec.db t hsn⟩
    · rw [if_neg hok] at hcall
      refine ⟨rec.db.queue, _, queueStep_of_ok (map_ok hcall _), ?_⟩
      rw [if_neg (by exact hok)]
      exact ⟨rfl, rfl⟩
  | count t ptrs =>
    have hcall := count_free hs t ptrs o
    by_cases hok : ptrs = true ∧ o.Executes
    · rw [if_pos hok] at hcall
      refine ⟨rec.db.queue, _, queueStep_of_ok hcall, ?_⟩
      rw [if_pos (by exact hok)]
      exact ⟨rfl, rfl, _, rfl, columnInt_length _⟩
    · rw [if_neg hok] at hcall
      refine ⟨rec.db.queue, _, queueStep_of_ok hcall, ?_⟩
      rw [if_neg (by exact hok)]
      exact ⟨rfl, rfl⟩

/-- The semaphore is free, and the tables that are no queues are those of `db`. -/
structure Beside (db : Db) (rec : RecordsFile) : Prop where
  sem : rec.sem = 1
  consume : rec.db.consume = db.consume
  exception : rec.db.exception = db.exception

/-- Every run on the tables returns and is a run on the lists, and it leaves the other
tables alone. -/
theorem queue_tables_refine_lists (db : Db) (calls : List (QueueCall × SqliteOutcome))
    (hsn : ∀ c ∈ calls, c.1.NonnegSn) :
    ∃ rec results, run queueStep (.created db) calls = .ok (rec, results) ∧
      rec.db.consume = db.consume ∧ rec.db.exception = db.exception ∧
      AbstractRun ListStep db.lists calls results rec.db.lists := by
  have hstep : ∀ (s : RecordsFile) (c : QueueCall × SqliteOutcome), Beside db s →
      c.1.NonnegSn → ∃ s' result, queueStep s c = .ok (s', result) ∧ Beside db s' ∧
        ListStep s.db.lists c result s'.db.lists := by
    intro s c hinv hc
    have hs : s.sem ≠ 0 := by
      rw [hinv.sem]
      decide
    obtain ⟨queue, result, hstep, hlist⟩ := queueStep_refines hs hc
    exact ⟨_, result, hstep, ⟨hinv.sem, hinv.consume, hinv.exception⟩, hlist⟩
  have hcreated : Beside db (.created db) := ⟨rfl, rfl, rfl⟩
  obtain ⟨rec, results, hrun, hinv, habs⟩ :=
    run_simulates ListStep (fun s : RecordsFile => s.db.lists) (Beside db) (fun c => c.1.NonnegSn)
      hstep hcreated hsn
  exact ⟨rec, results, hrun, hinv.consume, hinv.exception, habs⟩

/-- An insert that fails, one that succeeds, a delete in another table and a count. -/
def fourCalls : List (QueueCall × SqliteOutcome) :=
  [(.insertData .recharge true 7 (Vector.replicate 8 0) (Vector.replicate 6 0) 2 fun _ => 5,
      ⟨.ok, .fails, none⟩),
    (.insertData .recharge true 7 (Vector.replicate 8 0) (Vector.replicate 6 0) 2 fun _ => 5,
      .good),
    (.deleteData .reconsume 7, .good), (.count .recharge true, .good)]

theorem queue_tables_refine_lists_four_calls :
    ∃ rec results, run queueStep (.created .empty) fourCalls = .ok (rec, results) ∧
      results = [(1, none), (0, none), (0, none), (0, some 1)] ∧
      rec.db.consume = Db.empty.consume ∧ rec.db.exception = Db.empty.exception ∧
      AbstractRun ListStep Db.empty.lists fourCalls results rec.db.lists := by
  have hsn : ∀ c ∈ fourCalls, c.1.NonnegSn := by
    have h7 : (0 : Int) ≤ (7 : CInt).toInt := by decide
    simp only [fourCalls, List.forall_mem_cons]
    exact ⟨h7, h7, h7, trivial, fun c hc => absurd hc List.not_mem_nil⟩
  obtain ⟨rec, results, hrun, hconsume, hexception, habs⟩ :=
    queue_tables_refine_lists .empty fourCalls hsn
  have hresults : ∃ r, run queueStep (.created .empty) fourCalls = .ok r ∧
      r.2 = [(1, none), (0, none), (0, none), (0, some 1)] :=
    exists_ok (by decide)
  obtain ⟨r, hr, hresults⟩ := hresults
  rw [hrun] at hr
  cases hr
  exact ⟨rec, results, hrun, hresults, hconsume, hexception, habs⟩

/-- Tables of which the first one has `n` rows. -/
def filledDb (n : Nat) (row : PacketRow) : Db :=
  Db.empty.withQueue .reconsume fun _ =>
    { rows := (List.range n).map fun k => (k, row)
      seq := n
      sorted := List.pairwise_map.mpr List.pairwise_lt_range
      bounded := fun r hr => by
        obtain ⟨k, hk, rfl⟩ := List.mem_map.mp hr
        exact Nat.le_of_lt (List.mem_range.mp hk) }

theorem length_filledDb (n : Nat) (row : PacketRow) :
    ((filledDb n row).lists .reconsume).length = n := by
  rw [length_lists, filledDb, Db.queue_withQueue_same, List.length_map, List.length_range]

/-- The count of 2147483648 rows is -2147483648. -/
theorem count_beyond_int :
    ∃ db : Db, (db.lists .reconsume).length = 2147483648 ∧
      ∃ n : CInt, n.toInt = -2147483648 ∧
        queueStep (.created db) (.count .reconsume true, .good) =
          .ok (.created db, (libRecOk, some n)) := by
  refine ⟨filledDb 2147483648 ⟨0, Vector.replicate 8 0, Vector.replicate 6 0, 1, some [0]⟩,
    length_filledDb _ _, sqlite3ColumnInt (2147483648 : Nat), by decide, queueStep_of_ok ?_⟩
  have hcall := @count_free (.created (filledDb 2147483648
    ⟨0, Vector.replicate 8 0, Vector.replicate 6 0, 1, some [0]⟩)) (by decide) .reconsume true .good
  rw [if_pos ⟨rfl, rfl, rfl⟩, RecordsFile.created, length_filledDb] at hcall
  exact hcall

end BackupSoftware.Records

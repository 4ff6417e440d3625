import BackupSoftware.Library.Trace
import BackupSoftware.Records.Store

/-!
# The semaphore over runs of calls

Every call takes the semaphore and prepares one statement. All its exits give both
back but one: the selects return at once on a row that claims more than 512 bytes.
-/

namespace BackupSoftware.Records

open BackupSoftware.Library BackupSoftware.Library.Trace

/-- A call on the handle, with its arguments. -/
inductive Call where
  | consumeInsertData (ptrs : Bool) (pktSn : CInt) (pid lid : Vector UInt8 8)
      (tradeRecord : Vector UInt8 90)
  | exceptionInsertData (ptrs : Bool) (sn : CInt) (pid : Vector UInt8 8)
      (tradeRecord : Vector UInt8 90)
  | insertData (t : QueueTable) (ptrs : Bool) (pktSn : CInt) (pid : Vector UInt8 8)
      (macaddr : Vector UInt8 6) (pktLen : CInt) (pktData : Nat → UInt8)
  | selectData (t : QueueTable) (ptrs : Bool) (pktSn : CInt)
  | selectAllData (t : QueueTable) (ptrs : Bool)
  | deleteData (t : QueueTable) (pktSn : CInt)
  | count (t : QueueTable) (ptrs : Bool)

/-- The return code of a call. -/
def Call.code (o : SqliteOutcome) : Call → Prog Int
  | .consumeInsertData ptrs pktSn pid lid tradeRecord =>
      libRecordsConsumeInsertData ptrs o pktSn pid lid tradeRecord
  | .exceptionInsertData ptrs sn pid tradeRecord =>
      libRecordsExceptionInsertData ptrs o sn pid tradeRecord
  | .insertData t ptrs pktSn pid macaddr pktLen pktData =>
      t.insertData ptrs o pktSn pid macaddr pktLen pktData
  | .selectData t ptrs pktSn => Prod.fst <$> t.selectData ptrs o pktSn
  | .selectAllData t ptrs => Prod.fst <$> t.selectAllData ptrs o
  | .deleteData t pktSn => t.deleteData o pktSn
  | .count t ptrs => Prod.fst <$> t.count ptrs o

/-- One call, with what SQLite does during it. -/
def callStep (rec : RecordsFile) (c : Call × SqliteOutcome) : Except Stop (RecordsFile × Int) :=
  (c.1.code c.2 rec).map Prod.swap

/-- The row a select reads, if its query is executed. -/
def Call.rowRead (db : Db) : Call → Option PacketRow
  | .selectData t true pktSn => (db.queue t).first (hasPktSn pktSn)
  | .selectAllData t true => (db.queue t).first fun _ => true
  | _ => none

/-- The call is a select that reads a row with `pkt_len` above 512. -/
def ReadsLong (rec : RecordsFile) (c : Call × SqliteOutcome) : Prop :=
  c.2.Executes ∧ ∃ row, c.1.rowRead rec.db = some row ∧ 512 < (sqlite3ColumnInt row.pktLen).toInt

/-- Every row of the queue tables has `pkt_len` at most 512. -/
def ShortRows (db : Db) : Prop :=
  ∀ t, ∀ row ∈ (db.queue t).values, (sqlite3ColumnInt row.pktLen).toInt ≤ 512

/-- The call, if it inserts into a queue table, gives a `pkt_len` of at most 512. -/
def Call.ShortInsert : Call → Prop
  | .insertData _ _ _ _ _ pktLen _ => pktLen.toInt ≤ 512
  | _ => True

theorem shortRows_withQueue {db : Db} (h : ShortRows db) {t : QueueTable}
    {f : RowTable PacketRow → RowTable PacketRow}
    (hf : ∀ row ∈ (f (db.queue t)).values, (sqlite3ColumnInt row.pktLen).toInt ≤ 512) :
    ShortRows (db.withQueue t f) := by
  intro t' row hrow
  by_cases ht : t' = t
  · subst ht
    rw [Db.queue_withQueue_same] at hrow
    exact hf row hrow
  · rw [Db.queue_withQueue_ne db ht] at hrow
    exact h t' row hrow

theorem sqlite3ColumnInt_toInt (n : CInt) : sqlite3ColumnInt n.toInt = n :=
  BitVec.ofInt_toInt

/-- Every call is of one of the three shapes: it executes a statement, selects a row or
counts. -/
theorem Call.code_cases (c : Call) (o : SqliteOutcome) :
    (∃ ptrs sql, c.code o = execStatement ptrs o sql ∧ (∀ db, c.rowRead db = none) ∧
      ∀ db, c.ShortInsert → ShortRows db → ShortRows (sql db)) ∨
    (∃ ptrs sql, c.code o = Prod.fst <$> selectPacket ptrs o sql ∧
      ∀ db, c.rowRead db = if ptrs = true then sql db else none) ∨
    (∃ ptrs sql, c.code o = Prod.fst <$> countRows ptrs o sql ∧ ∀ db, c.rowRead db = none) := by
  cases c with
  | consumeInsertData ptrs pktSn pid lid tradeRecord =>
    exact Or.inl ⟨ptrs, _, rfl, fun _ => rfl, fun _ _ h => h⟩
  | exceptionInsertData ptrs sn pid tradeRecord =>
    exact Or.inl ⟨ptrs, _, rfl, fun _ => rfl, fun _ _ h => h⟩
  | insertData t ptrs pktSn pid macaddr pktLen pktData =>
    refine Or.inl ⟨ptrs, _, by rw [Call.code, insertData_eq]; rfl, fun _ => rfl, ?_⟩
    intro db hins h
    apply shortRows_withQueue h
    intro row hrow
    rw [RowTable.values_insert] at hrow
    rcases List.mem_append.mp hrow with hrow | hrow
    · exact h t row hrow
    · rw [List.mem_singleton.mp hrow, packetRow, sqlite3ColumnInt_toInt]
      exact hins
  | deleteData t pktSn =>
    refine Or.inl ⟨true, _, by rw [Call.code, deleteData_eq]; rfl, fun _ => rfl, ?_⟩
    intro db _ h
    exact shortRows_withQueue h fun row hrow => h t row (RowTable.mem_values_delete.mp hrow).1
  | selectData t ptrs pktSn =>
    refine Or.inr (Or.inl ⟨ptrs, fun db => (db.queue t).first (hasPktSn pktSn), ?_, ?_⟩)
    · rw [Call.code, selectData_eq, selectFrom, ← comp_map]
      rfl
    · intro db
      cases ptrs <;> rfl
  | selectAllData t ptrs =>
    refine Or.inr (Or.inl ⟨ptrs, _, by rw [Call.code, selectAllData_eq]; rfl, ?_⟩)
    intro db
    cases ptrs <;> rfl
  | count t ptrs =>
    exact Or.inr (Or.inr ⟨ptrs, _, by rw [Call.code, count_eq]; rfl, fun _ => rfl⟩)

theorem callStep_of_ok {rec rec' : RecordsFile} {c : Call} {o : SqliteOutcome} {code : Int}
    (h : c.code o rec = .ok (code, rec')) : callStep rec (c, o) = .ok (rec', code) := by
  simp only [callStep, h]
  rfl

/-- A call that can take the semaphore and reads no long row gives everything back. -/
theorem callStep_balanced {rec : RecordsFile} {c : Call × SqliteOutcome} (hs : rec.sem ≠ 0)
    (h : ¬ ReadsLong rec c) :
    (∃ code db, callStep rec c = .ok ({ rec with db := db }, code) ∧
      (c.1.ShortInsert → ShortRows rec.db → ShortRows db)) ∨
      callStep rec c = .error .undefined := by
  obtain ⟨c, o⟩ := c
  rcases c.code_cases o with ⟨ptrs, sql, hc, -, hkeep⟩ | ⟨ptrs, sql, hc, hread⟩ |
    ⟨ptrs, sql, hc, -⟩
  · obtain ⟨code, db, hok, hdb⟩ := @execStatement_balanced ptrs o sql rec hs
    refine Or.inl ⟨code, db, callStep_of_ok (by rw [hc]; exact hok), fun hins hrows => ?_⟩
    rcases hdb with rfl | rfl
    · exact hrows
    · exact hkeep _ hins hrows
  · have hshort : ptrs = true → o.Executes → ∀ row, sql rec.db = some row →
        (sqlite3ColumnInt row.pktLen).toInt ≤ 512 := by
      intro hp ho row hrow
      by_contra hlong
      exact h ⟨ho, row, by rw [hread, if_pos hp]; exact hrow, by omega⟩
    rcases selectPacket_balanced hs hshort with ⟨r, hok⟩ | herr
    · exact Or.inl ⟨r.1, rec.db, callStep_of_ok (by rw [hc]; exact map_ok hok Prod.fst),
        fun _ h => h⟩
    · refine Or.inr ?_
      simp only [callStep, hc, map_error herr Prod.fst]
      rfl
  · obtain ⟨r, hok⟩ := @countRows_balanced ptrs o sql rec hs
    exact Or.inl ⟨r.1, rec.db, callStep_of_ok (by rw [hc]; exact map_ok hok Prod.fst),
      fun _ h => h⟩

/-- A select that reads a long row keeps the semaphore and its statement. -/
theorem callStep_long {rec : RecordsFile} {c : Call × SqliteOutcome} (hs : rec.sem ≠ 0)
    (h : ReadsLong rec c) :
    callStep rec c =
      .ok ({ rec with sem := rec.sem - 1, stmts := rec.stmts + 1 }, libRecError) := by
  obtain ⟨c, o⟩ := c
  obtain ⟨ho, row, hrow, hlong⟩ := h
  rcases c.code_cases o with ⟨ptrs, sql, -, hnone, -⟩ | ⟨ptrs, sql, hc, hread⟩ |
    ⟨ptrs, sql, -, hnone⟩
  · rw [hnone] at hrow
    cases hrow
  · rw [hread] at hrow
    cases ptrs with
    | false => cases hrow
    | true =>
      apply callStep_of_ok
      rw [hc, map_ok (selectPacket_long ho hs hrow hlong) Prod.fst]
  · rw [hnone] at hrow
    cases hrow

/-- No call of the run blocks in `__sem_p`, and each that returns leaves the semaphore
at 1 and no statement unfinalized. -/
def Balanced (rec : RecordsFile) (calls : List (Call × SqliteOutcome)) : Prop :=
  Along callStep (fun s c => callStep s c ≠ .error .blocked ∧
    ∀ s' code, callStep s c = .ok (s', code) → s'.sem = 1 ∧ s'.stmts = 0) rec calls

/-- No call of the run is a select that reads a long row. -/
def NoLongRead (rec : RecordsFile) (calls : List (Call × SqliteOutcome)) : Prop :=
  Along callStep (fun s c => ¬ ReadsLong s c) rec calls

theorem noLongRead_of_balanced {db : Db} {calls : List (Call × SqliteOutcome)}
    (h : Balanced (.created db) calls) : NoLongRead (.created db) calls := by
  intro pre c post s codes hsplit hpre hlong
  by_cases hs : s.sem = 0
  · rcases List.eq_nil_or_concat pre with rfl | ⟨pre', c', rfl⟩
    · obtain ⟨rfl, -⟩ := run_nil_iff.mp hpre
      cases hs
    · rw [List.concat_eq_append] at hsplit hpre
      obtain ⟨s₁, codes₁, codes₂, hpre', hlast, -⟩ := run_append_iff.mp hpre
      obtain ⟨s₂, code, codes₃, hstep, hnil, -⟩ := run_cons_iff.mp hlast
      obtain ⟨rfl, -⟩ := run_nil_iff.mp hnil
      have hone := ((h pre' c' (c :: post) s₁ codes₁ (by rw [hsplit]; simp) hpre').2
        s₂ code hstep).1
      omega
  · have hzero := ((h pre c post s codes hsplit hpre).2 _ _ (callStep_long hs hlong)).2
    cases hzero

theorem balanced_of_noLongRead {db : Db} {calls : List (Call × SqliteOutcome)}
    (h : NoLongRead (.created db) calls) : Balanced (.created db) calls := by
  intro pre c post s codes hsplit hpre
  have hinv : s.sem = 1 ∧ s.stmts = 0 := by
    refine run_invariant_along (fun s => s.sem = 1 ∧ s.stmts = 0) (fun s c => ¬ ReadsLong s c)
      ?_ ⟨rfl, rfl⟩ hpre (along_of_append h ⟨c :: post, hsplit.symm⟩)
    intro s₁ c₁ s₂ code hinv₁ hshort hstep
    obtain ⟨hsem, hstmts⟩ := hinv₁
    rcases callStep_balanced (by omega) hshort with ⟨code', db', hok, -⟩ | herr
    · rw [hok] at hstep
      cases hstep
      exact ⟨hsem, hstmts⟩
    · rw [herr] at hstep
      cases hstep
  have hsem : s.sem ≠ 0 := by omega
  rcases callStep_balanced hsem (h pre c post s codes hsplit hpre) with ⟨code, db', hok, -⟩ | herr
  · rw [hok]
    refine ⟨by simp, ?_⟩
    intro s' code' heq
    cases heq
    exact hinv
  · rw [herr]
    exact ⟨by simp, by intro s' code' heq; cases heq⟩

/-- The semaphore is balanced over a run exactly when no select in it reads a row whose
`pkt_len` is above 512. -/
theorem semaphore_balanced_iff (db : Db) (calls : List (Call × SqliteOutcome)) :
    Balanced (.created db) calls ↔ NoLongRead (.created db) calls :=
  ⟨noLongRead_of_balanced, balanced_of_noLongRead⟩

/-- A row that a select reads is a row of one of the tables. -/
theorem Call.mem_of_rowRead {c : Call} {db : Db} {row : PacketRow}
    (h : c.rowRead db = some row) : ∃ t, row ∈ (db.queue t).values := by
  have hmem : ∀ t p, (db.queue t).first p = some row → row ∈ (db.queue t).values := by
    intro t p hfirst
    obtain ⟨n, hn, -⟩ := RowTable.first_least _ hfirst
    exact List.mem_map.mpr ⟨(n, row), hn, rfl⟩
  cases c with
  | selectData t ptrs pktSn =>
    cases ptrs with
    | false => cases h
    | true => exact ⟨t, hmem t _ h⟩
  | selectAllData t ptrs =>
    cases ptrs with
    | false => cases h
    | true => exact ⟨t, hmem t (fun _ => true) h⟩
  | _ => cases h

theorem not_readsLong_of_shortRows {rec : RecordsFile} (h : ShortRows rec.db)
    (c : Call × SqliteOutcome) : ¬ ReadsLong rec c := by
  intro hread
  obtain ⟨-, row, hrow, hlong⟩ := hread
  obtain ⟨t, hmem⟩ := Call.mem_of_rowRead hrow
  have hshort := h t row hmem
  omega

/-- On the inputs alone: over a file whose rows are all short, calls that insert no
`pkt_len` above 512 keep the semaphore balanced. -/
theorem balanced_of_shortInserts {db : Db} (hdb : ShortRows db)
    {calls : List (Call × SqliteOutcome)} (hins : ∀ c ∈ calls, c.1.ShortInsert) :
    Balanced (.created db) calls := by
  apply balanced_of_noLongRead
  intro pre c post s codes hsplit hpre
  have hinv : s.sem = 1 ∧ ShortRows s.db := by
    refine run_invariant_along (fun s => s.sem = 1 ∧ ShortRows s.db)
      (fun _ c => c.1.ShortInsert) ?_ ⟨rfl, hdb⟩ hpre ?_
    · intro s₁ c₁ s₂ code hinv₁ hshort hstep
      obtain ⟨hsem, hrows⟩ := hinv₁
      rcases callStep_balanced (by omega) (not_readsLong_of_shortRows hrows c₁) with
        ⟨code', db', hok, hkeep⟩ | herr
      · rw [hok] at hstep
        cases hstep
        exact ⟨hsem, hkeep hshort hrows⟩
      · rw [herr] at hstep
        cases hstep
    · intro pre' c' post' u codes' hsplit' _
      exact hins c' (by rw [hsplit, hsplit']; simp)
  exact not_readsLong_of_shortRows hinv.2 c

/-- A packet of 513 bytes is stored, read, and the next call blocks. -/
theorem long_packet_blocks :
    ¬ Balanced (.created .empty)
      [(.insertData .reconsume true 1 (Vector.replicate 8 0) (Vector.replicate 6 0) 513
          fun _ => 7, .good),
        (.selectAllData .reconsume true, .good), (.count .reconsume true, .good)] := by
  intro h
  have hfirst : ∃ r, run callStep (.created .empty)
      [(.insertData .reconsume true 1 (Vector.replicate 8 0) (Vector.replicate 6 0) 513
          fun _ => 7, .good), (.selectAllData .reconsume true, .good)] = .ok r ∧ r.1.sem = 0 :=
    exists_ok (by decide)
  obtain ⟨⟨s, codes⟩, hrun, hsem⟩ := hfirst
  refine (h _ _ [] s codes rfl hrun).1 ?_
  have hblock : (countRows true .good fun db => (db.queue .reconsume).rows.length) s =
      .error .blocked := by
    rw [countRows_eq, if_neg (by decide), if_pos hsem]
  simp only [callStep, Call.code, count_eq, countIn, map_error hblock]
  rfl

end BackupSoftware.Records

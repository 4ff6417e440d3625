import BackupSoftware.Library.Trace
import BackupSoftware.Records.QueueLaws

/-!
# Draining a queue table

A round takes the first row by `select_all_data` and deletes by its number. The
delete works by key and not by row, so whether a round removes just the record it
returned depends on the keys in the table.
-/

namespace BackupSoftware.Records

open BackupSoftware.Library BackupSoftware.Library.Trace

/-- What happens to the table: an insert, or one drain round. -/
inductive DrainEvent where
  | insert (pktSn : CInt) (pid : Vector UInt8 8) (macaddr : Vector UInt8 6) (pktLen : CInt)
      (pktData : Nat → UInt8)
  | round

/-- The round of the sample program. The variable for the number starts at 0. -/
def drainRound (t : QueueTable) : Prog (Option Packet) := do
  let (_, out) ← t.selectAllData true .good
  let pktSn := (out.map Packet.pktSn).getD 0
  let _ ← t.deleteData .good pktSn
  return out

/-- One event; a round gives out what its select returned. -/
def drainStep (t : QueueTable) (rec : RecordsFile) (e : DrainEvent) :
    Except Stop (RecordsFile × Option Packet) :=
  match e with
  | .insert pktSn pid macaddr pktLen pktData =>
      (t.insertData true .good pktSn pid macaddr pktLen pktData rec).map fun r => (r.2, none)
  | .round => (drainRound t rec).map Prod.swap

/-! A record is seen as its number and its bytes: as inserted, stored and returned. -/

def DrainEvent.record : DrainEvent → Option (Int × List UInt8)
  | .insert pktSn _ _ pktLen pktData =>
      some (pktSn.toInt, (List.range pktLen.toNat).map pktData)
  | .round => none

def PacketRow.record (row : PacketRow) : Int × List UInt8 := (row.pktSn, row.pktData.getD [])

def Packet.record (p : Packet) : Int × List UInt8 := (p.pktSn.toInt, p.pktData)

/-- The records of a table, in the order of their rows. -/
def records (t : QueueTable) (rec : RecordsFile) : List (Int × List UInt8) :=
  (rec.db.queue t).values.map PacketRow.record

/-- An insert has a number that is not negative and 1 to 512 bytes; a round finds the
table not empty. -/
def EventFits (t : QueueTable) (rec : RecordsFile) : DrainEvent → Prop
  | .insert pktSn _ _ pktLen _ => 0 ≤ pktSn.toInt ∧ 1 ≤ pktLen.toInt ∧ pktLen.toInt ≤ 512
  | .round => records t rec ≠ []

/-- An insert uses a number that no record in the table has. -/
def FreshKey (t : QueueTable) (rec : RecordsFile) : DrainEvent → Prop
  | .insert pktSn _ _ _ _ => pktSn.toInt ∉ (records t rec).map Prod.fst
  | .round => True

/-- A table that such inserts can have left: each row holds 1 to 512 bytes under a
number that is not negative, and no two rows have the same number. -/
structure Drainable (t : QueueTable) (rec : RecordsFile) : Prop where
  sem : rec.sem ≠ 0
  rows : ∀ row ∈ (rec.db.queue t).values,
    (∃ bytes, row.Holds bytes) ∧ ∃ pktSn : CInt, 0 ≤ pktSn.toInt ∧ row.pktSn = pktSn.toInt
  keys : ((records t rec).map Prod.fst).Nodup

theorem drainStep_insert {t : QueueTable} {rec : RecordsFile} (h : Drainable t rec)
    {pktSn : CInt} {pid : Vector UInt8 8} {macaddr : Vector UInt8 6} {pktLen : CInt}
    {pktData : Nat → UInt8} (hfits : EventFits t rec (.insert pktSn pid macaddr pktLen pktData))
    (hfresh : FreshKey t rec (.insert pktSn pid macaddr pktLen pktData)) :
    ∃ rec', drainStep t rec (.insert pktSn pid macaddr pktLen pktData) = .ok (rec', none) ∧
      Drainable t rec' ∧
      records t rec' = records t rec ++ [(pktSn.toInt, (List.range pktLen.toNat).map pktData)] := by
  obtain ⟨hsn, h1, h512⟩ := hfits
  have hholds := packetRow_holds h1 h512 .good pktSn pid macaddr pktData
  have hins := insertData_executes t (o := .good) ⟨rfl, rfl⟩ h.sem pktSn pid macaddr pktLen pktData
  obtain ⟨rec', hrec'⟩ : ∃ rec' : RecordsFile, rec' = { rec with
      db := rec.db.withQueue t (·.insert (packetRow .good pktSn pid macaddr pktLen pktData)) } :=
    ⟨_, rfl⟩
  have hvalues : (rec'.db.queue t).values =
      (rec.db.queue t).values ++ [packetRow .good pktSn pid macaddr pktLen pktData] := by
    rw [hrec', Db.queue_withQueue_same, RowTable.values_insert]
  have hrecords : records t rec' =
      records t rec ++ [(pktSn.toInt, (List.range pktLen.toNat).map pktData)] := by
    rw [records, hvalues, List.map_append, List.map_singleton, PacketRow.record, hholds.data]
    rfl
  refine ⟨rec', ?_, ⟨?_, ?_, ?_⟩, hrecords⟩
  · rw [drainStep, hins, hrec']
    rfl
  · rw [hrec']
    exact h.sem
  · intro row hrow
    rw [hvalues] at hrow
    rcases List.mem_append.mp hrow with hrow | hrow
    · exact h.rows row hrow
    · rw [List.mem_singleton.mp hrow]
      exact ⟨⟨_, hholds⟩, pktSn, hsn, rfl⟩
  · rw [hrecords, List.map_append, List.map_singleton, List.nodup_append]
    refine ⟨h.keys, List.pairwise_singleton _ _, ?_⟩
    intro k hk k' hk' heq
    rw [heq, List.mem_singleton.mp hk'] at hk
    exact hfresh hk

/-- A delete by the number of the first row keeps the rows with other numbers. -/
theorem values_delete_first {q : RowTable PacketRow} {row : PacketRow} {rest : List PacketRow}
    (hvalues : q.values = row :: rest) {pktSn : CInt} (hsn : 0 ≤ pktSn.toInt)
    (hkey : row.pktSn = pktSn.toInt) (hother : ∀ r ∈ rest, r.pktSn ≠ row.pktSn) :
    (q.delete (hasPktSn pktSn)).values = rest := by
  rw [RowTable.values_delete, hvalues, List.filter_cons_of_neg, List.filter_eq_self]
  · intro r hr
    rw [Bool.not_eq_true', ← Bool.not_eq_true, hasPktSn_iff hsn, ← hkey]
    exact hother r hr
  · rw [(hasPktSn_iff hsn row).mpr hkey]
    decide

/-- A round on the first row of a drainable table removes that row and no other. -/
theorem drainStep_round {t : QueueTable} {rec : RecordsFile} (h : Drainable t rec)
    (hfits : EventFits t rec .round) :
    ∃ rec' p, drainStep t rec .round = .ok (rec', some p) ∧ Drainable t rec' ∧
      records t rec = p.record :: records t rec' := by
  cases hvalues : (rec.db.queue t).values with
  | nil =>
    refine absurd ?_ hfits
    rw [records, hvalues]
    rfl
  | cons row rest =>
    obtain ⟨⟨bytes, hholds⟩, pktSn, hsn, hkey⟩ := h.rows row (by rw [hvalues]; simp)
    have hfirst : (rec.db.queue t).first (fun _ => true) = some row := by
      rw [RowTable.first_eq, hvalues]
      rfl
    have hcolumn : sqlite3ColumnInt row.pktSn = pktSn := by
      rw [hkey]
      exact BitVec.ofInt_toInt
    have hselect : t.selectAllData true .good rec =
        .ok ((libRecOk, some ⟨pktSn, sqlite3ColumnInt row.pktLen, bytes⟩), rec) := by
      rw [selectAllData_eq, ← hcolumn]
      exact selectPacket_holds ⟨rfl, rfl⟩ h.sem hfirst hholds
    have hdelete := deleteData_executes t (o := .good) ⟨rfl, rfl⟩ h.sem pktSn
    obtain ⟨rec', hrec'⟩ : ∃ rec' : RecordsFile,
        rec' = { rec with db := rec.db.withQueue t (·.delete (hasPktSn pktSn)) } := ⟨_, rfl⟩
    have hkeys := h.keys
    simp only [records, hvalues, List.map_cons, List.nodup_cons] at hkeys
    have hrest : (rec'.db.queue t).values = rest := by
      rw [hrec', Db.queue_withQueue_same]
      apply values_delete_first hvalues hsn hkey
      intro r hr heq
      exact hkeys.1 (List.mem_map.mpr ⟨r.record, List.mem_map_of_mem hr, heq⟩)
    have hrecords : records t rec' = rest.map PacketRow.record := by rw [records, hrest]
    refine ⟨rec', ⟨pktSn, sqlite3ColumnInt row.pktLen, bytes⟩, ?_, ⟨?_, ?_, ?_⟩, ?_⟩
    · simp only [drainStep, drainRound, bind_run, hselect, Option.map_some, Option.getD_some,
        hdelete, pure_run, hrec']
      rfl
    · rw [hrec']
      exact h.sem
    · intro r hr
      rw [hrest] at hr
      exact h.rows r (by rw [hvalues]; exact List.mem_cons_of_mem _ hr)
    · rw [hrecords]
      exact hkeys.2
    · rw [hrecords, records, hvalues, List.map_cons, PacketRow.record, Packet.record, hholds.data,
        hkey]
      rfl

/-- A run of inserts under fresh numbers and of rounds on a table that is not empty:
the records that were there or came in are, in order, those returned and those left. -/
theorem drain_conserves {t : QueueTable} {rec : RecordsFile} (h : Drainable t rec)
    {events : List DrainEvent}
    (hfits : Along (drainStep t) (fun s e => EventFits t s e ∧ FreshKey t s e) rec events) :
    ∃ rec' outs, run (drainStep t) rec events = .ok (rec', outs) ∧
      records t rec ++ events.filterMap DrainEvent.record =
        (outs.filterMap id).map Packet.record ++ records t rec' := by
  induction events generalizing rec with
  | nil => exact ⟨rec, [], rfl, by simp⟩
  | cons e events ih =>
    obtain ⟨⟨hfit, hfresh⟩, hrest⟩ := along_cons_iff.mp hfits
    cases e with
    | insert pktSn pid macaddr pktLen pktData =>
      obtain ⟨rec₁, hstep, hdrain, hrecords⟩ := drainStep_insert h hfit hfresh
      obtain ⟨rec', outs, hrun, hall⟩ := ih hdrain (hrest rec₁ none hstep)
      refine ⟨rec', none :: outs, run_cons_ok hstep hrun, ?_⟩
      rw [hrecords, List.append_assoc] at hall
      exact hall
    | round =>
      obtain ⟨rec₁, p, hstep, hdrain, hrecords⟩ := drainStep_round h hfit
      obtain ⟨rec', outs, hrun, hall⟩ := ih hdrain (hrest rec₁ (some p) hstep)
      refine ⟨rec', some p :: outs, run_cons_ok hstep hrun, ?_⟩
      rw [hrecords]
      exact congrArg (p.record :: ·) hall

/-- As long as every insert uses a number that no record in the table has, no record is
lost: at every moment of the run the records that were there at the start or have been
inserted are, in order, those that rounds have returned and those in the table. -/
theorem no_record_lost (t : QueueTable) (rec : RecordsFile) (hrec : Drainable t rec)
    (events : List DrainEvent)
    (hfits : Along (drainStep t) (fun s e => EventFits t s e ∧ FreshKey t s e) rec events) :
    ∀ pre, pre <+: events → ∃ rec' outs, run (drainStep t) rec pre = .ok (rec', outs) ∧
      records t rec ++ pre.filterMap DrainEvent.record =
        (outs.filterMap id).map Packet.record ++ records t rec' :=
  fun _ hpre => drain_conserves hrec (along_of_append hfits hpre)

theorem drainable_empty (t : QueueTable) : Drainable t (.created .empty) where
  sem := by decide
  rows := by intro row hrow; cases hrow
  keys := List.nodup_nil

/-- An insert of some bytes under the given number. -/
def insertBytes (pktSn : CInt) (byte : UInt8) : DrainEvent :=
  .insert pktSn (Vector.replicate 8 0) (Vector.replicate 6 0) 3 fun _ => byte

theorem no_record_lost_one_round :
    ∃ rec' outs, run (drainStep .recharge) (.created .empty) [insertBytes 5 7, .round] =
      .ok (rec', outs) ∧
      [((5 : Int), List.replicate 3 (7 : UInt8))] =
        (outs.filterMap id).map Packet.record ++ records .recharge rec' := by
  have hfirst : EventFits .recharge (.created .empty) (insertBytes 5 7) ∧
      FreshKey .recharge (.created .empty) (insertBytes 5 7) :=
    ⟨⟨by decide, by decide, by decide⟩, by simp [FreshKey, insertBytes, records]; decide⟩
  refine no_record_lost .recharge (.created .empty) (drainable_empty .recharge)
    [insertBytes 5 7, .round] (along_cons_iff.mpr ⟨hfirst, ?_⟩) _ (List.prefix_refl _)
  intro rec₁ out hstep
  obtain ⟨rec₂, hins, -, hrecords⟩ := drainStep_insert (drainable_empty .recharge) hfirst.1 hfirst.2
  rw [insertBytes, hins] at hstep
  cases hstep
  refine along_cons_iff.mpr ⟨⟨?_, trivial⟩, ?_⟩
  · rw [EventFits, hrecords]
    exact List.append_ne_nil_of_right_ne_nil _ (List.cons_ne_nil _ _)
  · intro s' b _ pre a post u bs hnil
    exact absurd hnil (by simp)

/-- Two records under one number: the round that returns the first removes both. -/
theorem record_lost_same_key :
    ¬ ∀ (t : QueueTable) (rec : RecordsFile) (events : List DrainEvent), Drainable t rec →
      Along (drainStep t) (EventFits t) rec events →
      ∀ pre, pre <+: events → ∃ rec' outs, run (drainStep t) rec pre = .ok (rec', outs) ∧
        (records t rec ++ pre.filterMap DrainEvent.record).Perm
          ((outs.filterMap id).map Packet.record ++ records t rec') := by
  intro h
  have htwo : ∃ r, run (drainStep .recharge) (.created .empty) [insertBytes 5 1, insertBytes 5 2] =
      .ok r ∧ records .recharge r.1 ≠ [] := exists_ok (by decide)
  have hround : ∃ r, run (drainStep .recharge) (.created .empty)
      [insertBytes 5 1, insertBytes 5 2, .round] = .ok r ∧
        ((r.2.filterMap id).map Packet.record ++ records .recharge r.1).length = 1 :=
    exists_ok (by decide)
  have hfits : Along (drainStep .recharge) (EventFits .recharge) (.created .empty)
      [insertBytes 5 1, insertBytes 5 2, .round] := by
    refine along_cons_iff.mpr ⟨⟨by decide, by decide, by decide⟩, fun rec₁ out₁ hstep₁ => ?_⟩
    refine along_cons_iff.mpr ⟨⟨by decide, by decide, by decide⟩, fun rec₂ out₂ hstep₂ => ?_⟩
    refine along_cons_iff.mpr ⟨?_, fun rec₃ out₃ _ pre a post u bs hnil => absurd hnil (by simp)⟩
    obtain ⟨r, hrun, hne⟩ := htwo
    rw [run_cons_ok hstep₁ (run_cons_ok hstep₂ rfl)] at hrun
    cases hrun
    exact hne
  obtain ⟨rec', outs, hrun, hperm⟩ := h .recharge (.created .empty) _ (drainable_empty .recharge)
    hfits _ (List.prefix_refl _)
  obtain ⟨r, hrun', hone⟩ := hround
  rw [hrun] at hrun'
  cases hrun'
  have hlen := hperm.length_eq
  rw [hone] at hlen
  exact absurd hlen (by decide)

end BackupSoftware.Records

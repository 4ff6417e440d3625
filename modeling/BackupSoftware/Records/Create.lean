import BackupSoftware.Records.Handles
import BackupSoftware.Records.Sqlite

/-!
# `lib_records_create` and the semaphore sets it removes

Both functions that create a handle have an error path, and both remove the set that
`sem_id` names unless it is -1. The field is 0 after `memset`, -1 just before `semget`, then
what `semget` returned, and -1 again once the set is removed. If `sqlite3_open` fails it is
still 0, and the set with the identifier 0 belongs to somebody else.
-/

namespace BackupSoftware.Records

open BackupSoftware.Library.SemaphoreSets BackupSoftware.Library.Trace

/-- The statements of `__sqlite3_create`: three PRAGMAs and six CREATE TABLEs. -/
inductive CreateStatement where
  | journalMode
  | synchronous
  | caseSensitiveLike
  | consume
  | exception
  | reconsume
  | oncardAck
  | offcardAck
  | recharge
  deriving DecidableEq, Repr

def createStatements : List CreateStatement :=
  [.journalMode, .synchronous, .caseSensitiveLike, .consume, .exception, .reconsume, .oncardAck,
    .offcardAck, .recharge]

/-- What the calls of one `lib_records_create` return. `permitted` tells which sets the
process may remove. -/
structure CreateOutcome where
  malloc : Bool
  sqlite3Open : Bool
  time : Nat
  semget : Bool
  sqlite3Exec : CreateStatement → Bool
  permitted : Nat → Bool

/-- The field `sem_id` of the new handle, `none` for -1, and the sets of the system; and what
happened to them: the identifier that `semget` returned and the sets removed. -/
structure CreateState (κ : Type) where
  semId : Option Nat
  sets : Sets κ
  obtained : Option Nat
  removed : List Nat

variable {κ : Type}

/-- The semaphore part of both error paths: `semctl(.., IPC_RMID, ..)` unless `sem_id` is -1. -/
def CreateState.rmid (o : CreateOutcome) (s : CreateState κ) : CreateState κ :=
  match s.semId with
  | none => s
  | some i =>
      if (s.sets.set i).isSome ∧ o.permitted i then
        { s with semId := none, sets := s.sets.remove i, removed := s.removed ++ [i] }
      else { s with semId := none }

/-- `semget` and `SETVAL`; on -1 the latter does nothing. -/
def CreateState.semget [DecidableEq κ] (o : CreateOutcome) (key : κ) (s : CreateState κ) :
    CreateState κ :=
  if o.semget then
    let r := s.sets.get key
    { s with semId := some r.1, sets := r.2.change r.1 fun _ => 1, obtained := some r.1 }
  else { s with semId := none }

/-- A database that cannot be opened leaves `sem_id` as it was; the first statement that fails
leads to the removal of the set. That the first error path closes the handle and then calls
`sqlite3_errmsg` on it is left out: the text is only printed. -/
def sqlite3Create [DecidableEq κ] (ftok : List UInt8 → Nat → κ) (o : CreateOutcome) (pathname : List UInt8)
    (s : CreateState κ) : Int × CreateState κ :=
  if o.sqlite3Open = false then (libRecError, s)
  else
    let s := s.semget o (ftok pathname (o.time % 100))
    if createStatements.all o.sqlite3Exec then (libRecOk, s) else (libRecError, s.rmid o)

/-- Whether a handle is returned. `pathname` is `none` for NULL; the field has 64 bytes. The error
path reads `rec->sem_id` also if `malloc` has returned NULL. -/
def libRecordsCreate [DecidableEq κ] (ftok : List UInt8 → Nat → κ) (o : CreateOutcome)
    (pathname : Option (List UInt8)) (sets : Sets κ) : Except Stop (Bool × CreateState κ) :=
  match pathname with
  | none => .ok (false, ⟨none, sets, none, []⟩)
  | some pathname =>
      if o.malloc = false then .error .undefined
      else if 64 ≤ pathname.length then .error .undefined
      else
        let (err, s) := sqlite3Create ftok o pathname ⟨some 0, sets, none, []⟩
        if err ≠ libRecOk then .ok (false, s.rmid o) else .ok (true, s)

/-- The call removes no set but the one it got from `semget`, and that at most once. -/
def RemovesOwnOnly (r : Except Stop (Bool × CreateState κ)) : Prop :=
  ∃ ok s, r = .ok (ok, s) ∧ (∀ i ∈ s.removed, s.obtained = some i) ∧ s.removed.length ≤ 1

theorem rmid_none (o : CreateOutcome) {s : CreateState κ} (h : s.semId = none) : s.rmid o = s := by
  unfold CreateState.rmid
  rw [h]

/-- One error path removes at most one set, the one that `sem_id` names. -/
theorem rmid_removed (o : CreateOutcome) (s : CreateState κ) :
    (s.rmid o).semId = none ∧ (s.rmid o).obtained = s.obtained ∧
      ((s.rmid o).removed = s.removed ∨
        ∃ i, s.semId = some i ∧ (s.rmid o).removed = s.removed ++ [i]) := by
  unfold CreateState.rmid
  split
  · exact ⟨‹_›, rfl, Or.inl rfl⟩
  · split
    · exact ⟨rfl, rfl, Or.inr ⟨_, ‹_›, rfl⟩⟩
    · exact ⟨rfl, rfl, Or.inl rfl⟩

variable [DecidableEq κ] {ftok : List UInt8 → Nat → κ} {o : CreateOutcome}

theorem semget_semId (key : κ) {s : CreateState κ} (h : s.obtained = none) :
    (s.semget o key).semId = (s.semget o key).obtained ∧ (s.semget o key).removed = s.removed := by
  unfold CreateState.semget
  split
  · exact ⟨rfl, rfl⟩
  · exact ⟨h.symm, rfl⟩

/-- The handle after `memset`. -/
def zeroed (sets : Sets κ) : CreateState κ := ⟨some 0, sets, none, []⟩

/-- Everything a call can do. The second error path finds -1 where the first one ran. -/
theorem libRecordsCreate_eq (pathname : List UInt8) (sets : Sets κ) :
    libRecordsCreate ftok o (some pathname) sets =
      if o.malloc = false ∨ 64 ≤ pathname.length then .error .undefined
      else if o.sqlite3Open = false then .ok (false, (zeroed sets).rmid o)
      else if createStatements.all o.sqlite3Exec then
        .ok (true, (zeroed sets).semget o (ftok pathname (o.time % 100)))
      else .ok (false, ((zeroed sets).semget o (ftok pathname (o.time % 100))).rmid o) := by
  have htwice (s : CreateState κ) : (s.rmid o).rmid o = s.rmid o :=
    rmid_none o (rmid_removed o s).1
  unfold libRecordsCreate
  by_cases hmalloc : o.malloc = false
  · rw [if_pos (Or.inl hmalloc)]
    exact if_pos hmalloc
  by_cases hlen : 64 ≤ pathname.length
  · rw [if_pos (Or.inr hlen)]
    exact (if_neg hmalloc).trans (if_pos hlen)
  rw [if_neg (not_or.mpr ⟨hmalloc, hlen⟩)]
  refine ((if_neg hmalloc).trans (if_neg hlen)).trans ?_
  by_cases hopen : o.sqlite3Open = false
  · have hcreate : sqlite3Create ftok o pathname (zeroed sets) = (libRecError, zeroed sets) :=
      if_pos hopen
    rw [if_pos hopen, ← zeroed, hcreate]
    rfl
  · have hcreate : sqlite3Create ftok o pathname (zeroed sets) =
        if createStatements.all o.sqlite3Exec then
          (libRecOk, (zeroed sets).semget o (ftok pathname (o.time % 100)))
        else (libRecError, ((zeroed sets).semget o (ftok pathname (o.time % 100))).rmid o) :=
      if_neg hopen
    rw [if_neg hopen, ← zeroed, hcreate]
    by_cases hexec : createStatements.all o.sqlite3Exec = true
    · rw [if_pos hexec, if_pos hexec]
      rfl
    · rw [if_neg hexec, if_neg hexec]
      exact (if_pos (by decide)).trans (by rw [htwice])

/-- What `semget` has returned is in `sem_id`, and only that is removed. -/
theorem semget_rmid_removed (key : κ) (sets : Sets κ) :
    let s := ((zeroed sets).semget o key).rmid o
    (∀ i ∈ s.removed, s.obtained = some i) ∧ s.removed.length ≤ 1 := by
  obtain ⟨hsem, hnone⟩ := semget_semId (o := o) key (s := zeroed sets) rfl
  have hempty : ((zeroed sets).semget o key).removed = [] := hnone
  obtain ⟨-, hobtained, hremoved⟩ := rmid_removed o ((zeroed sets).semget o key)
  simp only [hobtained]
  rcases hremoved with h | ⟨i, hi, h⟩
  · rw [h, hempty]
    exact ⟨fun i hi => absurd hi List.not_mem_nil, Nat.zero_le 1⟩
  · rw [h, hempty]
    refine ⟨?_, Nat.le_refl 1⟩
    intro j hj
    rw [List.mem_singleton.mp hj, ← hsem, hi]

omit [DecidableEq κ] in
/-- On the error path of a database that cannot be opened the set 0 is removed, if it exists
and the process may do so. -/
theorem zeroed_rmid_removed (sets : Sets κ) :
    ((zeroed sets).rmid o).obtained = none ∧
      ((zeroed sets).rmid o).removed =
        if (sets.set 0).isSome ∧ o.permitted 0 then [0] else [] := by
  refine ⟨(rmid_removed o (zeroed sets)).2.1, ?_⟩
  by_cases h : (sets.set 0).isSome ∧ o.permitted 0
  · have hrmid : (zeroed sets).rmid o = ⟨none, sets.remove 0, none, [0]⟩ := if_pos h
    rw [hrmid, if_pos h]
  · have hrmid : (zeroed sets).rmid o = ⟨none, sets, none, []⟩ := if_neg h
    rw [hrmid, if_neg h]

omit [DecidableEq κ] in
theorem removesOwnOnly_of_none {ok : Bool} {s : CreateState κ} (h : s.removed = []) :
    RemovesOwnOnly (.ok (ok, s)) := by
  refine ⟨ok, s, rfl, ?_, by rw [h]; exact Nat.zero_le 1⟩
  intro i hi
  rw [h] at hi
  cases hi

omit [DecidableEq κ] in
/-- Nothing was obtained where the database cannot be opened, so nothing may be removed. -/
theorem openFails_removesOwnOnly_iff (sets : Sets κ) :
    RemovesOwnOnly (.ok (false, (zeroed sets).rmid o)) ↔
      ¬ ((sets.set 0).isSome ∧ o.permitted 0) := by
  obtain ⟨hobtained, hremoved⟩ := zeroed_rmid_removed (o := o) sets
  constructor
  · intro h hzero
    obtain ⟨ok, s, h, hown, -⟩ := h
    cases h
    rw [if_pos hzero] at hremoved
    have hfirst := hown 0 (by rw [hremoved]; exact List.mem_singleton_self 0)
    rw [hobtained] at hfirst
    cases hfirst
  · intro hzero
    rw [if_neg hzero] at hremoved
    exact removesOwnOnly_of_none hremoved

/-- A call of `lib_records_create` leaves the sets of others alone exactly if the path is
NULL, or there is memory for the handle, room for the path, and the database can be opened or
there is no set 0 that the process may remove. -/
theorem create_removes_own_only_iff (ftok : List UInt8 → Nat → κ) (o : CreateOutcome)
    (pathname : Option (List UInt8)) (sets : Sets κ) :
    RemovesOwnOnly (libRecordsCreate ftok o pathname sets) ↔
      ∀ path ∈ pathname, o.malloc = true ∧ path.length < 64 ∧
        (o.sqlite3Open = true ∨ ¬ ((sets.set 0).isSome ∧ o.permitted 0)) := by
  cases pathname with
  | none =>
    exact iff_of_true (removesOwnOnly_of_none rfl) (fun path hp => by cases hp)
  | some path =>
    simp only [Option.mem_def, Option.some.injEq, forall_eq']
    rw [libRecordsCreate_eq]
    by_cases hstart : o.malloc = false ∨ 64 ≤ path.length
    · rw [if_pos hstart]
      refine iff_of_false ?_ ?_
      · intro h
        obtain ⟨ok, s, h, -⟩ := h
        cases h
      · intro h'
        obtain ⟨hmalloc, hlen, -⟩ := h'
        rcases hstart with h | h
        · rw [hmalloc] at h
          cases h
        · omega
    rw [if_neg hstart]
    rw [not_or, Bool.not_eq_false, Nat.not_le] at hstart
    rw [and_iff_right hstart.1, and_iff_right hstart.2]
    by_cases hopen : o.sqlite3Open = false
    · rw [if_pos hopen, or_iff_right (by simp [hopen])]
      exact openFails_removesOwnOnly_iff sets
    · rw [if_neg hopen]
      refine iff_of_true ?_ (Or.inl (by simpa using hopen))
      split
      · exact removesOwnOnly_of_none (semget_semId _ rfl).2
      · exact ⟨false, _, rfl, semget_rmid_removed _ sets⟩

/-- One set in the system, with the identifier 0. -/
def oneSet : Sets Nat := ((.empty : Sets Nat).get 7).2

/-- Everything succeeds but `sqlite3_open`. -/
def openFailing : CreateOutcome := ⟨true, false, 0, true, fun _ => true, fun _ => true⟩

/-- The path `db` cannot be opened: the set 0, which the call never asked for, is gone. -/
theorem create_removes_foreign_set :
    (oneSet.set 0).isSome ∧
    (∃ s, libRecordsCreate (fun _ id => id) openFailing (some [100, 98]) oneSet = .ok (false, s) ∧
      s.obtained = none ∧ s.sets.set 0 = none) ∧
    ¬ RemovesOwnOnly (libRecordsCreate (fun _ id => id) openFailing (some [100, 98]) oneSet) := by
  refine ⟨rfl, ⟨_, rfl, rfl, rfl⟩, ?_⟩
  intro h
  obtain ⟨ok, s, h, hown, -⟩ := h
  cases h
  have hzero := hown 0 List.mem_cons_self
  cases hzero

/-- Only the sets that are recorded as removed, and the one the call asked for, can have
changed. -/
def Accounted (sets : Sets κ) (s : CreateState κ) : Prop :=
  ∀ i, i ∉ s.removed → s.obtained ≠ some i → s.sets.set i = sets.set i

omit [DecidableEq κ] in
theorem accounted_rmid {sets : Sets κ} {s : CreateState κ} (h : Accounted sets s) :
    Accounted sets (s.rmid o) := by
  unfold CreateState.rmid
  split
  · exact h
  · split
    · intro i hi hobtained
      rw [List.mem_append, List.mem_singleton, not_or] at hi
      rw [Sets.set_remove_ne _ hi.2]
      exact h i hi.1 hobtained
    · exact h

theorem accounted_semget (key : κ) {sets : Sets κ} {s : CreateState κ} (hs : s.sets = sets) :
    Accounted sets (s.semget o key) := by
  intro i _ hobtained
  unfold CreateState.semget at hobtained ⊢
  split
  · rename_i hok
    rw [if_pos hok] at hobtained
    have hne : i ≠ (s.sets.get key).1 := fun h => hobtained (by rw [h])
    simp only
    rw [Sets.set_change_ne _ hne]
    rcases s.sets.get_cases key with ⟨j, a, hget, -, -⟩ | ⟨hnew, hget⟩
    · rw [hget, hs]
    · rw [hget] at hne ⊢
      rw [Sets.set_add_ne _ _ hne, hs]
  · rw [hs]

/-- A call leaves every set as it was that it neither got nor is recorded to have removed. -/
theorem create_accounted {pathname : Option (List UInt8)} {sets : Sets κ} {ok : Bool}
    {s : CreateState κ} (h : libRecordsCreate ftok o pathname sets = .ok (ok, s)) :
    Accounted sets s := by
  cases pathname with
  | none =>
    cases h
    exact fun i _ _ => rfl
  | some path =>
    have hzeroed : Accounted sets (zeroed sets) := fun i _ _ => rfl
    rw [libRecordsCreate_eq] at h
    split at h
    · cases h
    · split at h
      · cases h
        exact accounted_rmid hzeroed
      · split at h
        · cases h
          exact accounted_semget _ rfl
        · cases h
          exact accounted_rmid (accounted_semget _ rfl)

omit [DecidableEq κ] in
/-- Where the process may remove every set, an error path does to the sets what the steps of
a handle do. -/
theorem sets_rmid (hperm : ∀ i, o.permitted i = true) (s : CreateState κ) (S : System κ)
    (hS : S.sets = s.sets) : (S.rmid s.semId).sets = (s.rmid o).sets := by
  unfold System.rmid CreateState.rmid
  cases s.semId with
  | none => exact hS
  | some i =>
    simp only [hperm, and_true]
    split
    · rw [hS]
    · rename_i hnone
      rw [hS]
      exact Sets.remove_of_none (by simpa using hnone)

/-- `semget` and `SETVAL` as steps of a handle. -/
theorem run_semget (ftok : List UInt8 → Nat → κ) (o : CreateOutcome) (pathname : List UInt8)
    {S : System κ} {h : Nat} (habsent : (S.handle h).phase = .absent) (s : CreateState κ)
    (hS : S.sets = s.sets) :
    ∃ S' us, run (handleStep (ftok pathname)) S [.semget h o.time o.semget, .setval h] =
        .ok (S', us) ∧
      S'.sets = (s.semget o (ftok pathname (o.time % 100))).sets ∧
      S'.handle h = ⟨.initialized, (s.semget o (ftok pathname (o.time % 100))).semId, 0, 0⟩ := by
  cases hok : o.semget with
  | true =>
    refine ⟨_, [(), ()], run_cons_ok (by simp only [handleStep, if_pos habsent]; rfl)
      (run_cons_ok (by simp only [handleStep, handle_withHandle_same]; rfl) rfl), ?_, ?_⟩
    · simp only [CreateState.semget, hok, if_pos, ← hS]
      rfl
    · simp only [CreateState.semget, hok, if_pos, ← hS]
      exact handle_withHandle_same ..
  | false =>
    refine ⟨_, [(), ()], run_cons_ok (by simp only [handleStep, if_pos habsent]; rfl)
      (run_cons_ok (by simp only [handleStep, handle_withHandle_same]; rfl) rfl), ?_, ?_⟩
    · simp only [CreateState.semget, hok]
      exact hS
    · simp only [CreateState.semget, hok]
      exact handle_withHandle_same ..

/-- A whole call is a run of steps of its handle, after which the handle is ready if it was
returned and gone otherwise. -/
theorem create_is_run {pathname : List UInt8} {S : System κ} {h : Nat} {ok : Bool}
    {s : CreateState κ} (hperm : ∀ i, o.permitted i = true)
    (habsent : (S.handle h).phase = .absent)
    (hcall : libRecordsCreate ftok o (some pathname) S.sets = .ok (ok, s)) :
    ∃ events S' us, run (handleStep (ftok pathname)) S events = .ok (S', us) ∧ S'.sets = s.sets ∧
      (S'.handle h).phase = if ok then .ready else .gone := by
  rw [libRecordsCreate_eq] at hcall
  split at hcall
  · cases hcall
  split at hcall
  · cases hcall
    refine ⟨[.openFails h], _, [()],
      run_cons_ok (by simp only [handleStep, if_pos habsent]; rfl) rfl, ?_, ?_⟩
    · exact sets_rmid hperm (zeroed S.sets) S rfl
    · rw [handle_withHandle_same]
      rfl
  obtain ⟨S', us, hrun, hsets, hhandle⟩ :=
    run_semget ftok o pathname habsent (zeroed S.sets) rfl
  split at hcall
  · cases hcall
    refine ⟨[.semget h o.time o.semget, .setval h] ++ [.createReturns h], _, us ++ [()],
      run_append_iff.mpr ⟨S', us, [()], hrun,
        run_cons_ok (by simp only [handleStep, hhandle]; rfl) rfl, rfl⟩, ?_, ?_⟩
    · exact hsets
    · rw [handle_withHandle_same]
      rfl
  · cases hcall
    refine ⟨[.semget h o.time o.semget, .setval h] ++ [.createFails h], _, us ++ [()],
      run_append_iff.mpr ⟨S', us, [()], hrun,
        run_cons_ok (by simp only [handleStep, hhandle]; rfl) rfl, rfl⟩, ?_, ?_⟩
    · exact sets_rmid hperm _ S' hsets
    · rw [handle_withHandle_same]
      rfl

end BackupSoftware.Records

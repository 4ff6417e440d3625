import BackupSoftware.Library.SemaphoreSets
import BackupSoftware.Library.Trace

/-!
# The handles of one database and their semaphore sets

Every handle that `lib_records_create` opens on a database gets its own idea of the
semaphore: the key of the set depends on the time, the value is set to 1 whoever is
inside, and the handle that is destroyed first removes the set. The system calls are
single steps, and the steps of all handles, in one or several processes, come in any
order. The calls around them do not read the semaphore and are no steps.
-/

namespace BackupSoftware.Records

open BackupSoftware.Library.SemaphoreSets BackupSoftware.Library.Trace

/-- How far a handle is. -/
inductive Phase where
  | absent
  /-- `semget` has returned. -/
  | got
  /-- `semctl(.., SETVAL, ..)` has returned. -/
  | initialized
  /-- `lib_records_create` has returned the handle. -/
  | ready
  /-- Destroyed, or never returned. -/
  | gone
  deriving DecidableEq, Repr

/-- A handle, `struct records_file`. `semId` is `none` for -1. Of the operations under way
on it `entered` have returned from `__sem_p` with success, and `refused` with an error that
no operation looks at. -/
structure Handle where
  phase : Phase
  semId : Option Nat
  entered : Nat
  refused : Nat
  deriving DecidableEq, Repr

structure System (κ : Type) where
  sets : Sets κ
  handle : Nat → Handle

/-- No handle yet, and whatever semaphore sets other programs have left. -/
def System.initial {κ : Type} (sets : Sets κ) : System κ := ⟨sets, fun _ => ⟨.absent, none, 0, 0⟩⟩

/-- The steps of handle `h`. -/
inductive HandleEvent where
  /-- `sqlite3_open` fails and with it `lib_records_create`. -/
  | openFails (h : Nat)
  /-- `semget` at the time `now`, with what it returns. -/
  | semget (h now : Nat) (ok : Bool)
  | setval (h : Nat)
  /-- A statement of `__sqlite3_create` fails and with it `lib_records_create`. -/
  | createFails (h : Nat)
  | createReturns (h : Nat)
  /-- `__sem_p` returns, with an error if it was interrupted. -/
  | semP (h : Nat) (interrupted : Bool)
  /-- `__sem_v` of an operation that has entered, or that was refused. -/
  | semV (h : Nat) (entered fails : Bool)
  | destroy (h : Nat)
  deriving DecidableEq, Repr

/-- Why a step cannot be taken. -/
inductive NotEnabled where
  | phase
  | blocked
  deriving DecidableEq, Repr

variable {κ : Type}

/-- The set of a handle, if it exists. -/
def System.semSet (s : System κ) (h : Nat) : Option (SemSet κ) := (s.handle h).semId.bind s.sets.set

def System.withHandle (s : System κ) (h : Nat) (x : Handle) : System κ :=
  { s with handle := Function.update s.handle h x }

@[simp] theorem handle_withHandle_same (s : System κ) (h : Nat) (x : Handle) :
    (s.withHandle h x).handle h = x := Function.update_self ..

theorem handle_withHandle_ne (s : System κ) {h h' : Nat} (hne : h' ≠ h) (x : Handle) :
    (s.withHandle h x).handle h' = s.handle h' := Function.update_of_ne hne ..

/-- `if (rec->sem_id != -1) semctl(rec->sem_id, 0, IPC_RMID, ..)`. -/
def System.rmid (s : System κ) (semId : Option Nat) : System κ :=
  match semId with
  | none => s
  | some i => { s with sets := s.sets.remove i }

/-- The value of the semaphore of a handle is changed; an error if the set does not exist. -/
def System.change (s : System κ) (semId : Option Nat) (f : Nat → Nat) : System κ :=
  match semId with
  | none => s
  | some i => { s with sets := s.sets.change i f }

/-- A handle that `lib_records_create` has not returned. -/
def goneHandle : Handle := ⟨.gone, none, 0, 0⟩

variable [DecidableEq κ]

/-- When `sqlite3_open` fails, `memset` has left 0 in `sem_id`, which is not -1. A handle that is
destroyed does no `__sem_v`: what is inside stays inside, with -1 in `sem_id`. -/
def handleStep (ftok : Nat → κ) (s : System κ) (e : HandleEvent) :
    Except NotEnabled (System κ × Unit) :=
  match e with
  | .openFails h =>
      if (s.handle h).phase = .absent then .ok ((s.rmid (some 0)).withHandle h goneHandle, ())
      else .error .phase
  | .semget h now ok =>
      if (s.handle h).phase = .absent then
        if ok then
          let r := s.sets.get (ftok (now % 100))
          .ok (({ s with sets := r.2 } : System κ).withHandle h ⟨.got, some r.1, 0, 0⟩, ())
        else .ok (s.withHandle h ⟨.got, none, 0, 0⟩, ())
      else .error .phase
  | .setval h =>
      let x := s.handle h
      if x.phase = .got then
        .ok ((s.change x.semId fun _ => 1).withHandle h { x with phase := .initialized }, ())
      else .error .phase
  | .createFails h =>
      let x := s.handle h
      if x.phase = .initialized then .ok ((s.rmid x.semId).withHandle h goneHandle, ())
      else .error .phase
  | .createReturns h =>
      let x := s.handle h
      if x.phase = .initialized then .ok (s.withHandle h { x with phase := .ready }, ())
      else .error .phase
  | .semP h interrupted =>
      let x := s.handle h
      if x.phase = .ready then
        if interrupted then .ok (s.withHandle h { x with refused := x.refused + 1 }, ())
        else
          match s.semSet h with
          | none => .ok (s.withHandle h { x with refused := x.refused + 1 }, ())
          | some a =>
              if a.val = 0 then .error .blocked
              else
                .ok ((s.change x.semId (· - 1)).withHandle h { x with entered := x.entered + 1 }, ())
      else .error .phase
  | .semV h entered fails =>
      let x := s.handle h
      let s' := if fails then s else s.change x.semId (· + 1)
      if entered then
        if x.entered = 0 then .error .phase
        else .ok (s'.withHandle h { x with entered := x.entered - 1 }, ())
      else
        if x.refused = 0 then .error .phase
        else .ok (s'.withHandle h { x with refused := x.refused - 1 }, ())
  | .destroy h =>
      let x := s.handle h
      if x.phase = .ready then
        .ok ((s.rmid x.semId).withHandle h { x with phase := .gone, semId := none }, ())
      else .error .phase

/-- Of a step that goes wrong in none of these ways: a `semget` that leaves the handles
with different sets, a `SETVAL` while a handle is inside, a `__sem_p` that fails although
the set exists, after which the operation goes on and gives back what it never took, and the
destruction of a handle that is inside. -/
def Careful (ftok : Nat → κ) (s : System κ) : HandleEvent → Prop
  | .semget _ now true => ∀ h a, s.semSet h = some a → a.key = ftok (now % 100)
  | .setval h => s.semSet h ≠ none → ∀ h', (s.handle h').entered = 0
  | .semP h true => s.semSet h = none
  | .destroy h => (s.handle h).entered = 0
  | _ => True

/-- At most one handle is between a successful return of `__sem_p` and its `__sem_v`. -/
def Exclusive (s : System κ) : Prop :=
  ∀ h h', 0 < (s.handle h).entered → 0 < (s.handle h').entered → h = h'

end BackupSoftware.Records

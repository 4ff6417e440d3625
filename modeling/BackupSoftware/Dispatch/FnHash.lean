import BackupSoftware.Library.Buckets
import BackupSoftware.Library.Strings
import BackupSoftware.Library.Trace

/-!
# The command dispatch table

A table of `nr_hash` buckets; the hash of a command is that of its two bytes. A
registration goes to the front of its bucket, and a run walks the bucket of the
looked-up key and calls every handler whose command has the same two bytes.
-/

namespace BackupSoftware.Dispatch

open BackupSoftware.Library.Buckets BackupSoftware.Library.Strings BackupSoftware.Library.Trace

/-- The `FN_HASH_*` return codes. -/
def fnHashEok : Int := 0
def fnHashError : Int := -1

abbrev Key := Vector UInt8 3

structure FnHashVal where
  key : Key
  data : Vector UInt8 64
  dSize : UInt32
  sel : UInt32
  sAddr : UInt8
  ack : UInt8
  varPtr : UInt64

/-- Accesses outside the arrays. -/
inductive Fault where
  | keyOverrun
  | noSuchBucket (hVal : Nat)
deriving DecidableEq, Repr

variable {φ : Type}

structure HashGw (φ : Type) where
  key : Key
  fn : φ

structure FnHash (φ : Type) where
  hlist : List (List (HashGw φ))
  nrHash : UInt32
  size : hlist.length = nrHash.toNat

/-- The two flags say which of the allocations succeed, of the table and of its buckets. -/
def fnHashCreate (nrHash : UInt32) (tableMalloc hlistMalloc : Bool) : Option (FnHash φ) :=
  if !tableMalloc then none
  else if !hlistMalloc then none
  else some ⟨List.replicate nrHash.toNat [], nrHash, List.length_replicate⟩

def goldenRatioPrime32 : UInt32 := 0x9e370001

def hash32 (val bits : UInt32) : UInt32 := (val * goldenRatioPrime32) >>> (32 - bits)

def libHashfnShift (nr ns : UInt64) (shift : UInt32) : UInt32 := hash32 (nr + ns).toUInt32 shift

def fnKeyVal (key : Key) : UInt16 := key[1].toUInt16 ||| (key[0].toUInt16 <<< 8)

/-- The six bits of the hash fit the `int` of the source. -/
def fnHashVal (key : Key) : Nat := (libHashfnShift (fnKeyVal key).toUInt64 5 6).toNat

def libHlistAddHead (fn : FnHash φ) (hVal : Nat) (hash : HashGw φ) : FnHash φ :=
  ⟨addHead fn.hlist hVal hash, fn.nrHash, by rw [length_addHead, fn.size]⟩

/-- `node` is what the key of the new entry holds when it is allocated, `none` if `malloc` fails. -/
def fnHashRegister (fn : FnHash φ) (key : Key) (func : φ) (node : Option Key) :
    Except Fault (FnHash φ × Int) :=
  match node with
  | none => .ok (fn, fnHashError)
  | some fresh =>
      match strcpy fresh (text key) with
      | none => .error .keyOverrun
      | some copied =>
          if fnHashVal key < fn.hlist.length then
            .ok (libHlistAddHead fn (fnHashVal key) ⟨copied, func⟩, fnHashEok)
          else .error (.noSuchBucket (fnHashVal key))

/-- The walk along a bucket. `call` is what a handler does to the value it is given; the walk reads
the key of that value again before every comparison. -/
def forEachEntry (call : φ → FnHashVal → FnHashVal) :
    List (HashGw φ) → FnHashVal → FnHashVal × List φ
  | [], val => (val, [])
  | tpos :: rest, val =>
      if strncmp tpos.key.toList val.key.toList 2 = 0 then
        let walked := forEachEntry call rest (call tpos.fn val)
        (walked.1, tpos.fn :: walked.2)
      else forEachEntry call rest val

/-- The value after the run, the return code and the handlers in the order of their calls. -/
def fnHashRun (call : φ → FnHashVal → FnHashVal) (fn : FnHash φ) (val : FnHashVal) :
    Except Fault (FnHashVal × Int × List φ) :=
  match fn.hlist[fnHashVal val.key]? with
  | none => .error (.noSuchBucket (fnHashVal val.key))
  | some bucket =>
      let walked := forEachEntry call bucket val
      .ok (walked.1, fnHashEok, walked.2)

/-- The key is a string of two bytes. -/
def IsCommand (key : Key) : Prop := key[0] ≠ 0 ∧ key[1] ≠ 0 ∧ key[2] = 0

def SameCommand (key key' : Key) : Bool := key[0] = key'[0] ∧ key[1] = key'[1]

theorem fnHashVal_lt (key : Key) : fnHashVal key < 64 := by
  simp only [fnHashVal, libHashfnShift, hash32, UInt32.toNat_shiftRight]
  have hshift : ((32 - 6 : UInt32).toNat % 32) = 26 := by decide
  rw [hshift, Nat.shiftRight_eq_div_pow]
  have hprod := UInt32.toNat_lt (((fnKeyVal key).toUInt64 + 5).toUInt32 * goldenRatioPrime32)
  omega

theorem fnHashVal_eq_of_same {key key' : Key} (h : SameCommand key key' = true) :
    fnHashVal key = fnHashVal key' := by
  simp only [SameCommand, decide_eq_true_eq] at h
  rw [fnHashVal, fnHashVal, fnKeyVal, fnKeyVal, h.1, h.2]

theorem text_of_command {key : Key} (h : IsCommand key) : text key = [key[0], key[1]] := by
  obtain ⟨h0, h1, h2⟩ := h
  have hlist : key.toList = [key[0], key[1], key[2]] := by
    apply List.ext_getElem (by simp)
    intro i hi hi'
    match i with
    | 0 | 1 | 2 => simp
  rw [text, hlist, List.takeWhile_cons_of_pos (by simpa using h0),
    List.takeWhile_cons_of_pos (by simpa using h1), List.takeWhile_cons_of_neg (by simpa using h2)]

/-- The copy of a command is the command, whatever was in the allocated node. -/
theorem strcpy_command {key : Key} (h : IsCommand key) (fresh : Key) :
    strcpy fresh (text key) = some key := by
  rw [text_of_command h]
  obtain ⟨v, hv, hcopied, hend⟩ := strcpy_eq_of_fits fresh
    (s := [key[0], key[1]]) (by simp)
  rw [hv]
  congr 1
  apply Vector.ext
  intro i hi
  match i with
  | 0 => exact hcopied 0 (by simp)
  | 1 => exact hcopied 1 (by simp)
  | 2 => exact hend.trans h.2.2.symm

theorem strncmp_command {key : Key} (h : IsCommand key) (key' : Key) :
    strncmp key.toList key'.toList 2 = 0 ↔ SameCommand key key' = true := by
  have htake : ∀ k : Key, k.toList.take 2 = [k[0], k[1]] := by
    intro k
    apply List.ext_getElem (by simp)
    intro i hi hi'
    match i with
    | 0 | 1 => simp
  rw [strncmp_eq_zero_iff (by simp) (by rw [htake]; simp [h.1, h.2.1]), htake, htake]
  simp [SameCommand]

/-- One call of `fn_hash_register`. -/
structure Registration (φ : Type) where
  key : Key
  func : φ
  node : Option Key

def Registration.step (fn : FnHash φ) (c : Registration φ) : Except Fault (FnHash φ × Int) :=
  fnHashRegister fn c.key c.func c.node

def Registration.result (c : Registration φ) : Int :=
  if c.node.isSome then fnHashEok else fnHashError

/-- The entries of the successful registrations, the newest first. -/
def registered (calls : List (Registration φ)) : List (HashGw φ) :=
  ((calls.filter fun c => c.node.isSome).map fun c => ⟨c.key, c.func⟩).reverse

/-- The buckets hold `entries`, and all of these are commands. -/
structure Holds (fn : FnHash φ) (entries : List (HashGw φ)) : Prop where
  large : 64 ≤ fn.hlist.length
  buckets : Represents (fun e => fnHashVal e.key) fn.hlist entries
  commands : ∀ e ∈ entries, IsCommand e.key

theorem holds_created {nrHash : UInt32} (h64 : 64 ≤ nrHash) {tableMalloc hlistMalloc : Bool}
    {fn : FnHash φ} (h : fnHashCreate nrHash tableMalloc hlistMalloc = some fn) : Holds fn [] := by
  unfold fnHashCreate at h
  split at h
  · cases h
  split at h
  · cases h
  · cases h
    refine ⟨?_, represents_empty _ _, by simp⟩
    rw [List.length_replicate]
    exact UInt32.le_iff_toNat_le.mp h64

/-- A registration does not fault; it adds its entry in front of all others if it succeeds and
changes nothing else. -/
theorem register_holds {fn : FnHash φ} {entries : List (HashGw φ)} (h : Holds fn entries)
    {c : Registration φ} (hc : IsCommand c.key) :
    ∃ fn', c.step fn = .ok (fn', c.result) ∧ Holds fn' (registered [c] ++ entries) := by
  simp only [Registration.step, fnHashRegister, Registration.result, registered]
  cases hnode : c.node with
  | none => exact ⟨fn, by simp, by simpa [hnode] using h⟩
  | some fresh =>
    have hin : fnHashVal c.key < fn.hlist.length := Nat.lt_of_lt_of_le (fnHashVal_lt c.key) h.large
    refine ⟨libHlistAddHead fn (fnHashVal c.key) ⟨c.key, c.func⟩, ?_, ?_, ?_, ?_⟩
    · simp only [strcpy_command hc, if_pos hin, Option.isSome_some, if_true]
    · rw [libHlistAddHead, length_addHead]
      exact h.large
    · rw [libHlistAddHead]
      simpa [hnode] using represents_addHead h.buckets ⟨c.key, c.func⟩
    · simpa [hnode] using ⟨hc, h.commands⟩

theorem registered_cons (c : Registration φ) (calls : List (Registration φ)) :
    registered (c :: calls) = registered calls ++ registered [c] := by
  rw [registered, registered, registered, ← List.reverse_append, ← List.map_append,
    ← List.filter_append]
  rfl

theorem registrations_hold {fn : FnHash φ} {entries : List (HashGw φ)} (h : Holds fn entries)
    {calls : List (Registration φ)} (hkeys : ∀ c ∈ calls, IsCommand c.key) :
    ∃ fn', run Registration.step fn calls = .ok (fn', calls.map Registration.result) ∧
      Holds fn' (registered calls ++ entries) := by
  induction calls generalizing fn entries with
  | nil => exact ⟨fn, rfl, h⟩
  | cons c calls ih =>
    rw [List.forall_mem_cons] at hkeys
    obtain ⟨fn₁, hstep, h₁⟩ := register_holds h hkeys.1
    obtain ⟨fn', hrun, h'⟩ := ih h₁ hkeys.2
    refine ⟨fn', run_cons_ok hstep hrun, ?_⟩
    rw [registered_cons, List.append_assoc]
    exact h'

/-- As long as handlers keep the key, the walk calls the handlers of the command, in the order of
the bucket. -/
theorem forEachEntry_calls {call : φ → FnHashVal → FnHashVal}
    (hkeep : ∀ f val, (call f val).key = val.key) {bucket : List (HashGw φ)}
    (hbucket : ∀ e ∈ bucket, IsCommand e.key) (val : FnHashVal) :
    (forEachEntry call bucket val).2 =
      (bucket.filter fun e => SameCommand e.key val.key).map HashGw.fn := by
  induction bucket generalizing val with
  | nil => rfl
  | cons e bucket ih =>
    rw [List.forall_mem_cons] at hbucket
    rw [List.filter_cons]
    by_cases hsame : SameCommand e.key val.key = true
    · rw [forEachEntry, if_pos ((strncmp_command hbucket.1 _).mpr hsame), if_pos hsame,
        List.map_cons]
      simp only [ih hbucket.2, hkeep]
    · rw [forEachEntry, if_neg (fun h => hsame ((strncmp_command hbucket.1 _).mp h)),
        if_neg hsame, ih hbucket.2]

theorem run_holds {fn : FnHash φ} {entries : List (HashGw φ)} (h : Holds fn entries)
    {call : φ → FnHashVal → FnHashVal} (hkeep : ∀ f val, (call f val).key = val.key)
    (val : FnHashVal) :
    ∃ val', fnHashRun call fn val = .ok (val', fnHashEok,
      (entries.filter fun e => SameCommand e.key val.key).map HashGw.fn) := by
  obtain ⟨bucket, hbucket, hfilter⟩ := represents_filter h.buckets
    (Nat.lt_of_lt_of_le (fnHashVal_lt val.key) h.large)
    (p := fun e => SameCommand e.key val.key) (fun e _ he => fnHashVal_eq_of_same he)
  have hcommands : ∀ e ∈ bucket, IsCommand e.key := by
    intro e he
    have hrep := h.buckets _ (Nat.lt_of_lt_of_le (fnHashVal_lt val.key) h.large)
    rw [hbucket, Option.some.injEq] at hrep
    rw [hrep] at he
    exact h.commands e (List.mem_of_mem_filter he)
  refine ⟨(forEachEntry call bucket val).1, ?_⟩
  simp only [fnHashRun, hbucket, forEachEntry_calls hkeep hcommands, hfilter]

/-- With handlers that keep the key of the value, a run calls those registered under the looked-up
command, once for each registration, the most recent one first. -/
theorem run_calls_registered (nrHash : UInt32) (h64 : 64 ≤ nrHash)
    (tableMalloc hlistMalloc : Bool) {fn : FnHash φ}
    (hcreate : fnHashCreate nrHash tableMalloc hlistMalloc = some fn)
    (calls : List (Registration φ)) (hkeys : ∀ c ∈ calls, IsCommand c.key)
    (call : φ → FnHashVal → FnHashVal) (hkeep : ∀ f val, (call f val).key = val.key)
    (val : FnHashVal) :
    ∃ fn', run Registration.step fn calls = .ok (fn', calls.map Registration.result) ∧
      ∃ val', fnHashRun call fn' val = .ok (val', fnHashEok,
        ((registered calls).filter fun e => SameCommand e.key val.key).map HashGw.fn) := by
  obtain ⟨fn', hrun, h'⟩ := registrations_hold (holds_created h64 hcreate) hkeys
  rw [List.append_nil] at h'
  exact ⟨fn', hrun, run_holds h' hkeep val⟩

/-- Two handlers of the command `AB` and one of `BD`; handlers that only print. -/
theorem run_calls_two_of_three :
    ∃ fn fn' : FnHash Nat, ∃ val', fnHashCreate 64 true true = some fn ∧
      run Registration.step fn
        [⟨#v[65, 66, 0], 0, some #v[7, 7, 7]⟩, ⟨#v[66, 68, 0], 1, some #v[7, 7, 7]⟩,
          ⟨#v[65, 66, 0], 2, some #v[0, 0, 0]⟩] = .ok (fn', [fnHashEok, fnHashEok, fnHashEok]) ∧
      fnHashRun (fun _ val => val) fn'
        ⟨#v[65, 66, 0], Vector.replicate 64 88, 1, 0, 0, 0, 0⟩ = .ok (val', fnHashEok, [2, 0]) := by
  obtain ⟨fn', hrun, val', hcalls⟩ := run_calls_registered 64 (by decide) true true rfl
    [⟨#v[65, 66, 0], 0, some #v[7, 7, 7]⟩, ⟨#v[66, 68, 0], 1, some #v[7, 7, 7]⟩,
      ⟨#v[65, 66, 0], 2, some #v[0, 0, 0]⟩]
    (by simp [IsCommand]) (fun (_ : Nat) val => val) (fun _ _ => rfl)
    ⟨#v[65, 66, 0], Vector.replicate 64 88, 1, 0, 0, 0, 0⟩
  exact ⟨_, fn', val', rfl, hrun, hcalls⟩

/-- Two handlers of the command `AB`. The newer one, 1, writes `BD` into the key of the value that
it is given, and the older one is not called. -/
theorem rewriting_handler_hides :
    let calls : List (Registration Nat) :=
      [⟨#v[65, 66, 0], 0, some #v[7, 7, 7]⟩, ⟨#v[65, 66, 0], 1, some #v[7, 7, 7]⟩]
    let rewrite : Nat → FnHashVal → FnHashVal := fun f val =>
      if f = 1 then { val with key := #v[66, 68, 0] } else val
    ((registered calls).filter fun e => SameCommand e.key #v[65, 66, 0]).map HashGw.fn = [1, 0] ∧
      ∃ fn fn' val', fnHashCreate 64 true true = some fn ∧
        run Registration.step fn calls = .ok (fn', [fnHashEok, fnHashEok]) ∧
        fnHashRun rewrite fn' ⟨#v[65, 66, 0], Vector.replicate 64 88, 1, 0, 0, 0, 0⟩ =
          .ok (val', fnHashEok, [1]) :=
  ⟨rfl, _, _, _, rfl, rfl, rfl⟩

/-- The bucket of the key is one of the buckets that were initialised, so that neither a
registration nor a run leaves the table. -/
structure HasBucket (fn : FnHash φ) (key : Key) : Prop where
  below : fnHashVal key < fn.nrHash.toNat
  initialised : ∃ bucket, fn.hlist[fnHashVal key]? = some bucket
  register : ∀ func node h, fnHashRegister fn key func node ≠ .error (.noSuchBucket h)
  run : ∀ call val h, val.key = key → fnHashRun call fn val ≠ .error (.noSuchBucket h)

theorem hasBucket_of_lt {fn : FnHash φ} {key : Key} (h : fnHashVal key < fn.nrHash.toNat) :
    HasBucket fn key := by
  have hlen : fnHashVal key < fn.hlist.length := by rwa [fn.size]
  refine ⟨h, ⟨_, List.getElem?_eq_getElem hlen⟩, ?_, ?_⟩
  · intro func node h'
    unfold fnHashRegister
    split
    · exact fun heq => by cases heq
    · split
      · exact fun heq => by cases heq
      · rw [if_pos hlen]
        exact fun heq => by cases heq
  · intro call val h' hkey
    unfold fnHashRun
    rw [hkey, List.getElem?_eq_getElem hlen]
    exact fun heq => by cases heq

theorem nrHash_created {nrHash : UInt32} {tableMalloc hlistMalloc : Bool} {fn : FnHash φ}
    (h : fnHashCreate nrHash tableMalloc hlistMalloc = some fn) : fn.nrHash = nrHash := by
  unfold fnHashCreate at h
  split at h
  · cases h
  split at h
  · cases h
  · cases h
    rfl

theorem nrHash_libHlistAddHead (fn : FnHash φ) (hVal : Nat) (hash : HashGw φ) :
    (libHlistAddHead fn hVal hash).nrHash = fn.nrHash := rfl

/-- A registration does not change the number of buckets. -/
theorem nrHash_step {fn fn' : FnHash φ} {c : Registration φ} {ret : Int}
    (h : c.step fn = .ok (fn', ret)) : fn'.nrHash = fn.nrHash := by
  unfold Registration.step fnHashRegister at h
  split at h
  · cases h
    rfl
  · split at h
    · cases h
    · split at h
      · cases h
        exact nrHash_libHlistAddHead _ _ _
      · cases h

/-- The command `DS` has the largest of the 64 hashes. -/
theorem fnHashVal_largest : fnHashVal #v[68, 83, 0] = 63 := by decide

/-- Whatever was registered, all keys have a bucket exactly if there are as many buckets as the
six bits of the hash can name. -/
theorem bucket_bounds_iff (nrHash : UInt32) (tableMalloc hlistMalloc : Bool) {fn fn' : FnHash φ}
    (hcreate : fnHashCreate nrHash tableMalloc hlistMalloc = some fn)
    (calls : List (Registration φ)) {rets : List Int}
    (hrun : run Registration.step fn calls = .ok (fn', rets)) :
    (∀ key, HasBucket fn' key) ↔ 64 ≤ nrHash := by
  have hsize : fn'.nrHash = nrHash := by
    refine run_invariant (fun t : FnHash φ => t.nrHash = nrHash) ?_ (nrHash_created hcreate) hrun
    intro s c s' ret hs hstep
    rw [nrHash_step hstep, hs]
  rw [UInt32.le_iff_toNat_le]
  constructor
  · intro h
    have hlargest := (h #v[68, 83, 0]).below
    rw [fnHashVal_largest, hsize] at hlargest
    exact hlargest
  · intro h key
    refine hasBucket_of_lt ?_
    rw [hsize]
    exact Nat.lt_of_lt_of_le (fnHashVal_lt key) h

theorem bucket_bounds_sixty_four :
    ∃ fn fn' : FnHash Nat, fnHashCreate 64 true true = some fn ∧
      run Registration.step fn [⟨#v[65, 66, 0], 0, some #v[7, 7, 7]⟩] = .ok (fn', [fnHashEok]) ∧
      ∀ key, HasBucket fn' key := by
  have hempty : Holds (⟨List.replicate 64 [], 64, List.length_replicate⟩ : FnHash Nat) [] :=
    holds_created (show (64 : UInt32) ≤ 64 by decide) (show fnHashCreate 64 true true = _ from rfl)
  have hkeys : ∀ c ∈ [(⟨#v[65, 66, 0], 0, some #v[7, 7, 7]⟩ : Registration Nat)],
      IsCommand c.key := by
    simp [IsCommand]
  obtain ⟨fn', hrun, -⟩ := registrations_hold hempty hkeys
  exact ⟨_, fn', rfl, hrun, (bucket_bounds_iff 64 true true rfl _ hrun).mpr (by decide)⟩

/-- The table of two buckets of the test program, and its command `AB`: the bucket is number 54. -/
theorem two_buckets_left :
    ∃ fn : FnHash Nat, fnHashCreate 2 true true = some fn ∧
      fnHashRegister fn #v[65, 66, 0] 0 (some #v[7, 7, 7]) = .error (.noSuchBucket 54) ∧
      ¬ HasBucket fn #v[65, 66, 0] := by
  refine ⟨_, rfl, by rfl, ?_⟩
  intro h
  exact absurd h.below (by decide)

end BackupSoftware.Dispatch

import Mathlib.Data.List.Basic
import Mathlib.Logic.Function.Basic
import Mathlib.Tactic.Common

/-!
# System V semaphore sets

The sets of one semaphore each that exist in a system, by their identifiers. A set is
found by its key, and keys are unique among the sets that exist. An identifier is not
given out twice, so that of a removed set stays invalid.
-/

namespace BackupSoftware.Library.SemaphoreSets

/-- A set with one semaphore. -/
structure SemSet (κ : Type) where
  key : κ
  val : Nat
  deriving DecidableEq

structure Sets (κ : Type) where
  set : Nat → Option (SemSet κ)
  /-- The identifier of the next new set. -/
  next : Nat
  bounded : ∀ i, next ≤ i → set i = none
  unique : ∀ i j a b, set i = some a → set j = some b → a.key = b.key → i = j

variable {κ : Type}

/-- A system without semaphores. -/
def Sets.empty : Sets κ := ⟨fun _ => none, 0, fun _ _ => rfl, fun _ _ _ _ h => by cases h⟩

theorem Sets.lt_next (S : Sets κ) {i : Nat} {a : SemSet κ} (h : S.set i = some a) : i < S.next := by
  by_contra hge
  rw [S.bounded i (Nat.le_of_not_lt hge)] at h
  cases h

/-- The value of a semaphore is changed; nothing happens if the set does not exist. -/
def Sets.change (S : Sets κ) (i : Nat) (f : Nat → Nat) : Sets κ where
  set := fun j => if j = i then (S.set i).map fun a => ⟨a.key, f a.val⟩ else S.set j
  next := S.next
  bounded := by
    intro j hj
    split
    · rename_i heq
      rw [← heq, S.bounded j hj]
      rfl
    · exact S.bounded j hj
  unique := by
    have hold : ∀ j a, (if j = i then (S.set i).map fun a => ⟨a.key, f a.val⟩ else S.set j) =
        some a → ∃ b, S.set j = some b ∧ b.key = a.key := by
      intro j a h
      split at h
      · rename_i heq
        obtain ⟨b, hb, rfl⟩ := Option.map_eq_some_iff.mp h
        exact ⟨b, by rw [heq]; exact hb, rfl⟩
      · exact ⟨a, h, rfl⟩
    intro j k a b ha hb hkey
    obtain ⟨a', ha', hkeya⟩ := hold j a ha
    obtain ⟨b', hb', hkeyb⟩ := hold k b hb
    exact S.unique j k a' b' ha' hb' (by rw [hkeya, hkeyb, hkey])

/-- `IPC_RMID`. -/
def Sets.remove (S : Sets κ) (i : Nat) : Sets κ where
  set := Function.update S.set i none
  next := S.next
  bounded := by
    intro j hj
    by_cases h : j = i
    · rw [h, Function.update_self]
    · rw [Function.update_of_ne h, S.bounded j hj]
  unique := by
    intro j k a b ha hb hkey
    by_cases hj : j = i
    · rw [hj, Function.update_self] at ha
      cases ha
    · by_cases hk : k = i
      · rw [hk, Function.update_self] at hb
        cases hb
      · rw [Function.update_of_ne hj] at ha
        rw [Function.update_of_ne hk] at hb
        exact S.unique j k a b ha hb hkey

/-- A new set, under a key that no set has. -/
def Sets.add (S : Sets κ) (k : κ) (h : ∀ i a, S.set i = some a → a.key ≠ k) : Sets κ where
  set := Function.update S.set S.next (some ⟨k, 0⟩)
  next := S.next + 1
  bounded := by
    intro j hj
    rw [Function.update_of_ne (by omega), S.bounded j (by omega)]
  unique := by
    intro i j a b ha hb hkey
    by_cases hi : i = S.next
    · by_cases hj : j = S.next
      · rw [hi, hj]
      · rw [hi, Function.update_self] at ha
        rw [Function.update_of_ne hj] at hb
        cases ha
        exact absurd hkey.symm (h j b hb)
    · rw [Function.update_of_ne hi] at ha
      by_cases hj : j = S.next
      · rw [hj, Function.update_self] at hb
        cases hb
        exact absurd hkey (h i a ha)
      · rw [Function.update_of_ne hj] at hb
        exact S.unique i j a b ha hb hkey

variable [DecidableEq κ]

/-- The identifier of the set with the key. -/
def Sets.find (S : Sets κ) (k : κ) : Option Nat :=
  (List.range S.next).find? fun i => (S.set i).any fun a => a.key = k

theorem Sets.find_some {S : Sets κ} {k : κ} {i : Nat} (h : S.find k = some i) :
    ∃ a, S.set i = some a ∧ a.key = k := by
  have hany := List.find?_some h
  cases ha : S.set i with
  | none =>
    rw [ha] at hany
    cases hany
  | some a =>
    rw [ha] at hany
    exact ⟨a, rfl, of_decide_eq_true hany⟩

theorem Sets.find_none {S : Sets κ} {k : κ} (h : S.find k = none) :
    ∀ i a, S.set i = some a → a.key ≠ k := by
  intro i a ha hk
  have hno := List.find?_eq_none.mp h i (List.mem_range.mpr (S.lt_next ha))
  rw [ha] at hno
  exact hno (by simp [hk])

/-- `semget(key, 1, IPC_CREAT)`: the set with the key, which is created if there is none. -/
def Sets.get (S : Sets κ) (k : κ) : Nat × Sets κ :=
  match h : S.find k with
  | some i => (i, S)
  | none => (S.next, S.add k (Sets.find_none h))

/-- Either the set exists, and nothing changes, or it is a new one. -/
theorem Sets.get_cases (S : Sets κ) (k : κ) :
    (∃ i a, S.get k = (i, S) ∧ S.set i = some a ∧ a.key = k) ∨
      ∃ h, S.get k = (S.next, S.add k h) := by
  unfold Sets.get
  split
  · rename_i i h
    obtain ⟨a, ha, hk⟩ := Sets.find_some h
    exact Or.inl ⟨i, a, rfl, ha, hk⟩
  · rename_i h
    exact Or.inr ⟨Sets.find_none h, rfl⟩

omit [DecidableEq κ]

theorem Sets.set_change_same (S : Sets κ) (i : Nat) (f : Nat → Nat) :
    (S.change i f).set i = (S.set i).map fun a => ⟨a.key, f a.val⟩ := if_pos rfl

theorem Sets.set_change_ne (S : Sets κ) {i j : Nat} (h : j ≠ i) (f : Nat → Nat) :
    (S.change i f).set j = S.set j := if_neg h

/-- A changed semaphore is that of a set that exists. -/
theorem Sets.set_change_some {S : Sets κ} {i j : Nat} {f : Nat → Nat} {a : SemSet κ}
    (h : (S.change i f).set j = some a) :
    ∃ b, S.set j = some b ∧ a.val = if j = i then f b.val else b.val := by
  by_cases hj : j = i
  · subst hj
    rw [Sets.set_change_same] at h
    obtain ⟨b, hb, rfl⟩ := Option.map_eq_some_iff.mp h
    exact ⟨b, hb, (if_pos rfl).symm⟩
  · rw [Sets.set_change_ne S hj] at h
    exact ⟨a, h, (if_neg hj).symm⟩

theorem Sets.set_remove_some {S : Sets κ} {i j : Nat} {a : SemSet κ}
    (h : (S.remove i).set j = some a) : S.set j = some a := by
  have h' : Function.update S.set i none j = some a := h
  by_cases hj : j = i
  · rw [hj, Function.update_self] at h'
    cases h'
  · rwa [Function.update_of_ne hj] at h'

theorem Sets.set_remove_ne (S : Sets κ) {i j : Nat} (h : j ≠ i) : (S.remove i).set j = S.set j :=
  Function.update_of_ne h ..

/-- Removing a set that does not exist changes nothing. -/
theorem Sets.remove_of_none {S : Sets κ} {i : Nat} (h : S.set i = none) : S.remove i = S := by
  have hset : Function.update S.set i none = S.set := by
    rw [← h, Function.update_eq_self]
  obtain ⟨set, next, bounded, unique⟩ := S
  simp only [Sets.remove, Sets.mk.injEq, and_true]
  exact hset

theorem Sets.set_add_ne (S : Sets κ) {k : κ} (h : ∀ i a, S.set i = some a → a.key ≠ k) {i : Nat}
    (hi : i ≠ S.next) : (S.add k h).set i = S.set i :=
  Function.update_of_ne hi ..

theorem Sets.set_add_lt (S : Sets κ) {k : κ} (h : ∀ i a, S.set i = some a → a.key ≠ k) {i : Nat}
    (hi : i < S.next) : (S.add k h).set i = S.set i :=
  Function.update_of_ne (Nat.ne_of_lt hi) ..

end BackupSoftware.Library.SemaphoreSets

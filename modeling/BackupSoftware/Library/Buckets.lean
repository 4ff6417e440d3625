import Mathlib.Data.List.Basic
import Mathlib.Tactic.Common

/-!
# Chained buckets

Entries are kept in the bucket their hash names, the newest first. A bucket then
holds exactly the inserted entries with its hash, and a search that only looks for
entries of one hash finds in that bucket what it would find among all of them.
-/

namespace BackupSoftware.Library.Buckets

variable {α : Type} {hash : α → Nat} {table : List (List α)} {entries : List α}

/-- The table with `x` at the front of bucket `i`. -/
def addHead (table : List (List α)) (i : Nat) (x : α) : List (List α) :=
  table.modify i (x :: ·)

@[simp] theorem length_addHead (table : List (List α)) (i : Nat) (x : α) :
    (addHead table i x).length = table.length := List.length_modify ..

/-- Every bucket holds the entries with its hash, in the order of `entries`. -/
def Represents (hash : α → Nat) (table : List (List α)) (entries : List α) : Prop :=
  ∀ i < table.length, table[i]? = some (entries.filter (hash · = i))

theorem represents_empty (hash : α → Nat) (n : Nat) :
    Represents hash (List.replicate n []) [] := by
  intro i hi
  rw [List.length_replicate] at hi
  rw [List.getElem?_replicate, if_pos hi, List.filter_nil]

theorem represents_addHead (h : Represents hash table entries) (x : α) :
    Represents hash (addHead table (hash x) x) (x :: entries) := by
  intro i hi
  rw [length_addHead] at hi
  rw [addHead, List.getElem?_modify, h i hi, Option.map_eq_map, Option.map_some]
  by_cases hx : hash x = i
  · rw [if_pos hx, List.filter_cons_of_pos (by simpa using hx)]
  · rw [if_neg hx, List.filter_cons_of_neg (by simpa using hx)]

/-- Where all entries that satisfy `p` hash to `i`, bucket `i` holds all of them. -/
theorem represents_filter (h : Represents hash table entries) {i : Nat} (hi : i < table.length)
    {p : α → Bool} (hp : ∀ x ∈ entries, p x = true → hash x = i) :
    ∃ bucket, table[i]? = some bucket ∧ bucket.filter p = entries.filter p := by
  refine ⟨_, h i hi, ?_⟩
  rw [List.filter_filter]
  apply List.filter_congr
  intro x hx
  by_cases hpx : p x = true
  · simp [hpx, hp x hx hpx]
  · simp [hpx]

end BackupSoftware.Library.Buckets

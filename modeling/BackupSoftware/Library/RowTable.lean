import Mathlib.Data.List.Basic
import Mathlib.Tactic.Common

/-!
# Tables with an automatically numbered key

Rows are kept in the order of their row numbers. A new row gets a number larger
than any ever given out, so it comes last, also after deletions.
-/

namespace BackupSoftware.Library

variable {ρ : Type}

structure RowTable (ρ : Type) where
  rows : List (Nat × ρ)
  /-- The largest row number given out so far. -/
  seq : Nat
  sorted : rows.Pairwise fun r r' => r.1 < r'.1
  bounded : ∀ r ∈ rows, r.1 ≤ seq

def RowTable.empty : RowTable ρ := ⟨[], 0, List.Pairwise.nil, by simp⟩

/-- The rows without their numbers, in the order of these. -/
def RowTable.values (t : RowTable ρ) : List ρ := t.rows.map Prod.snd

def RowTable.insert (t : RowTable ρ) (x : ρ) : RowTable ρ where
  rows := t.rows ++ [(t.seq + 1, x)]
  seq := t.seq + 1
  sorted := by
    rw [List.pairwise_append]
    refine ⟨t.sorted, List.pairwise_singleton _ _, ?_⟩
    intro r hr r' hr'
    rw [List.mem_singleton.mp hr']
    exact Nat.lt_succ_of_le (t.bounded r hr)
  bounded := by
    intro r hr
    rcases List.mem_append.mp hr with hr | hr
    · exact Nat.le_succ_of_le (t.bounded r hr)
    · obtain rfl := List.mem_singleton.mp hr
      exact Nat.le_refl _

/-- Deletes the rows that satisfy `p`. The numbers of deleted rows are not reused. -/
def RowTable.delete (t : RowTable ρ) (p : ρ → Bool) : RowTable ρ where
  rows := t.rows.filter fun r => !p r.2
  seq := t.seq
  sorted := t.sorted.filter _
  bounded := fun r hr => t.bounded r (List.mem_of_mem_filter hr)

/-- The row with the smallest number among those that satisfy `p`. -/
def RowTable.first (t : RowTable ρ) (p : ρ → Bool) : Option ρ :=
  (t.rows.find? fun r => p r.2).map Prod.snd

/-- No row that satisfies `p` has a smaller number than the first one. -/
theorem RowTable.first_least (t : RowTable ρ) {p : ρ → Bool} {x : ρ} (h : t.first p = some x) :
    ∃ n, (n, x) ∈ t.rows ∧ p x = true ∧ ∀ r ∈ t.rows, p r.2 = true → n ≤ r.1 := by
  obtain ⟨⟨n, y⟩, hfind, rfl⟩ := Option.map_eq_some_iff.mp h
  obtain ⟨hp, before, after, hrows, hbefore⟩ := List.find?_eq_some_iff_append.mp hfind
  refine ⟨n, by rw [hrows]; simp, hp, ?_⟩
  intro r hr hpr
  have hsorted := t.sorted
  rw [hrows] at hr hsorted
  rcases List.mem_append.mp hr with hr | hr
  · have hno := hbefore r hr
    rw [hpr] at hno
    cases hno
  · rcases List.mem_cons.mp hr with rfl | hr
    · exact Nat.le_refl n
    · have htail := (List.pairwise_append.mp hsorted).2.1
      exact Nat.le_of_lt ((List.pairwise_cons.mp htail).1 r hr)

@[simp] theorem RowTable.values_insert (t : RowTable ρ) (x : ρ) :
    (t.insert x).values = t.values ++ [x] := by
  simp [values, insert]

@[simp] theorem RowTable.values_delete (t : RowTable ρ) (p : ρ → Bool) :
    (t.delete p).values = t.values.filter fun x => !p x := by
  simp only [values, delete, List.filter_map]
  rfl

theorem RowTable.first_eq (t : RowTable ρ) (p : ρ → Bool) : t.first p = t.values.find? p := by
  rw [first, values, List.find?_map]
  rfl

/-- A row that is the only one to satisfy `p` is found, whatever was there before. -/
theorem RowTable.first_insert (t : RowTable ρ) {p : ρ → Bool} {x : ρ} (hx : p x = true)
    (h : ∀ y ∈ t.values, p y = false) : (t.insert x).first p = some x := by
  rw [first_eq, values_insert, List.find?_append, List.find?_eq_none.mpr, List.find?_singleton,
    if_pos hx, Option.none_or]
  intro y hy
  rw [h y hy]
  exact Bool.false_ne_true

/-- Deleting the row just inserted, and only it, restores the rows. -/
theorem RowTable.rows_delete_insert (t : RowTable ρ) {p : ρ → Bool} {x : ρ} (hx : p x = true)
    (h : ∀ y ∈ t.values, p y = false) : ((t.insert x).delete p).rows = t.rows := by
  have hrest : t.rows.filter (fun r => !p r.2) = t.rows := by
    rw [List.filter_eq_self]
    intro r hr
    rw [h r.2 (List.mem_map_of_mem hr)]
    rfl
  simp only [delete, insert, List.filter_append, hrest, List.filter_cons, hx]
  simp

/-- Deletion by a test that fails on a row keeps the row. -/
theorem RowTable.mem_values_delete {t : RowTable ρ} {p : ρ → Bool} {x : ρ} :
    x ∈ (t.delete p).values ↔ x ∈ t.values ∧ p x = false := by
  rw [values_delete, List.mem_filter, Bool.not_eq_true']

end BackupSoftware.Library

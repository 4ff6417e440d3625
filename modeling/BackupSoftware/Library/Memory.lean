import Mathlib.Data.List.Basic
import Mathlib.Logic.Function.Basic
import Mathlib.Tactic.Common

/-!
# Memory as a function from addresses to cells

Buffers that are written in the order of their addresses. A stored list is read
back from where it was stored, and everything else is as it was.
-/

namespace BackupSoftware.Library.Memory

variable {α : Type}

/-- The `n` cells from address `p` on. -/
def load (m : Nat → α) (p n : Nat) : List α := (List.range n).map fun k => m (p + k)

/-- The memory after the list was written from address `p` on. -/
def store (m : Nat → α) (p : Nat) : List α → Nat → α
  | [] => m
  | a :: l => store (Function.update m p a) (p + 1) l

@[simp] theorem length_load (m : Nat → α) (p n : Nat) : (load m p n).length = n := by
  simp [load]

theorem getElem?_load (m : Nat → α) (p : Nat) {n k : Nat} (hk : k < n) :
    (load m p n)[k]? = some (m (p + k)) := by
  rw [load, List.getElem?_map, List.getElem?_range hk, Option.map_some]

theorem load_add (m : Nat → α) (p a b : Nat) :
    load m p (a + b) = load m p a ++ load m (p + a) b := by
  simp only [load, List.range_add, List.map_append, List.map_map, Function.comp_def, Nat.add_assoc]

theorem load_succ (m : Nat → α) (p n : Nat) :
    load m p (n + 1) = m p :: load m (p + 1) n := by
  rw [Nat.add_comm, load_add]
  rfl

theorem load_concat (m : Nat → α) (p n : Nat) :
    load m p (n + 1) = load m p n ++ [m (p + n)] := load_add m p n 1

theorem load_congr {m m' : Nat → α} {p n : Nat} (h : ∀ k, p ≤ k → k < p + n → m k = m' k) :
    load m p n = load m' p n := by
  apply List.map_congr_left
  intro k hk
  have := List.mem_range.mp hk
  exact h (p + k) (by omega) (by omega)

/-- A list as memory from address 0 on. -/
theorem load_getD {α : Type} (l : List α) (a : α) : load (l.getD · a) 0 l.length = l := by
  apply List.ext_getElem (length_load _ _ _)
  intro i h1 h2
  simp [load, h2]

theorem store_append (m : Nat → α) (p : Nat) (l l' : List α) :
    store m p (l ++ l') = store (store m p l) (p + l.length) l' := by
  induction l generalizing m p with
  | nil => rfl
  | cons a l ih =>
    rw [List.cons_append, store, store, ih, List.length_cons, Nat.add_assoc, Nat.add_comm 1]

/-- Outside the written range nothing changes. -/
theorem store_outside (m : Nat → α) (p : Nat) (l : List α) {k : Nat}
    (hk : k < p ∨ p + l.length ≤ k) : store m p l k = m k := by
  induction l generalizing m p with
  | nil => rfl
  | cons a l ih =>
    rw [List.length_cons] at hk
    rw [store, ih _ _ (by omega), Function.update_of_ne (by omega)]

/-- What was written is read back. -/
theorem load_store (m : Nat → α) (p : Nat) (l : List α) : load (store m p l) p l.length = l := by
  induction l generalizing m p with
  | nil => rfl
  | cons a l ih =>
    rw [List.length_cons, load_succ, store, ih, store_outside _ _ _ (Or.inl (Nat.lt_succ_self p)),
      Function.update_self]

theorem store_inside (m : Nat → α) (p : Nat) (l : List α) {k : Nat} (hk : k < l.length) :
    store m p l (p + k) = l[k] := by
  have h := getElem?_load (store m p l) p hk
  rw [load_store, List.getElem?_eq_getElem hk] at h
  exact (Option.some.inj h).symm

/-- The memory after writing from address `p` on, where `none` leaves a cell as it is. -/
def patch (m : Nat → α) (p : Nat) : List (Option α) → Nat → α
  | [] => m
  | none :: l => patch m (p + 1) l
  | some a :: l => patch (Function.update m p a) (p + 1) l

theorem patch_before (m : Nat → α) (p : Nat) (l : List (Option α)) {k : Nat} (hk : k < p) :
    patch m p l k = m k := by
  induction l generalizing m p with
  | nil => rfl
  | cons o l ih =>
    cases o with
    | none => exact ih m (p + 1) (by omega)
    | some a => rw [patch, ih _ _ (by omega), Function.update_of_ne (by omega)]

/-- If no cell is passed over, the old contents do not matter. -/
theorem patch_map_some (m : Nat → α) (p : Nat) (l : List α) :
    patch m p (l.map some) = store m p l := by
  induction l generalizing m p with
  | nil => rfl
  | cons a l ih => exact ih (Function.update m p a) (p + 1)

theorem patch_map_some_append (m : Nat → α) (p : Nat) (l : List α) (l' : List (Option α)) :
    patch m p (l.map some ++ l') = patch (store m p l) (p + l.length) l' := by
  induction l generalizing m p with
  | nil => rfl
  | cons a l ih =>
    rw [List.length_cons, Nat.add_comm l.length, ← Nat.add_assoc]
    exact ih (Function.update m p a) (p + 1)

/-- A cell that is passed over keeps its contents. -/
theorem patch_none (m : Nat → α) (p : Nat) {l : List (Option α)} {k : Nat}
    (h : l[k]? = some none) : patch m p l (p + k) = m (p + k) := by
  induction l generalizing m p k with
  | nil => cases h
  | cons o l ih =>
    cases k with
    | zero =>
      have ho : o = none := Option.some.inj h
      rw [ho, patch]
      exact patch_before m (p + 1) l (Nat.lt_succ_self p)
    | succ k =>
      have hnext : p + (k + 1) = p + 1 + k := by omega
      rw [hnext]
      cases o with
      | none => exact ih m (p + 1) h
      | some a => rw [patch, ih _ _ h, Function.update_of_ne (by omega)]

end BackupSoftware.Library.Memory

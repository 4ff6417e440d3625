import Mathlib.Algebra.BigOperators.Group.List.Basic
import Mathlib.Data.Nat.ModEq

/-!
# Ones' complement sums

Addition of numbers up to `n` with an end-around carry. The sum of a list is the
representative of its plain sum modulo `n` that is zero only where the plain sum is.
-/

namespace BackupSoftware.OnesComplement

def add (n a b : Nat) : Nat := if a + b ≤ n then a + b else a + b - n

def sum (n : Nat) (ws : List Nat) : Nat := ws.foldr (add n) 0

variable {n : Nat}

theorem add_le {a b : Nat} (ha : a ≤ n) (hb : b ≤ n) : add n a b ≤ n := by
  unfold add
  split <;> omega

theorem add_modEq (a b : Nat) : add n a b ≡ a + b [MOD n] := by
  unfold add
  split
  · rfl
  · exact (Nat.modEq_iff_dvd' (Nat.sub_le _ _)).mpr ⟨1, by omega⟩

theorem add_eq_zero_iff {a b : Nat} : add n a b = 0 ↔ a + b = 0 := by
  unfold add
  split <;> omega

theorem sum_le {ws : List Nat} (h : ∀ w ∈ ws, w ≤ n) : sum n ws ≤ n := by
  induction ws with
  | nil => exact Nat.zero_le n
  | cons w ws ih =>
    have hw : w ≤ n := h w (List.mem_cons_self ..)
    exact add_le hw (ih fun v hv => h v (List.mem_cons_of_mem _ hv))

theorem sum_modEq (ws : List Nat) : sum n ws ≡ ws.sum [MOD n] := by
  induction ws with
  | nil => rfl
  | cons w ws ih =>
    rw [List.sum_cons]
    exact (add_modEq w (sum n ws)).trans (ih.add_left w)

theorem sum_eq_zero_iff (ws : List Nat) : sum n ws = 0 ↔ ws.sum = 0 := by
  induction ws with
  | nil => exact Iff.rfl
  | cons w ws ih =>
    change add n w (sum n ws) = 0 ↔ _
    rw [add_eq_zero_iff, List.sum_cons]
    omega

/-- A number up to `n` is known from its residue and from whether it is zero. -/
theorem eq_sum_iff {ws : List Nat} (h : ∀ w ∈ ws, w ≤ n) {x : Nat} (hx : x ≤ n) :
    x = sum n ws ↔ x ≡ ws.sum [MOD n] ∧ (x = 0 ↔ ws.sum = 0) := by
  have hle := sum_le h
  have hmod := sum_modEq (n := n) ws
  have hzero := sum_eq_zero_iff (n := n) ws
  constructor
  · rintro rfl
    exact ⟨hmod, hzero⟩
  · rintro ⟨hres, hx0⟩
    have heq : x % n = sum n ws % n := hres.trans hmod.symm
    rcases Nat.lt_or_ge x n with hlt | hge
    · rcases Nat.lt_or_ge (sum n ws) n with hlt' | hge'
      · rwa [Nat.mod_eq_of_lt hlt, Nat.mod_eq_of_lt hlt'] at heq
      · have hn : sum n ws = n := by omega
        rw [hn, Nat.mod_self, Nat.mod_eq_of_lt hlt] at heq
        omega
    · have hn : x = n := by omega
      rcases Nat.lt_or_ge (sum n ws) n with hlt' | hge'
      · rw [hn, Nat.mod_self, Nat.mod_eq_of_lt hlt'] at heq
        omega
      · omega

end BackupSoftware.OnesComplement

import Mathlib.Data.List.Basic
import Mathlib.Tactic.Common

/-!
# Substitution-permutation networks

A round substitutes, mixes and adds its key; the last round does not mix. The inverse is
a network of the same shape: the inverse substitution and the inverse mixing stand in the
order of the forward ones, and the keys of the inner rounds are mixed back beforehand.
-/

namespace BackupSoftware.Library.SubstitutionNetwork

variable {α : Type}

/-- The inner rounds, one for each key. -/
def rounds (add : α → α → α) (S M : α → α) : List α → α → α
  | [], x => x
  | k :: ks, x => rounds add S M ks (add (M (S x)) k)

/-- The network with the first key, those of the inner rounds and the last. -/
def crypt (add : α → α → α) (S M : α → α) (first : α) (inner : List α) (last x : α) : α :=
  add (S (rounds add S M inner (add x first))) last

theorem rounds_append (add : α → α → α) (S M : α → α) (ks ks' : List α) (x : α) :
    rounds add S M (ks ++ ks') x = rounds add S M ks' (rounds add S M ks x) := by
  induction ks generalizing x with
  | nil => rfl
  | cons k ks ih => exact ih _

section

variable {add : α → α → α} {S S' M M' : α → α} (hcancel : ∀ a b, add (add a b) b = a)
  (hS : ∀ a, S' (S a) = a) (hM : ∀ a, M' (M a) = a) (hadd : ∀ a b, M' (add a b) = add (M' a) (M' b))

include hcancel hS hM hadd

/-- The inner rounds of the inverse, started behind a substitution, lead back to the
substitution before them. -/
theorem rounds_reverse (ks : List α) (x : α) :
    rounds add S' M' (ks.reverse.map M') (S (rounds add S M ks x)) = S x := by
  induction ks generalizing x with
  | nil => rfl
  | cons k ks ih =>
    rw [List.reverse_cons, List.map_append, rounds_append, rounds, ih]
    show add (M' (S' (S (add (M (S x)) k)))) (M' k) = S x
    rw [hS, ← hadd, hcancel, hM]

theorem crypt_crypt (first : α) (inner : List α) (last x : α) :
    crypt add S' M' last (inner.reverse.map M') first (crypt add S M first inner last x) = x := by
  rw [crypt, crypt, hcancel, rounds_reverse hcancel hS hM hadd, hS, hcancel]

end

end BackupSoftware.Library.SubstitutionNetwork

import Mathlib.Data.List.Basic
import Mathlib.Data.Prod.Basic
import Mathlib.Tactic.Common

/-!
# Feistel rounds

In each round one half is mixed with a function of the other, and the halves change
their roles. The same rounds with the keys in reverse order, started with the halves
exchanged, undo them, whatever the round function is.
-/

namespace BackupSoftware.Library.Feistel

variable {α κ : Type}

def rounds (mix : α → α → α) (F : κ → α → α) : List κ → α × α → α × α
  | [], b => b
  | k :: ks, b => rounds mix F ks (b.2, mix b.1 (F k b.2))

variable {mix : α → α → α}

theorem rounds_append (F : κ → α → α) (ks ks' : List κ) (b : α × α) :
    rounds mix F (ks ++ ks') b = rounds mix F ks' (rounds mix F ks b) := by
  induction ks generalizing b with
  | nil => rfl
  | cons k ks ih => exact ih _

/-- A map of the halves that fits the keys of every round carries over to all rounds. -/
theorem rounds_map {β μ : Type} {mix' : β → β → β} {F : κ → α → α} {F' : μ → β → β} (g : κ → μ)
    (h : α → β) (hround : ∀ k a b, mix' (h a) (F' (g k) (h b)) = h (mix a (F k b))) (ks : List κ)
    (b : α × α) : rounds mix' F' (ks.map g) (b.map h h) = (rounds mix F ks b).map h h := by
  induction ks generalizing b with
  | nil => rfl
  | cons k ks ih =>
    rw [List.map_cons, rounds, rounds, ← ih]
    simp only [Prod.map, hround]

/-- The rounds with reversed keys undo the rounds. -/
theorem rounds_reverse_swap (hcancel : ∀ a b, mix (mix a b) b = a) (F : κ → α → α) (ks : List κ)
    (b : α × α) : rounds mix F ks.reverse (rounds mix F ks b).swap = b.swap := by
  induction ks generalizing b with
  | nil => rfl
  | cons k ks ih =>
    have hinner : rounds mix F ks.reverse (rounds mix F (k :: ks) b).swap =
        (mix b.1 (F k b.2), b.2) := ih _
    rw [List.reverse_cons, rounds_append, hinner]
    show (b.2, mix (mix b.1 (F k b.2)) (F k b.2)) = b.swap
    rw [hcancel]
    rfl

end BackupSoftware.Library.Feistel

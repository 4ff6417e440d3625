import Mathlib.Data.List.TakeDrop
import Mathlib.Tactic.Common

/-!
# Reliable streams

A stream delivers what is written to it in order, but a read may take any nonempty
prefix of what is pending. A read of an empty stream gives nothing once the stream is
closed, and blocks before that.
-/

namespace BackupSoftware.Library

variable {α : Type}

structure Channel (α : Type) where
  pending : List α
  closed : Bool

def Channel.write (c : Channel α) (xs : List α) : Channel α := { c with pending := c.pending ++ xs }

def Channel.close (c : Channel α) : Channel α := { c with closed := true }

/-- A read with a buffer of `n` items that takes `k` of the pending ones. -/
def Channel.read (c : Channel α) (n k : Nat) : Option (List α × Channel α) :=
  if c.pending.isEmpty then if c.closed then some ([], c) else none
  else if 1 ≤ k ∧ k ≤ n ∧ k ≤ c.pending.length then
    some (c.pending.take k, { c with pending := c.pending.drop k })
  else none

@[simp] theorem Channel.pending_write (c : Channel α) (xs : List α) :
    (c.write xs).pending = c.pending ++ xs := rfl

@[simp] theorem Channel.closed_write (c : Channel α) (xs : List α) :
    (c.write xs).closed = c.closed := rfl

@[simp] theorem Channel.pending_close (c : Channel α) : c.close.pending = c.pending := rfl

@[simp] theorem Channel.closed_close (c : Channel α) : c.close.closed = true := rfl

/-- A read that takes something, or the end of the stream. -/
theorem Channel.read_cases {c c' : Channel α} {n k : Nat} {xs : List α}
    (h : c.read n k = some (xs, c')) :
    (xs = [] ∧ c.pending = [] ∧ c.closed = true ∧ c' = c) ∨
      (xs ≠ [] ∧ xs.length = k ∧ k ≤ n ∧ c.pending = xs ++ c'.pending ∧ c'.closed = c.closed) := by
  unfold read at h
  by_cases hempty : c.pending.isEmpty = true
  · rw [if_pos hempty] at h
    split at h
    · next hclosed =>
      cases h
      exact .inl ⟨rfl, by simpa using hempty, hclosed, rfl⟩
    · cases h
  · rw [if_neg hempty] at h
    split at h
    · next hk =>
      cases h
      refine .inr ⟨?_, ?_, hk.2.1, ?_, rfl⟩
      · intro hnil
        have hlen := congrArg List.length hnil
        rw [List.length_take, List.length_nil] at hlen
        omega
      · rw [List.length_take]
        omega
      · exact (List.take_append_drop k c.pending).symm
    · cases h

theorem Channel.closed_of_read {c c' : Channel α} {n k : Nat} {xs : List α}
    (h : c.read n k = some (xs, c')) : c'.closed = c.closed := by
  rcases read_cases h with ⟨-, -, -, rfl⟩ | ⟨-, -, -, -, hclosed⟩
  · rfl
  · exact hclosed

/-- What is pending can be read item by item, and so can the end of a closed stream. -/
theorem Channel.exists_read {c : Channel α} {n : Nat} (hn : 0 < n)
    (h : c.pending ≠ [] ∨ c.closed = true) : ∃ k r, c.read n k = some r := by
  cases hp : c.pending with
  | nil =>
    have hclosed : c.closed = true := h.resolve_left (fun hne => hne hp)
    exact ⟨1, ([], c), by simp [read, hp, hclosed]⟩
  | cons x xs => exact ⟨1, ([x], { c with pending := xs }), by simp [read, hp]; omega⟩

end BackupSoftware.Library

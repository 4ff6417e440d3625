import Mathlib.Tactic.Common

/-!
# Four values of a kind

The four bytes of a word, or the four words of a block.
-/

namespace BackupSoftware.Library

structure Quad (α : Type) where
  a : α
  b : α
  c : α
  d : α
  deriving DecidableEq, Repr

namespace Quad

variable {α β γ : Type}

def map (f : α → β) (q : Quad α) : Quad β := ⟨f q.a, f q.b, f q.c, f q.d⟩

def zip (f : α → β → γ) (p : Quad α) (q : Quad β) : Quad γ :=
  ⟨f p.a q.a, f p.b q.b, f p.c q.c, f p.d q.d⟩

theorem map_zip {f : α → α → α} {g : β → β → β} {h : α → β} (hf : ∀ x y, h (f x y) = g (h x) (h y))
    (p q : Quad α) : (p.zip f q).map h = (p.map h).zip g (q.map h) := by
  simp only [map, zip, hf]

theorem map_eq_self {f : α → α} (hf : ∀ x, f x = x) (q : Quad α) : q.map f = q := by
  simp only [map, hf]

theorem zip_cancel {f : α → α → α} (hf : ∀ x y, f (f x y) y = x) (p q : Quad α) :
    (p.zip f q).zip f q = p := by
  simp only [zip, hf]

end Quad

end BackupSoftware.Library

import Mathlib.Data.Finset.Card
import Mathlib.Data.Set.Finite.Basic

/-!
# File descriptors of a process

A new descriptor is the lowest number that is not in use. Closing a number that is not
open, or a negative one, changes nothing.
-/

namespace BackupSoftware.Library.Descriptors

/-- The descriptor that `open` returns. -/
def lowest (fds : Finset Nat) : Nat := Nat.find (Infinite.exists_notMem_finset fds)

theorem lowest_notMem (fds : Finset Nat) : lowest fds ∉ fds :=
  Nat.find_spec (Infinite.exists_notMem_finset fds)

/-- The open descriptors after `close(fd)`. -/
def close (fds : Finset Nat) (fd : Int) : Finset Nat := if fd < 0 then fds else fds.erase fd.toNat

theorem close_negative (fds : Finset Nat) {fd : Int} (h : fd < 0) : close fds fd = fds := if_pos h

/-- Closing what was opened last restores the descriptors. -/
theorem close_opened (fds : Finset Nat) : close (insert (lowest fds) fds) (lowest fds) = fds := by
  rw [close, if_neg (by omega), Int.toNat_natCast, Finset.erase_insert (lowest_notMem fds)]

theorem card_opened (fds : Finset Nat) : (insert (lowest fds) fds).card = fds.card + 1 :=
  Finset.card_insert_of_notMem (lowest_notMem fds)

end BackupSoftware.Library.Descriptors

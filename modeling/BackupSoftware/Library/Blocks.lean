import Mathlib.Data.List.Induction
import Mathlib.Logic.Function.Iterate
import BackupSoftware.Library.Memory

/-!
# Buffers in blocks

A buffer at address `q` in blocks of `w` cells, of which block `k` starts at
`q + w * k`. A program fills blocks in any order, some of them perhaps twice; a block
that is always filled with the same cells holds them in the end.
-/

namespace BackupSoftware.Library.Blocks

open Memory

variable {α : Type} {w : Nat}

/-- The `w` cells at address `p`. -/
def block (w : Nat) (m : Nat → α) (p : Nat) : Vector α w := Vector.ofFn fun i => m (p + i)

/-- The memory after the cells were written at address `p`. -/
def put (m : Nat → α) (p : Nat) (b : Vector α w) : Nat → α := store m p b.toList

/-- The blocks of the list are filled in its order, block `k` with `f k`. -/
def fill (f : Nat → Vector α w) (q : Nat) (ks : List Nat) (m : Nat → α) : Nat → α :=
  ks.foldl (fun m k => put m (q + w * k) (f k)) m

/-- The blocks of the list are filled in its order, block `k` with `E` of block `k` at
`p` as it is by then. -/
def mapBlocks (E : Vector α w → Vector α w) (p q : Nat) (ks : List Nat) (m : Nat → α) : Nat → α :=
  ks.foldl (fun m k => put m (q + w * k) (E (block w m (p + w * k)))) m

@[simp] theorem getElem_block (m : Nat → α) (p : Nat) {i : Nat} (hi : i < w) :
    (block w m p)[i] = m (p + i) := by
  simp [block]

theorem block_congr {m m' : Nat → α} {p p' : Nat} (h : ∀ i, i < w → m (p + i) = m' (p' + i)) :
    block w m p = block w m' p' := by
  ext i hi
  simpa using h i hi

theorem put_inside (m : Nat → α) (p : Nat) (b : Vector α w) {i : Nat} (hi : i < w) :
    put m p b (p + i) = b[i] := by
  have hlen : i < b.toList.length := by rwa [Vector.length_toList]
  rw [put, store_inside m p b.toList hlen, Vector.getElem_toList]

theorem put_outside (m : Nat → α) (p : Nat) (b : Vector α w) {a : Nat}
    (ha : a < p ∨ p + w ≤ a) : put m p b a = m a :=
  store_outside m p b.toList (by simpa using ha)

theorem fill_append (f : Nat → Vector α w) (q : Nat) (ks ks' : List Nat) (m : Nat → α) :
    fill f q (ks ++ ks') m = fill f q ks' (fill f q ks m) := List.foldl_append

theorem fill_concat (f : Nat → Vector α w) (q : Nat) (ks : List Nat) (k : Nat) (m : Nat → α) :
    fill f q (ks ++ [k]) m = put (fill f q ks m) (q + w * k) (f k) := fill_append f q ks [k] m

theorem outside_of_ne {q j k i : Nat} (hne : j ≠ k) (hi : i < w) :
    q + w * j + i < q + w * k ∨ q + w * k + w ≤ q + w * j + i := by
  rcases Nat.lt_or_gt_of_ne hne with h | h
  · have : w * (j + 1) ≤ w * k := Nat.mul_le_mul_left w h
    rw [Nat.mul_add, Nat.mul_one] at this
    omega
  · have : w * (k + 1) ≤ w * j := Nat.mul_le_mul_left w h
    rw [Nat.mul_add, Nat.mul_one] at this
    omega

/-- A block that was filled holds what it was filled with, however often that was. -/
theorem fill_inside (f : Nat → Vector α w) (q : Nat) {ks : List Nat} (m : Nat → α) {j i : Nat}
    (hj : j ∈ ks) (hi : i < w) : fill f q ks m (q + w * j + i) = (f j)[i] := by
  induction ks using List.reverseRecOn with
  | nil => cases hj
  | append_singleton ks k ih =>
    rw [fill_concat]
    by_cases hjk : j = k
    · subst hjk
      exact put_inside _ _ _ hi
    · rw [put_outside _ _ _ (outside_of_ne hjk hi)]
      refine ih ?_
      rcases List.mem_append.mp hj with h | h
      · exact h
      · exact absurd (List.mem_singleton.mp h) hjk

/-- Outside the first `n` blocks nothing changes if only those are filled. -/
theorem fill_outside (f : Nat → Vector α w) {q n : Nat} {ks : List Nat} (hks : ∀ k ∈ ks, k < n)
    (m : Nat → α) {a : Nat} (ha : a < q ∨ q + w * n ≤ a) : fill f q ks m a = m a := by
  induction ks using List.reverseRecOn with
  | nil => rfl
  | append_singleton ks k ih =>
    have hk : w * (k + 1) ≤ w * n := Nat.mul_le_mul_left w (hks k (by simp))
    rw [Nat.mul_add, Nat.mul_one] at hk
    rw [fill_concat, put_outside _ _ _ (by omega)]
    exact ih fun k hk => hks k (List.mem_append_left _ hk)

theorem block_fill (f : Nat → Vector α w) (q : Nat) {ks : List Nat} (m : Nat → α) {j : Nat}
    (hj : j ∈ ks) : block w (fill f q ks m) (q + w * j) = f j := by
  ext i hi
  rw [getElem_block, fill_inside f q m hj hi]

theorem mapBlocks_append (E : Vector α w → Vector α w) (p q : Nat) (ks ks' : List Nat)
    (m : Nat → α) :
    mapBlocks E p q (ks ++ ks') m = mapBlocks E p q ks' (mapBlocks E p q ks m) :=
  List.foldl_append

/-- A source that the target does not overlap is read as it was at the start. -/
theorem mapBlocks_eq_fill (E : Vector α w → Vector α w) {p q n : Nat}
    (hdisjoint : p + w * n ≤ q ∨ q + w * n ≤ p) {ks : List Nat} (hks : ∀ k ∈ ks, k < n)
    (m : Nat → α) :
    mapBlocks E p q ks m = fill (fun k => E (block w m (p + w * k))) q ks m := by
  induction ks using List.reverseRecOn with
  | nil => rfl
  | append_singleton ks k ih =>
    have hinit : ∀ j ∈ ks, j < n := fun j hj => hks j (List.mem_append_left _ hj)
    have hk : w * (k + 1) ≤ w * n := Nat.mul_le_mul_left w (hks k (by simp))
    rw [Nat.mul_add, Nat.mul_one] at hk
    rw [mapBlocks_append, fill_concat, ih hinit]
    show put _ _ (E (block w _ (p + w * k))) = _
    congr 2
    apply block_congr
    intro i hi
    exact fill_outside _ hinit m (by omega)

/-- Outside the first `n` blocks of the target nothing changes, also where it overlaps the
source. -/
theorem mapBlocks_outside (E : Vector α w → Vector α w) (p : Nat) {q n : Nat} {ks : List Nat}
    (hks : ∀ k ∈ ks, k < n) (m : Nat → α) {a : Nat} (ha : a < q ∨ q + w * n ≤ a) :
    mapBlocks E p q ks m a = m a := by
  induction ks using List.reverseRecOn with
  | nil => rfl
  | append_singleton ks k ih =>
    have hk : w * (k + 1) ≤ w * n := Nat.mul_le_mul_left w (hks k (by simp))
    rw [Nat.mul_add, Nat.mul_one] at hk
    rw [mapBlocks_append]
    show put _ _ _ a = _
    rw [put_outside _ _ _ (by omega)]
    exact ih fun j hj => hks j (List.mem_append_left _ hj)

/-- In place, every block is mapped as often as it occurs in the list. -/
theorem block_mapBlocks_self (E : Vector α w → Vector α w) (p : Nat) (ks : List Nat)
    (m : Nat → α) (j : Nat) :
    block w (mapBlocks E p p ks m) (p + w * j) = E^[ks.count j] (block w m (p + w * j)) := by
  induction ks using List.reverseRecOn with
  | nil => rfl
  | append_singleton ks k ih =>
    rw [mapBlocks_append, List.count_append]
    show block w (put _ (p + w * k) _) (p + w * j) = _
    by_cases hjk : j = k
    · subst hjk
      rw [List.count_singleton_self, Function.iterate_succ_apply', ← ih]
      ext i hi
      rw [getElem_block, put_inside _ _ _ hi]
    · rw [List.count_singleton, if_neg (by simpa using Ne.symm hjk), Nat.add_zero, ← ih]
      apply block_congr
      intro i hi
      exact put_outside _ _ _ (outside_of_ne hjk hi)

theorem load_eq_of_blocks {m m' : Nat → α} {p p' n : Nat}
    (h : ∀ k, k < n → block w m (p + w * k) = block w m' (p' + w * k)) :
    load m p (w * n) = load m' p' (w * n) := by
  induction n with
  | zero => rfl
  | succ n ih =>
    have hinit := ih fun k hk => h k (Nat.lt_succ_of_lt hk)
    have hlast : load m (p + w * n) w = load m' (p' + w * n) w := by
      apply List.map_congr_left
      intro i hi
      have hi' : i < w := List.mem_range.mp hi
      have := congrArg (fun b : Vector α w => b[i]) (h n (Nat.lt_succ_self n))
      simpa using this
    rw [Nat.mul_succ, load_add, load_add, hinit, hlast]

theorem block_eq_of_load {m m' : Nat → α} {p p' n k : Nat}
    (h : load m p (w * n) = load m' p' (w * n)) (hk : k < n) :
    block w m (p + w * k) = block w m' (p' + w * k) := by
  have hle : w * (k + 1) ≤ w * n := Nat.mul_le_mul_left w hk
  rw [Nat.mul_add, Nat.mul_one] at hle
  apply block_congr
  intro i hi
  have hget := congrArg (fun l : List α => l[w * k + i]?) h
  simp only [getElem?_load _ _ (show w * k + i < w * n by omega), Option.some.injEq] at hget
  rw [Nat.add_assoc, Nat.add_assoc]
  exact hget

theorem load_eq_of_le {m m' : Nat → α} {p p' a b : Nat} (h : load m p b = load m' p' b)
    (hab : a ≤ b) : load m p a = load m' p' a := by
  obtain ⟨c, rfl⟩ := Nat.exists_eq_add_of_le hab
  rw [load_add, load_add] at h
  exact (List.append_inj h (by simp)).1

end BackupSoftware.Library.Blocks

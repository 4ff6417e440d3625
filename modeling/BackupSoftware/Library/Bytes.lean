import Mathlib.Data.List.Basic
import Mathlib.Tactic.Common

/-!
# Byte buffers: overlays, zero padding and a first-in first-out stream

Fixed-size buffers are vectors; a copy of a few bytes into a buffer is an
overlay. Lists are padded with zeros to whole groups of eight. The last part is
about a reader who takes a fixed number of items from a queue after each put.
-/

namespace BackupSoftware.Library.Bytes

variable {α : Type} {n m : Nat}

/-- The buffer `dst` with `src` copied over it from position `off` on. -/
def overlay (dst : Vector α n) (off : Nat) (src : Vector α m) : Vector α n :=
  Vector.ofFn fun j =>
    if h : off ≤ j.val ∧ j.val < off + m then src[j.val - off] else dst[j.val]

theorem overlay_inside (dst : Vector α n) (off : Nat) (src : Vector α m) {k : Nat} (hk : k < n)
    (h : off ≤ k ∧ k < off + m) : (overlay dst off src)[k] = src[k - off] := by
  simp [overlay, h]

theorem overlay_outside (dst : Vector α n) (off : Nat) (src : Vector α m) {k : Nat} (hk : k < n)
    (h : ¬ (off ≤ k ∧ k < off + m)) : (overlay dst off src)[k] = dst[k] := by
  simp only [overlay, Vector.getElem_ofFn, h, ↓reduceDIte]

/-- The list padded with zeros to a multiple of eight. -/
def zeroPad8 (l : List UInt8) : List UInt8 := l ++ List.replicate ((8 - l.length % 8) % 8) 0

theorem length_zeroPad8 (l : List UInt8) : (zeroPad8 l).length = 8 * ((l.length + 7) / 8) := by
  simp only [zeroPad8, List.length_append, List.length_replicate]
  omega

/-- Position `k` of the padded list reads the list, or zero past its end. -/
theorem getElem?_zeroPad8 (l : List UInt8) {k : Nat} (hk : k < 8 * ((l.length + 7) / 8)) :
    (zeroPad8 l)[k]? = some (l[k]?.getD 0) := by
  by_cases h : k < l.length
  · rw [zeroPad8, List.getElem?_append_left h, List.getElem?_eq_getElem h, Option.getD_some]
  · rw [zeroPad8, List.getElem?_append_right (by omega), List.getElem?_replicate,
      List.getElem?_eq_none (by omega : l.length ≤ k), if_pos (by omega), Option.getD_none]

/-- The list cut into groups of eight. -/
def groups8 : List UInt8 → List (List UInt8)
  | [] => []
  | a :: l => (a :: l).take 8 :: groups8 ((a :: l).drop 8)
termination_by l => l.length
decreasing_by simp only [List.length_drop, List.length_cons]; omega

theorem groups8_append {g l : List UInt8} (hg : g.length = 8) :
    groups8 (g ++ l) = g :: groups8 l := by
  cases g with
  | nil => cases hg
  | cons a g =>
    rw [List.cons_append, groups8, ← List.cons_append]
    rw [List.take_left' hg, List.drop_left' hg]

/-- Cutting the concatenation of groups of eight gives the groups back. -/
theorem groups8_flatten (gs : List (List UInt8)) (h : ∀ g ∈ gs, g.length = 8) :
    groups8 gs.flatten = gs := by
  induction gs with
  | nil => rw [List.flatten_nil, groups8]
  | cons g gs ih =>
    rw [List.flatten_cons, groups8_append (h g List.mem_cons_self),
      ih fun g' hg' => h g' (List.mem_cons_of_mem _ hg')]

/-- A list read in groups of eight is the concatenation of the groups. -/
theorem eq_flatten_groups {l : List α} {g : Nat → Vector α 8} {n : Nat} (hl : l.length = 8 * n)
    (h : ∀ k < 8 * n, l[k]? = some (g (k / 8))[k % 8]) :
    l = ((List.range n).map fun j => (g j).toList).flatten := by
  induction n generalizing l with
  | zero => exact List.eq_nil_of_length_eq_zero hl
  | succ n ih =>
    have hfirst : l.take (8 * n) = ((List.range n).map fun j => (g j).toList).flatten := by
      apply ih
      · rw [List.length_take]
        omega
      · intro k hk
        rw [List.getElem?_take_of_lt hk, h k (by omega)]
    have hlast : l.drop (8 * n) = (g n).toList := by
      apply List.ext_getElem?
      intro i
      by_cases hi : i < 8
      · have hdiv : (8 * n + i) / 8 = n := by omega
        have hmod : (8 * n + i) % 8 = i := by omega
        rw [List.getElem?_drop, h (8 * n + i) (by omega),
          List.getElem?_eq_getElem (by simpa using hi), Vector.getElem_toList]
        simp only [hdiv, hmod]
      · rw [List.getElem?_eq_none (by rw [List.length_drop]; omega),
          List.getElem?_eq_none (by simpa using hi)]
    rw [List.range_succ, List.map_append, List.flatten_append, ← hfirst, List.map_singleton,
      List.flatten_singleton, ← hlast, List.take_append_drop]

/-- What a reader gets who takes `L` items after each of the puts `ps`, when each
put is followed by `fill` and the queue holds `held` at the start. -/
def portions (L : Nat) (fill : List α) : List α → List (List α) → List (List α)
  | _, [] => []
  | held, p :: ps =>
      (held ++ (p ++ fill)).take L :: portions L fill ((held ++ (p ++ fill)).drop L) ps

/-- Without fill every portion is the item put before it. -/
theorem portions_exact {L : Nat} {ps : List (List α)} (hp : ∀ p ∈ ps, p.length = L) :
    portions L [] [] ps = ps := by
  induction ps with
  | nil => rfl
  | cons p ps ih =>
    have hl : p.length = L := hp p List.mem_cons_self
    simp only [portions, List.nil_append, List.append_nil]
    rw [List.take_of_length_le (Nat.le_of_eq hl), List.drop_of_length_le (Nat.le_of_eq hl),
      ih fun q hq => hp q (List.mem_cons_of_mem _ hq)]

/-- A list that is its own prefix shifted by a positive number of `z` is all `z`. -/
theorem eq_replicate_of_shift {z : α} {d : Nat} (hd : 0 < d) {p : List α} {L : Nat}
    (hp : p.length = L) {fill : List α}
    (h : (List.replicate d z ++ (p ++ fill)).take L = p) : p = List.replicate L z := by
  have hz : ∀ k, ∀ hk : k < p.length, p[k] = z := by
    intro k
    induction k using Nat.strongRecOn with
    | ind k ih =>
      intro hk
      have hget : p[k]? = (List.replicate d z ++ (p ++ fill))[k]? := by
        conv_lhs => rw [← h]
        exact List.getElem?_take_of_lt (by omega)
      rw [List.getElem?_eq_getElem hk] at hget
      by_cases hkd : k < d
      · rw [List.getElem?_append_left (by simpa using hkd), List.getElem?_replicate,
          if_pos hkd] at hget
        exact Option.some.inj hget
      · rw [List.getElem?_append_right (by simpa using hkd), List.length_replicate,
          List.getElem?_append_left (by omega), List.getElem?_eq_getElem (by omega)] at hget
        rw [Option.some.inj hget]
        exact ih (k - d) (by omega) (by omega)
  rw [← hp]
  exact List.eq_replicate_iff.mpr ⟨rfl, fun b hb => by
    obtain ⟨k, hk, rfl⟩ := List.mem_iff_getElem.mp hb
    exact hz k hk⟩

/-- A reader who starts behind by a positive number of fill items gets the items
put only if they are fill themselves. -/
theorem portions_shifted_iff {z : α} {L f : Nat} {ps : List (List α)}
    (hp : ∀ p ∈ ps, p.length = L) {d : Nat} (hd : 0 < d) :
    portions L (List.replicate f z) (List.replicate d z) ps = ps ↔
      ∀ p ∈ ps, p = List.replicate L z := by
  induction ps generalizing d with
  | nil => simp [portions]
  | cons p ps ih =>
    have hl : p.length = L := hp p List.mem_cons_self
    have htail : ∀ q ∈ ps, q.length = L := fun q hq => hp q (List.mem_cons_of_mem _ hq)
    rw [portions, List.cons.injEq]
    have hheld : p = List.replicate L z →
        (List.replicate d z ++ (p ++ List.replicate f z)).drop L = List.replicate (d + f) z := by
      intro hp0
      rw [hp0]
      rw [← List.replicate_add, ← List.replicate_add, List.drop_replicate]
      congr 1
      omega
    constructor
    · intro hall
      obtain ⟨hfirst, hrest⟩ := hall
      have hz := eq_replicate_of_shift hd hl hfirst
      rw [hheld hz] at hrest
      intro q hq
      rcases List.mem_cons.mp hq with rfl | hq
      · exact hz
      · exact (ih htail (by omega)).mp hrest q hq
    · intro h
      have hz := h p List.mem_cons_self
      refine ⟨?_, ?_⟩
      · rw [hz, ← List.replicate_add, ← List.replicate_add, List.take_replicate]
        congr 1
        omega
      · rw [hheld hz]
        exact (ih htail (by omega)).mpr fun q hq => h q (List.mem_cons_of_mem _ hq)

/-- With fill after each put, the reader who starts in step stays in step exactly
when every item after the first is fill. -/
theorem portions_fill_iff {z : α} {L f : Nat} (hf : 0 < f) {ps : List (List α)}
    (hp : ∀ p ∈ ps, p.length = L) :
    portions L (List.replicate f z) [] ps = ps ↔ ∀ p ∈ ps.tail, p = List.replicate L z := by
  cases ps with
  | nil => simp [portions]
  | cons p ps =>
    have hl : p.length = L := hp p List.mem_cons_self
    rw [portions, List.nil_append, List.take_left' hl, List.drop_left' hl, List.cons.injEq,
      List.tail_cons, portions_shifted_iff (fun q hq => hp q (List.mem_cons_of_mem _ hq)) hf]
    exact ⟨fun h => h.2, fun h => ⟨rfl, h⟩⟩

end BackupSoftware.Library.Bytes

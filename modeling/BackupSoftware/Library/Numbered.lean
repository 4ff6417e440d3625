import Mathlib.Data.List.Basic
import Mathlib.Tactic.Common

/-!
# Groups written one after another, each item with the number of its group

Losing items keeps their order, so between two items of one group that survive
there are only items of that group.
-/

namespace BackupSoftware.Library.Numbered

variable {α : Type}

/-- The items of the groups in order, each with its group's number, from `k` on. -/
def numberFrom : Nat → List (List α) → List (Nat × α)
  | _, [] => []
  | k, g :: gs => g.map (fun a => (k, a)) ++ numberFrom (k + 1) gs

theorem le_of_mem_numberFrom {k : Nat} {gs : List (List α)} {p : Nat × α}
    (h : p ∈ numberFrom k gs) : k ≤ p.1 := by
  induction gs generalizing k with
  | nil => cases h
  | cons g gs ih =>
    rcases List.mem_append.mp h with h | h
    · obtain ⟨a, -, rfl⟩ := List.mem_map.mp h
      exact Nat.le_refl k
    · have := ih h
      omega

theorem pairwise_numberFrom (k : Nat) (gs : List (List α)) :
    (numberFrom k gs).Pairwise fun p q => p.1 ≤ q.1 := by
  induction gs generalizing k with
  | nil => exact List.Pairwise.nil
  | cons g gs ih =>
    refine List.pairwise_append.mpr ⟨?_, ih (k + 1), ?_⟩
    · exact List.pairwise_map.mpr (List.pairwise_of_forall fun _ _ => Nat.le_refl k)
    · intro p hp q hq
      obtain ⟨a, -, rfl⟩ := List.mem_map.mp hp
      have := le_of_mem_numberFrom hq
      exact Nat.le_of_succ_le this

/-- The items with the number of one of them are the items of one group. -/
theorem filter_numberFrom {k : Nat} {gs : List (List α)} {p : Nat × α}
    (h : p ∈ numberFrom k gs) :
    ∃ g ∈ gs, (numberFrom k gs).filter (fun q => q.1 = p.1) = g.map fun a => (p.1, a) := by
  induction gs generalizing k with
  | nil => cases h
  | cons g gs ih =>
    rcases List.mem_append.mp h with h | h
    · obtain ⟨a, -, rfl⟩ := List.mem_map.mp h
      refine ⟨g, List.mem_cons_self, ?_⟩
      have hrest : (numberFrom (k + 1) gs).filter (fun q => q.1 = k) = [] := by
        rw [List.filter_eq_nil_iff]
        intro q hq
        have := le_of_mem_numberFrom hq
        simp only [decide_eq_true_eq]
        omega
      rw [numberFrom, List.filter_append, hrest, List.append_nil, List.filter_eq_self]
      intro q hq
      obtain ⟨b, -, rfl⟩ := List.mem_map.mp hq
      exact decide_eq_true rfl
    · obtain ⟨g', hg', heq⟩ := ih h
      refine ⟨g', List.mem_cons_of_mem _ hg', ?_⟩
      have hlt := le_of_mem_numberFrom h
      have hfirst : (g.map fun a => (k, a)).filter (fun q => q.1 = p.1) = [] := by
        rw [List.filter_eq_nil_iff]
        intro q hq
        obtain ⟨b, -, rfl⟩ := List.mem_map.mp hq
        simp only [decide_eq_true_eq]
        omega
      rw [numberFrom, List.filter_append, hfirst, List.nil_append, heq]

/-- What survives from an item to a later item of the same group is part of that
group, and all of the group was written. -/
theorem segment_sublist {n k : Nat} {gs : List (List α)} {a c : α} {b : List (Nat × α)}
    (h : ((k, a) :: (b ++ [(k, c)])).Sublist (numberFrom n gs)) :
    ∃ g ∈ gs, (a :: (b.map Prod.snd ++ [c])).Sublist g ∧ ∀ x ∈ g, (k, x) ∈ numberFrom n gs := by
  obtain ⟨g, hg, hfilter⟩ := filter_numberFrom (h.subset List.mem_cons_self)
  have hpair := (pairwise_numberFrom n gs).sublist h
  obtain ⟨hfirst, hrest⟩ := List.pairwise_cons.mp hpair
  obtain ⟨-, -, hlast⟩ := List.pairwise_append.mp hrest
  have hnumber : ∀ q ∈ (k, a) :: (b ++ [(k, c)]), q.1 = k := by
    intro q hq
    rcases List.mem_cons.mp hq with rfl | hq
    · rfl
    · have hle := hfirst q hq
      rcases List.mem_append.mp hq with hb | hc
      · exact Nat.le_antisymm (hlast q hb (k, c) List.mem_cons_self) hle
      · rw [List.mem_singleton.mp hc]
  have hsub := h.filter fun q => decide (q.1 = k)
  rw [List.filter_eq_self.mpr fun q hq => decide_eq_true (hnumber q hq), hfilter] at hsub
  refine ⟨g, hg, ?_, ?_⟩
  · have := hsub.map Prod.snd
    simpa [List.map_map, Function.comp_def] using this
  · intro x hx
    have hmem : (k, x) ∈ (numberFrom n gs).filter fun q => q.1 = k := by
      rw [hfilter]
      exact List.mem_map.mpr ⟨x, hx, rfl⟩
    exact (List.mem_filter.mp hmem).1

theorem mem_numberFrom {k : Nat} {gs : List (List α)} {p : Nat × α} (h : p ∈ numberFrom k gs) :
    ∃ g ∈ gs, p.2 ∈ g := by
  obtain ⟨g, hg, hfilter⟩ := filter_numberFrom h
  refine ⟨g, hg, ?_⟩
  have hmem : p ∈ (numberFrom k gs).filter fun q => q.1 = p.1 :=
    List.mem_filter.mpr ⟨h, decide_eq_true rfl⟩
  rw [hfilter] at hmem
  obtain ⟨a, ha, heq⟩ := List.mem_map.mp hmem
  rw [← heq]
  exact ha

/-- A list with an element that satisfies `p` splits at the last one. -/
theorem exists_last {p : α → Prop} {l : List α} (h : ∃ x ∈ l, p x) :
    ∃ a x b, l = a ++ x :: b ∧ p x ∧ ∀ y ∈ b, ¬ p y := by
  induction l with
  | nil => obtain ⟨x, hx, -⟩ := h; cases hx
  | cons y l ih =>
    by_cases hl : ∃ x ∈ l, p x
    · obtain ⟨a, x, b, rfl, hx, hb⟩ := ih hl
      exact ⟨y :: a, x, b, rfl, hx, hb⟩
    · obtain ⟨x, hx, hp⟩ := h
      rcases List.mem_cons.mp hx with rfl | hx
      · exact ⟨[], x, l, rfl, hp, fun z hz hpz => hl ⟨z, hz, hpz⟩⟩
      · exact absurd ⟨x, hx, hp⟩ hl

end BackupSoftware.Library.Numbered

import Mathlib.Data.List.GetD
import Mathlib.Data.List.TakeDrop
import Mathlib.Tactic.Common

/-!
# Cyclic redundancy checks, bit by bit

A register is shifted to the left by one place for each bit of the message, and a
polynomial is added to it if the bit that left the register differs from that of the
message. A step is linear, and if the polynomial has a constant term then the register
and the bits of a run of at most its width can be told from a result of zero.
-/

namespace BackupSoftware.Library.Crc

variable {w : Nat}

def step (p r : BitVec w) (b : Bool) : BitVec w :=
  if (b ^^ r.msb) = true then r <<< 1 ^^^ p else r <<< 1

def run (p r : BitVec w) (bits : List Bool) : BitVec w := bits.foldl (step p) r

theorem run_cons (p r : BitVec w) (b : Bool) (bits : List Bool) :
    run p r (b :: bits) = run p (step p r b) bits := rfl

theorem run_append (p r : BitVec w) (bits bits' : List Bool) :
    run p r (bits ++ bits') = run p (run p r bits) bits' :=
  List.foldl_append

theorem step_xor (p r r' : BitVec w) (b b' : Bool) :
    step p (r ^^^ r') (b ^^ b') = step p r b ^^^ step p r' b' := by
  have hmsb : ((b ^^ b') ^^ (r ^^^ r').msb) = ((b ^^ r.msb) ^^ (b' ^^ r'.msb)) := by
    rw [BitVec.msb_xor]
    cases b <;> cases b' <;> cases r.msb <;> cases r'.msb <;> rfl
  unfold step
  rw [hmsb, BitVec.shiftLeft_xor_distrib]
  cases b ^^ r.msb <;> cases b' ^^ r'.msb
  · rfl
  · exact BitVec.xor_assoc _ _ _
  · show r <<< 1 ^^^ r' <<< 1 ^^^ p = r <<< 1 ^^^ p ^^^ r' <<< 1
    rw [BitVec.xor_assoc, BitVec.xor_assoc, BitVec.xor_comm p]
  · show r <<< 1 ^^^ r' <<< 1 = (r <<< 1 ^^^ p) ^^^ (r' <<< 1 ^^^ p)
    rw [BitVec.xor_assoc, ← BitVec.xor_assoc p, BitVec.xor_comm p, BitVec.xor_assoc (r' <<< 1),
      BitVec.xor_self, BitVec.xor_zero]

/-- The results of two messages differ by the result of their difference. -/
theorem run_xor (p r r' : BitVec w) {bits bits' : List Bool}
    (hlen : bits.length = bits'.length) :
    run p (r ^^^ r') (bits.zipWith Bool.xor bits') = run p r bits ^^^ run p r' bits' := by
  induction bits generalizing r r' bits' with
  | nil =>
    cases bits' with
    | nil => rfl
    | cons b' bits' => cases hlen
  | cons b bits ih =>
    cases bits' with
    | nil => cases hlen
    | cons b' bits' =>
      rw [List.zipWith_cons_cons, run_cons, run_cons, run_cons, step_xor]
      exact ih _ _ (Nat.succ.inj hlen)

theorem run_false (p : BitVec w) {bits : List Bool} (h : ∀ b ∈ bits, b = false) :
    run p 0 bits = 0 := by
  induction bits with
  | nil => rfl
  | cons b bits ih =>
    rw [List.forall_mem_cons] at h
    have hstep : step p 0 b = 0 := by
      rw [h.1]
      simp [step]
    rw [run_cons, hstep, ih h.2]

/-- The lowest bit of the register tells whether the polynomial was added. -/
theorem getLsbD_step {p : BitVec w} (hp : p.getLsbD 0 = true) (r : BitVec w) (b : Bool) :
    (step p r b).getLsbD 0 = (b ^^ r.msb) := by
  unfold step
  split
  · next h =>
    rw [h, BitVec.getLsbD_xor, hp, BitVec.getLsbD_shiftLeft]
    simp
  · next h =>
    rw [Bool.not_eq_true] at h
    rw [h, BitVec.getLsbD_shiftLeft]
    simp

/-- A run of at most `w` bits that ends in zero: the bits were the upper bits of the register, and
its other bits were zero. -/
theorem getMsbD_of_run_eq_zero {p : BitVec w} (hp : p.getLsbD 0 = true) {r : BitVec w}
    {bits : List Bool} (hlen : bits.length ≤ w) (h : run p r bits = 0) {i : Nat} (hi : i < w) :
    r.getMsbD i = bits.getD i false := by
  induction bits generalizing r i with
  | nil =>
    rw [show r = 0 from h]
    simp
  | cons b bits ih =>
    rw [List.length_cons] at hlen
    have hnext (j : Nat) (hj : j < w) := ih (by omega) h hj
    have hlow := hnext (w - 1) (by omega)
    rw [BitVec.getMsbD_eq_getLsbD, Nat.sub_self, decide_eq_true (by omega), Bool.true_and,
      getLsbD_step hp, List.getD_eq_default _ _ (by omega)] at hlow
    have hshift : step p r b = r <<< 1 := by
      rw [step, hlow]
      rfl
    cases i with
    | zero =>
      have hb : b = r.msb := by simpa using hlow
      exact hb.symm
    | succ i =>
      have hbit := hnext i (by omega)
      rw [hshift, BitVec.getMsbD_shiftLeft] at hbit
      rw [List.getD_cons_succ, ← hbit]

theorem eq_zero_of_run_false {p : BitVec w} (hp : p.getLsbD 0 = true) {r : BitVec w}
    {bits : List Bool} (hbits : ∀ b ∈ bits, b = false) (h : run p r bits = 0) : r = 0 := by
  induction bits generalizing r with
  | nil => exact h
  | cons b bits ih =>
    rw [List.forall_mem_cons] at hbits
    have hstep : run p r [b] = 0 := ih hbits.2 h
    apply BitVec.eq_of_getMsbD_eq
    intro i hi
    rw [getMsbD_of_run_eq_zero hp (show [b].length ≤ w by rw [List.length_singleton]; omega) hstep hi,
      hbits.1]
    cases i <;> simp

/-- A message whose ones lie within `w` places does not have the result zero. -/
theorem eq_false_of_run_eq_zero {p : BitVec w} (hp : p.getLsbD 0 = true) {bits : List Bool} {k : Nat}
    (hburst : ∀ i, bits.getD i false = true → k ≤ i ∧ i < k + w) (h : run p 0 bits = 0) :
    ∀ i, bits.getD i false = false := by
  have hsplit : bits.take k ++ ((bits.drop k).take w ++ (bits.drop k).drop w) = bits := by
    rw [List.take_append_drop, List.take_append_drop]
  have hbefore : ∀ b ∈ bits.take k, b = false := by
    intro b hb
    obtain ⟨i, hi, rfl⟩ := List.getElem_of_mem hb
    rw [List.length_take] at hi
    rw [List.getElem_take, ← List.getD_eq_getElem bits false, ← Bool.not_eq_true]
    intro hone
    have := hburst i hone
    omega
  have hbehind : ∀ b ∈ (bits.drop k).drop w, b = false := by
    intro b hb
    obtain ⟨i, hi, rfl⟩ := List.getElem_of_mem hb
    rw [List.drop_drop, List.length_drop] at hi
    simp only [List.drop_drop, List.getElem_drop]
    rw [← List.getD_eq_getElem bits false, ← Bool.not_eq_true]
    intro hone
    have := hburst _ hone
    omega
  rw [← hsplit, run_append, run_append, run_false p hbefore] at h
  have hmiddle := eq_zero_of_run_false hp hbehind h
  intro i
  by_contra hone
  rw [Bool.not_eq_false] at hone
  obtain ⟨hk, hw⟩ := hburst i hone
  have hbit := getMsbD_of_run_eq_zero hp (List.length_take_le w _) hmiddle
    (show i - k < w by omega)
  rw [List.getD_eq_getElem?_getD, List.getElem?_take_of_lt (by omega), List.getElem?_drop,
    ← List.getD_eq_getElem?_getD, show k + (i - k) = i by omega, hone] at hbit
  simp at hbit

/-- Two messages of one length that differ, but only within `w` places, have different results. -/
theorem run_ne_of_burst {p : BitVec w} (hp : p.getLsbD 0 = true) (r : BitVec w)
    {bits bits' : List Bool} (hlen : bits.length = bits'.length) (hne : bits ≠ bits') {k : Nat}
    (hburst : ∀ i, bits.getD i false ≠ bits'.getD i false → k ≤ i ∧ i < k + w) :
    run p r bits ≠ run p r bits' := by
  intro heq
  have hxor := run_xor p r r hlen
  rw [heq, BitVec.xor_self, BitVec.xor_self] at hxor
  have hbit (i : Nat) : (bits.zipWith Bool.xor bits').getD i false =
      (bits.getD i false ^^ bits'.getD i false) := by
    by_cases hi : i < bits.length
    · rw [List.getD_eq_getElem _ _ (by rw [List.length_zipWith]; omega), List.getElem_zipWith,
        List.getD_eq_getElem _ _ hi, List.getD_eq_getElem _ _ (hlen ▸ hi)]
    · rw [List.getD_eq_default _ _ (by rw [List.length_zipWith]; omega),
        List.getD_eq_default _ _ (by omega), List.getD_eq_default _ _ (by omega)]
      rfl
  have hzero := eq_false_of_run_eq_zero hp (k := k) (fun i hi => hburst i (by
    rw [hbit] at hi
    intro hsame
    rw [hsame, Bool.xor_self] at hi
    cases hi)) hxor
  refine hne (List.ext_getElem hlen fun i hi hi' => ?_)
  have hsame := hzero i
  rw [hbit, List.getD_eq_getElem _ _ hi, List.getD_eq_getElem _ _ hi'] at hsame
  simpa using hsame

end BackupSoftware.Library.Crc

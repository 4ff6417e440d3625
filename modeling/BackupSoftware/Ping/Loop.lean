import BackupSoftware.Ping.Status

/-!
# When the sending loop ends

A request that `sendto` refuses is counted in `uiSendPktNum`, and the `continue` behind it
leaves `ucEchoNum` as it was. The loop therefore ends with its fourth success and not with
its fourth request.
-/

namespace BackupSoftware.Ping

def Attempt.isSent : Attempt → Bool
  | .sendFailed => false
  | .sent _ => true

/-- The first `k` turns of an endless sequence of them. -/
def turns (attempts : Nat → Attempt) (k : Nat) : List Attempt := (List.range k).map attempts

theorem length_turns (attempts : Nat → Attempt) (k : Nat) : (turns attempts k).length = k := by
  simp [turns]

theorem sendIcmp_isSome_iff (pid : Nat) (attempts : List Attempt) (ucEchoNum : Nat)
    (info : IcmpStatic) :
    (sendIcmp pid attempts ucEchoNum info).isSome ↔
      icmpEchoMax ≤ ucEchoNum + attempts.countP Attempt.isSent := by
  induction attempts generalizing ucEchoNum info with
  | nil =>
    rw [sendIcmp]
    split
    · simp only [Option.isSome_none, Bool.false_eq_true, List.countP_nil, Nat.add_zero, false_iff]
      omega
    · simp only [Option.isSome_some, List.countP_nil, Nat.add_zero, true_iff]
      omega
  | cons attempt rest ih =>
    rw [sendIcmp]
    by_cases hmax : icmpEchoMax > ucEchoNum
    · rw [if_pos hmax, List.countP_cons]
      cases attempt with
      | sendFailed =>
        simp only [Attempt.isSent, Bool.false_eq_true, ↓reduceIte, Nat.add_zero]
        exact ih ucEchoNum _
      | sent result =>
        simp only [Attempt.isSent, ↓reduceIte]
        rw [ih (ucEchoNum + 1), Nat.add_assoc, Nat.add_comm 1]
    · rw [if_neg hmax]
      simp only [Option.isSome_some, true_iff]
      omega

theorem returns_iff (pid : Nat) (attempts : List Attempt) (info : IcmpStatic) :
    (∃ after, sendIcmp pid attempts 0 info = some after) ↔
      icmpEchoMax ≤ attempts.countP Attempt.isSent := by
  rw [← Option.isSome_iff_exists, sendIcmp_isSome_iff, Nat.zero_add]

/-- Turns that were all sent have a list of answers. -/
theorem exists_results {attempts : List Attempt} (h : ∀ a ∈ attempts, a.isSent) :
    ∃ results : List RecvResult, attempts = results.map .sent := by
  induction attempts with
  | nil => exact ⟨[], rfl⟩
  | cons attempt rest ih =>
    obtain ⟨results, rfl⟩ := ih fun a ha => h a (List.mem_cons_of_mem _ ha)
    cases attempt with
    | sendFailed => exact absurd (h .sendFailed (List.mem_cons_self ..)) Bool.false_ne_true
    | sent result => exact ⟨result :: results, rfl⟩

theorem forall_turns_iff (attempts : Nat → Attempt) (k : Nat) :
    (∀ a ∈ turns attempts k, a.isSent) ↔ ∀ i < k, (attempts i).isSent := by
  simp [turns]

/-- The loop ends where four requests are sent at some time, and ends with four requests where
these are the first four. -/
theorem ping_loop_ends_iff (pid : Nat) (attempts : Nat → Attempt) (info : IcmpStatic) :
    ((∃ k after, sendIcmp pid (turns attempts k) 0 info = some after) ↔
      ∃ k, icmpEchoMax ≤ (turns attempts k).countP Attempt.isSent) ∧
    ((∃ k ≤ icmpEchoMax, ∃ after, sendIcmp pid (turns attempts k) 0 info = some after ∧
        after.uiSendPktNum = info.uiSendPktNum + UInt32.ofNat k) ↔
      ∀ i < icmpEchoMax, (attempts i).isSent) := by
  constructor
  · simp only [returns_iff]
  constructor
  · intro h
    obtain ⟨k, hk, after, hreturns, -⟩ := h
    have hsent := (returns_iff pid (turns attempts k) info).mp ⟨after, hreturns⟩
    have hcount := List.countP_le_length (p := Attempt.isSent) (l := turns attempts k)
    rw [length_turns] at hcount
    obtain rfl : k = icmpEchoMax := by omega
    rw [← forall_turns_iff, ← List.countP_eq_length, length_turns]
    omega
  · intro h
    obtain ⟨results, hresults⟩ := exists_results ((forall_turns_iff attempts icmpEchoMax).mpr h)
    have hlen : results.length = icmpEchoMax := by
      rw [← length_turns attempts icmpEchoMax, hresults, List.length_map]
    have hcounts := sendIcmp_counts pid results 0 info (by omega)
    rw [← hresults, hlen] at hcounts
    exact ⟨icmpEchoMax, Nat.le_refl _, _, hcounts, rfl⟩

/-- An interface that stays down: every request is refused, and the loop goes on for ever. -/
theorem ping_loop_runs_on :
    ¬ ∃ k after, sendIcmp 0 (turns (fun _ => .sendFailed) k) 0 ⟨0, 0⟩ = some after := by
  intro h
  obtain ⟨k, hreturns⟩ := h
  have hsent := (returns_iff 0 _ _).mp hreturns
  have hnone : (turns (fun _ => .sendFailed) k).countP Attempt.isSent = 0 := by
    simp [turns, Attempt.isSent]
  rw [hnone] at hsent
  exact absurd hsent (by decide)

end BackupSoftware.Ping

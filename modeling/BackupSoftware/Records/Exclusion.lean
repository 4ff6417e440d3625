import BackupSoftware.Records.Handles

/-!
# When the handles exclude each other

Along every run in which no create gets another set than the handles that are there,
no create sets the value while a handle is inside, no wait for an existing semaphore is
interrupted, and no handle is destroyed while it is inside, at most one handle is inside.
The invariant is kept by the removal of a set, by a change of the value, and by the change
of one handle; every step is made of these.
-/

namespace BackupSoftware.Records

open BackupSoftware.Library.SemaphoreSets BackupSoftware.Library.Trace

variable {κ : Type}

/-- The handles whose sets exist have the same set, its value is at most 1 once it is
initialized, and 0 while a handle is inside; what was refused has lost its set. -/
structure Safe (s : System κ) : Prop where
  known : ∀ h i, (s.handle h).semId = some i → i < s.sets.next
  shared : ∀ h h' a a', s.semSet h = some a → s.semSet h' = some a' →
    (s.handle h).semId = (s.handle h').semId
  value : ∀ h a, (s.handle h).phase = .initialized ∨ (s.handle h).phase = .ready →
    s.semSet h = some a → a.val ≤ 1 ∧ ((∃ h', 0 < (s.handle h').entered) → a.val = 0)
  single : Exclusive s
  once : ∀ h, (s.handle h).entered ≤ 1
  busy : ∀ h, 0 < (s.handle h).entered → (s.handle h).phase = .ready
  refused : ∀ h, 0 < (s.handle h).refused → s.semSet h = none

theorem safe_initial (sets : Sets κ) : Safe (System.initial sets) where
  known := fun _ _ h => by cases h
  shared := fun _ _ _ _ h => by cases h
  value := fun _ _ h => by rcases h with h | h <;> cases h
  single := fun _ _ h => absurd h (Nat.lt_irrefl 0)
  once := fun _ => Nat.zero_le 1
  busy := fun _ h => absurd h (Nat.lt_irrefl 0)
  refused := fun _ _ => rfl

/-- What holds of the changed handle and of the other ones. -/
theorem forall_withHandle {s : System κ} {h : Nat} {x : Handle} {P : Nat → Handle → Prop}
    (hx : P h x) (hrest : ∀ h', h' ≠ h → P h' (s.handle h')) (h' : Nat) :
    P h' ((s.withHandle h x).handle h') := by
  by_cases hne : h' = h
  · subst hne
    rw [handle_withHandle_same]
    exact hx
  · rw [handle_withHandle_ne s hne]
    exact hrest h' hne

theorem semSet_withHandle_ne (s : System κ) {h h' : Nat} (hne : h' ≠ h) (x : Handle) :
    (s.withHandle h x).semSet h' = s.semSet h' := by
  rw [System.semSet, handle_withHandle_ne s hne]
  rfl

/-- A handle that keeps its identifier keeps its set. -/
theorem semSet_withHandle {s : System κ} {h : Nat} {x : Handle}
    (hx : x.semId = (s.handle h).semId) (h' : Nat) :
    (s.withHandle h x).semSet h' = s.semSet h' := by
  by_cases hne : h' = h
  · subst hne
    rw [System.semSet, handle_withHandle_same, hx]
    rfl
  · exact semSet_withHandle_ne s hne x

theorem semId_withHandle {s : System κ} {h : Nat} {x : Handle}
    (hx : x.semId = (s.handle h).semId) (h' : Nat) :
    ((s.withHandle h x).handle h').semId = (s.handle h').semId := by
  by_cases hne : h' = h
  · subst hne
    rw [handle_withHandle_same, hx]
  · rw [handle_withHandle_ne s hne]

/-- The sets change, and no handle gets one that it had not: the value of a set stays as it
was, or nobody is inside and it is at most 1. -/
theorem safe_sets {s s' : System κ} (hs : Safe s) (hhandle : s'.handle = s.handle)
    (hnext : s.sets.next ≤ s'.sets.next)
    (hold : ∀ h a, s'.semSet h = some a → ∃ b, s.semSet h = some b ∧ (a.val = b.val ∨
      (∀ h', (s.handle h').entered = 0) ∧
        ((s.handle h).phase = .initialized ∨ (s.handle h).phase = .ready → a.val ≤ 1))) :
    Safe s' where
  known := by
    intro h i hi
    rw [hhandle] at hi
    exact Nat.lt_of_lt_of_le (hs.known h i hi) hnext
  shared := by
    intro h h' a a' ha ha'
    obtain ⟨b, hb, -⟩ := hold h a ha
    obtain ⟨b', hb', -⟩ := hold h' a' ha'
    rw [hhandle]
    exact hs.shared h h' b b' hb hb'
  value := by
    intro h a hphase ha
    rw [hhandle] at hphase ⊢
    obtain ⟨b, hb, hval | ⟨hnobody, hle⟩⟩ := hold h a ha
    · rw [hval]
      exact hs.value h b hphase hb
    · refine ⟨hle hphase, fun hsome => ?_⟩
      obtain ⟨h', hpos⟩ := hsome
      rw [hnobody h'] at hpos
      cases hpos
  single := by
    intro h h'
    rw [hhandle]
    exact hs.single h h'
  once := by
    rw [hhandle]
    exact hs.once
  busy := by
    rw [hhandle]
    exact hs.busy
  refused := by
    intro h hpos
    rw [hhandle] at hpos
    cases ha : s'.semSet h with
    | none => rfl
    | some a =>
      obtain ⟨b, hb, -⟩ := hold h a ha
      rw [hs.refused h hpos] at hb
      cases hb

theorem semSet_rmid_some {s : System κ} {semId : Option Nat} {h : Nat} {a : SemSet κ}
    (ha : (s.rmid semId).semSet h = some a) : s.semSet h = some a := by
  cases semId with
  | none => exact ha
  | some i =>
    obtain ⟨j, hj, hset⟩ := Option.bind_eq_some_iff.mp ha
    exact Option.bind_eq_some_iff.mpr ⟨j, hj, Sets.set_remove_some hset⟩

/-- A set that is removed takes its handles out of the game; nobody gets in by it. -/
theorem safe_rmid {s : System κ} (hs : Safe s) (semId : Option Nat) : Safe (s.rmid semId) := by
  refine safe_sets hs ?_ ?_ fun h a ha => ⟨a, semSet_rmid_some ha, Or.inl rfl⟩
  · cases semId <;> rfl
  · cases semId <;> exact Nat.le_refl _

@[simp] theorem handle_change (s : System κ) (semId : Option Nat) (f : Nat → Nat) :
    (s.change semId f).handle = s.handle := by
  cases semId <;> rfl

theorem semSet_change_some {s : System κ} {semId : Option Nat} {f : Nat → Nat} {h : Nat}
    {a : SemSet κ} (ha : (s.change semId f).semSet h = some a) :
    ∃ b, s.semSet h = some b ∧
      a.val = if (s.handle h).semId = semId then f b.val else b.val := by
  cases semId with
  | none =>
    obtain ⟨j, hj, -⟩ := Option.bind_eq_some_iff.mp ha
    have hj' : (s.handle h).semId = some j := hj
    exact ⟨a, ha, by rw [hj']; rfl⟩
  | some i =>
    obtain ⟨j, hj, hset⟩ := Option.bind_eq_some_iff.mp ha
    have hj' : (s.handle h).semId = some j := hj
    obtain ⟨b, hb, hval⟩ := Sets.set_change_some hset
    refine ⟨b, Option.bind_eq_some_iff.mpr ⟨j, hj', hb⟩, ?_⟩
    rw [hval, hj']
    simp only [Option.some.injEq]

/-- While nobody is inside, the value may become 0 or 1. -/
theorem safe_change {s : System κ} (hs : Safe s) (semId : Option Nat) (f : Nat → Nat)
    (hf : ∀ h a, s.semSet h = some a → (s.handle h).semId = semId →
      (∀ h', (s.handle h').entered = 0) ∧
        ((s.handle h).phase = .initialized ∨ (s.handle h).phase = .ready → f a.val ≤ 1)) :
    Safe (s.change semId f) := by
  refine safe_sets hs (handle_change s semId f) ?_ fun h a ha => ?_
  · cases semId <;> exact Nat.le_refl _
  · obtain ⟨b, hb, hval⟩ := semSet_change_some ha
    refine ⟨b, hb, ?_⟩
    split at hval
    · rename_i hid
      rw [hval]
      exact Or.inr (hf h b hb hid)
    · exact Or.inl hval

/-- A new set is nobody's. -/
theorem semSet_add {s : System κ} (hs : Safe s) {k : κ}
    (hno : ∀ i a, s.sets.set i = some a → a.key ≠ k) (h : Nat) :
    ({ s with sets := s.sets.add k hno } : System κ).semSet h = s.semSet h := by
  show (s.handle h).semId.bind (s.sets.add k hno).set = (s.handle h).semId.bind s.sets.set
  cases hid : (s.handle h).semId with
  | none => rfl
  | some i => exact Sets.set_add_lt s.sets hno (hs.known h i hid)

theorem safe_add {s : System κ} (hs : Safe s) {k : κ}
    (hno : ∀ i a, s.sets.set i = some a → a.key ≠ k) :
    Safe ({ s with sets := s.sets.add k hno } : System κ) := by
  refine safe_sets hs rfl (Nat.le_succ _) fun h a ha => ?_
  rw [semSet_add hs] at ha
  exact ⟨a, ha, Or.inl rfl⟩

/-- One handle changes and does not get in: all that has to be checked is about it. -/
theorem safe_withHandle {s : System κ} (hs : Safe s) (h : Nat) (x : Handle)
    (hknown : ∀ i, x.semId = some i → i < s.sets.next)
    (hshared : ∀ h' a a', x.semId.bind s.sets.set = some a → s.semSet h' = some a' → h' ≠ h →
      x.semId = (s.handle h').semId)
    (hvalue : ∀ a, x.phase = .initialized ∨ x.phase = .ready → x.semId.bind s.sets.set = some a →
      a.val ≤ 1 ∧ ((∃ h', 0 < (s.handle h').entered) → a.val = 0))
    (hentered : x.entered ≤ (s.handle h).entered)
    (hbusy : 0 < x.entered → x.phase = .ready)
    (hrefused : 0 < x.refused → x.semId.bind s.sets.set = none) : Safe (s.withHandle h x) := by
  have hself : (s.withHandle h x).semSet h = x.semId.bind s.sets.set := by
    rw [System.semSet, handle_withHandle_same]
    rfl
  have hinside : ∀ h', 0 < ((s.withHandle h x).handle h').entered → 0 < (s.handle h').entered :=
    forall_withHandle (P := fun h' y => 0 < y.entered → 0 < (s.handle h').entered)
      (fun hpos => Nat.lt_of_lt_of_le hpos hentered) fun _ _ hpos => hpos
  refine ⟨?_, ?_, ?_, ?_, ?_, ?_, ?_⟩
  · exact forall_withHandle (P := fun _ y => ∀ i, y.semId = some i → i < s.sets.next) hknown
      fun h' _ => hs.known h'
  · intro h₁ h₂ a a' ha ha'
    by_cases hne₁ : h₁ = h
    · by_cases hne₂ : h₂ = h
      · rw [hne₁, hne₂]
      · rw [hne₁, hself] at ha
        rw [semSet_withHandle_ne s hne₂] at ha'
        rw [hne₁, handle_withHandle_same, handle_withHandle_ne s hne₂]
        exact hshared h₂ a a' ha ha' hne₂
    · rw [semSet_withHandle_ne s hne₁] at ha
      by_cases hne₂ : h₂ = h
      · rw [hne₂, hself] at ha'
        rw [hne₂, handle_withHandle_same, handle_withHandle_ne s hne₁]
        exact (hshared h₁ a' a ha' ha hne₁).symm
      · rw [semSet_withHandle_ne s hne₂] at ha'
        rw [handle_withHandle_ne s hne₁, handle_withHandle_ne s hne₂]
        exact hs.shared h₁ h₂ a a' ha ha'
  · intro h' a hphase ha
    obtain ⟨hle, hzero⟩ := forall_withHandle
      (P := fun _ y => ∀ a, y.phase = .initialized ∨ y.phase = .ready →
        y.semId.bind s.sets.set = some a →
          a.val ≤ 1 ∧ ((∃ h'', 0 < (s.handle h'').entered) → a.val = 0))
      hvalue (fun h' _ a => hs.value h' a) h' a hphase ha
    refine ⟨hle, fun hsome => hzero ?_⟩
    obtain ⟨h'', hpos⟩ := hsome
    exact ⟨h'', hinside h'' hpos⟩
  · intro h₁ h₂ hpos₁ hpos₂
    exact hs.single h₁ h₂ (hinside h₁ hpos₁) (hinside h₂ hpos₂)
  · exact forall_withHandle (P := fun _ y => y.entered ≤ 1)
      (Nat.le_trans hentered (hs.once h)) fun h' _ => hs.once h'
  · exact forall_withHandle (P := fun _ y => 0 < y.entered → y.phase = .ready) hbusy
      fun h' _ => hs.busy h'
  · exact forall_withHandle (P := fun _ y => 0 < y.refused → y.semId.bind s.sets.set = none)
      hrefused fun h' _ => hs.refused h'

/-- The same for a handle that keeps its identifier. -/
theorem safe_keep {s : System κ} (hs : Safe s) {h : Nat} {x : Handle}
    (hid : x.semId = (s.handle h).semId)
    (hvalue : ∀ a, x.phase = .initialized ∨ x.phase = .ready → s.semSet h = some a →
      a.val ≤ 1 ∧ ((∃ h', 0 < (s.handle h').entered) → a.val = 0))
    (hentered : x.entered ≤ (s.handle h).entered) (hbusy : 0 < x.entered → x.phase = .ready)
    (hrefused : 0 < x.refused → s.semSet h = none) : Safe (s.withHandle h x) := by
  refine safe_withHandle hs h x ?_ ?_ ?_ hentered hbusy ?_
  · rw [hid]
    exact hs.known h
  · intro h' a a' ha ha' _
    rw [hid] at ha ⊢
    exact hs.shared h h' a a' ha ha'
  · rw [hid]
    exact hvalue
  · rw [hid]
    exact hrefused

/-- A handle without a set that is not inside disturbs nobody. -/
theorem safe_without {s : System κ} (hs : Safe s) (h : Nat) (phase : Phase) (refused : Nat) :
    Safe (s.withHandle h ⟨phase, none, 0, refused⟩) := by
  refine safe_withHandle hs h _ ?_ ?_ ?_ (Nat.zero_le _) ?_ (fun _ => rfl)
  · intro i hi
    cases hi
  · intro h' a a' ha
    cases ha
  · intro a _ ha
    cases ha
  · intro hpos
    cases hpos

/-- A handle gets in by taking the value to 0 while nobody is inside. -/
theorem safe_enter {s : System κ} (hs : Safe s) {h : Nat} {x : Handle}
    (hid : x.semId = (s.handle h).semId) (hready : x.phase = .ready) (hentered : x.entered = 1)
    (hrefused : x.refused = (s.handle h).refused) {a : SemSet κ} (ha : s.semSet h = some a)
    (hzero : a.val = 0) (hnobody : ∀ h', (s.handle h').entered = 0) :
    Safe (s.withHandle h x) := by
  have hinside : ∀ h', 0 < ((s.withHandle h x).handle h').entered → h' = h :=
    forall_withHandle (P := fun h' y => 0 < y.entered → h' = h) (fun _ => rfl)
      fun h' _ hpos => absurd (hnobody h') (Nat.ne_of_gt hpos)
  refine ⟨?_, ?_, ?_, ?_, ?_, ?_, ?_⟩
  · intro h' i hi
    rw [semId_withHandle hid] at hi
    exact hs.known h' i hi
  · intro h₁ h₂ a₁ a₂ ha₁ ha₂
    rw [semSet_withHandle hid] at ha₁ ha₂
    rw [semId_withHandle hid, semId_withHandle hid]
    exact hs.shared h₁ h₂ a₁ a₂ ha₁ ha₂
  · intro h' a' _ ha'
    rw [semSet_withHandle hid] at ha'
    have hsets : s.semSet h' = s.semSet h := by
      rw [System.semSet, hs.shared h' h a' a ha' ha]
      rfl
    rw [ha', ha] at hsets
    rw [Option.some.inj hsets, hzero]
    exact ⟨Nat.zero_le 1, fun _ => rfl⟩
  · intro h₁ h₂ hpos₁ hpos₂
    rw [hinside h₁ hpos₁, hinside h₂ hpos₂]
  · exact forall_withHandle (P := fun _ y => y.entered ≤ 1) (Nat.le_of_eq hentered)
      fun h' _ => hs.once h'
  · intro h' hpos
    rw [hinside h' hpos, handle_withHandle_same]
    exact hready
  · intro h' hpos
    rw [semSet_withHandle hid]
    have hold : ∀ h', 0 < ((s.withHandle h x).handle h').refused → 0 < (s.handle h').refused :=
      forall_withHandle (P := fun h' y => 0 < y.refused → 0 < (s.handle h').refused)
        (by rw [hrefused]; exact id) fun _ _ hpos => hpos
    exact hs.refused h' (hold h' hpos)

/-- With the key of the sets that the handles have, `semget` finds the set that they have. -/
theorem safe_semget [DecidableEq κ] {s : System κ} (hs : Safe s) (h : Nat) {k : κ}
    (hkey : ∀ h' a, s.semSet h' = some a → a.key = k) :
    Safe (({ s with sets := (s.sets.get k).2 } : System κ).withHandle h
      ⟨.got, some (s.sets.get k).1, 0, 0⟩) := by
  have hpos : ¬ 0 < 0 := Nat.lt_irrefl 0
  have hgot : ¬ (Phase.got = .initialized ∨ Phase.got = .ready) := by decide
  rcases s.sets.get_cases k with ⟨i, a, hget, ha, hk⟩ | ⟨hno, hget⟩
  · rw [hget]
    refine safe_withHandle hs h _ ?_ ?_ (fun _ hphase => absurd hphase hgot) (Nat.zero_le _)
      (fun h0 => absurd h0 hpos) (fun h0 => absurd h0 hpos)
    · intro j hj
      cases hj
      exact s.sets.lt_next ha
    · intro h' b a' _ ha' _
      obtain ⟨j, hj, hset⟩ := Option.bind_eq_some_iff.mp ha'
      rw [hj]
      exact congrArg some (s.sets.unique i j a a' ha hset (by rw [hk, hkey h' a' ha']))
  · rw [hget]
    have hnone : ∀ h', ({ s with sets := s.sets.add k hno } : System κ).semSet h' = none := by
      intro h'
      rw [semSet_add hs]
      cases ha : s.semSet h' with
      | none => rfl
      | some a =>
        obtain ⟨j, -, hset⟩ := Option.bind_eq_some_iff.mp ha
        exact absurd (hkey h' a ha) (hno j a hset)
    refine safe_withHandle (safe_add hs hno) h _ ?_ ?_ (fun _ hphase => absurd hphase hgot)
      (Nat.zero_le _) (fun h0 => absurd h0 hpos) (fun h0 => absurd h0 hpos)
    · intro j hj
      cases hj
      exact Nat.lt_succ_self _
    · intro h' b a' _ ha' _
      rw [hnone h'] at ha'
      cases ha'

theorem withHandle_change (s : System κ) (h : Nat) (x : Handle) (semId : Option Nat)
    (f : Nat → Nat) :
    (s.change semId f).withHandle h x = (s.withHandle h x).change semId f := by
  cases semId <;> rfl

theorem safe_setval {s : System κ} (hs : Safe s) {h : Nat}
    (hnobody : s.semSet h ≠ none → ∀ h', (s.handle h').entered = 0)
    (hgot : (s.handle h).phase = .got) :
    Safe ((s.change (s.handle h).semId fun _ => 1).withHandle h
      { s.handle h with phase := .initialized }) := by
  have hsame : ∀ h' a, s.semSet h' = some a → (s.handle h').semId = (s.handle h).semId →
      s.semSet h ≠ none := by
    intro h' a ha hid
    rw [System.semSet, ← hid]
    show s.semSet h' ≠ none
    rw [ha]
    exact Option.some_ne_none a
  have hchange : Safe (s.change (s.handle h).semId fun _ => 1) :=
    safe_change hs _ _ fun h' a ha hid => ⟨hnobody (hsame h' a ha hid), fun _ => Nat.le_refl 1⟩
  have hnotin : (s.handle h).entered = 0 := by
    by_contra hne
    have hready := hs.busy h (Nat.pos_of_ne_zero hne)
    rw [hgot] at hready
    cases hready
  refine safe_keep hchange (by rw [handle_change]) ?_ (Nat.le_of_eq (by rw [handle_change])) ?_ ?_
  · intro a _ ha
    obtain ⟨b, hb, hval⟩ := semSet_change_some ha
    rw [if_pos rfl] at hval
    refine ⟨Nat.le_of_eq hval, fun hsome => ?_⟩
    obtain ⟨h', hpos⟩ := hsome
    rw [handle_change, hnobody (hsame h b hb rfl) h'] at hpos
    cases hpos
  · intro hpos
    rw [hnotin] at hpos
    cases hpos
  · intro hpos
    exact hchange.refused h (by rw [handle_change]; exact hpos)

theorem semSet_change_self {s : System κ} {h : Nat} {a : SemSet κ} (ha : s.semSet h = some a)
    (f : Nat → Nat) :
    (s.change (s.handle h).semId f).semSet h = some ⟨a.key, f a.val⟩ := by
  obtain ⟨i, hi, hset⟩ := Option.bind_eq_some_iff.mp ha
  rw [System.semSet, handle_change, hi]
  show (s.sets.change i f).set i = _
  rw [Sets.set_change_same, hset]
  rfl

/-- A `__sem_p` that succeeds has found the value 1, so nobody was inside. -/
theorem safe_semP {s : System κ} (hs : Safe s) {h : Nat} (hready : (s.handle h).phase = .ready)
    {a : SemSet κ} (ha : s.semSet h = some a) (hval : a.val ≠ 0) :
    Safe ((s.change (s.handle h).semId (· - 1)).withHandle h
      { s.handle h with entered := (s.handle h).entered + 1 }) := by
  obtain ⟨hle, hzero⟩ := hs.value h a (Or.inr hready) ha
  have hnobody : ∀ h', (s.handle h').entered = 0 := by
    intro h'
    by_contra hne
    exact hval (hzero ⟨h', Nat.pos_of_ne_zero hne⟩)
  have hchange : Safe (s.change (s.handle h).semId (· - 1)) := by
    refine safe_change hs _ _ fun h' a' ha' _ => ⟨hnobody, fun hphase => ?_⟩
    have := (hs.value h' a' hphase ha').1
    omega
  refine safe_enter hchange (by rw [handle_change]) hready ?_ (by rw [handle_change])
    (semSet_change_self ha (· - 1)) ?_ (by rw [handle_change]; exact hnobody)
  · simp only [hnobody h]
  · show a.val - 1 = 0
    omega

/-- A handle that leaves was the only one inside, and the value was 0 if the set exists. -/
theorem safe_leave {s : System κ} (hs : Safe s) {h : Nat} (hin : (s.handle h).entered ≠ 0)
    (fails : Bool) :
    Safe ((if fails then s else s.change (s.handle h).semId (· + 1)).withHandle h
      { s.handle h with entered := (s.handle h).entered - 1 }) := by
  have hready := hs.busy h (Nat.pos_of_ne_zero hin)
  have hout : Safe (s.withHandle h { s.handle h with entered := (s.handle h).entered - 1 }) :=
    safe_keep hs rfl (fun a _ ha => hs.value h a (Or.inr hready) ha) (Nat.sub_le _ _)
      (fun _ => hready) (hs.refused h)
  cases fails with
  | true => exact hout
  | false =>
    simp only [Bool.false_eq_true, ↓reduceIte]
    rw [withHandle_change]
    refine safe_change hout _ _ fun h' a ha _ => ⟨fun h'' => ?_, fun hphase => ?_⟩
    · by_cases hne : h'' = h
      · rw [hne, handle_withHandle_same]
        have := hs.once h
        show (s.handle h).entered - 1 = 0
        omega
      · rw [handle_withHandle_ne s hne]
        by_contra hother
        exact hne (hs.single h'' h (Nat.pos_of_ne_zero hother) (Nat.pos_of_ne_zero hin))
    · rw [semSet_withHandle (by rfl)] at ha
      have hphase' : (s.handle h').phase = .initialized ∨ (s.handle h').phase = .ready := by
        by_cases hne : h' = h
        · rw [hne, hready]
          exact Or.inr rfl
        · rwa [handle_withHandle_ne s hne] at hphase
      have hzero := (hs.value h' a hphase' ha).2 ⟨h, Nat.pos_of_ne_zero hin⟩
      omega

/-- What was refused has no set to give anything back to. -/
theorem safe_leave_refused {s : System κ} (hs : Safe s) {h : Nat}
    (hrefused : (s.handle h).refused ≠ 0) (fails : Bool) :
    Safe ((if fails then s else s.change (s.handle h).semId (· + 1)).withHandle h
      { s.handle h with refused := (s.handle h).refused - 1 }) := by
  have hnone := hs.refused h (Nat.pos_of_ne_zero hrefused)
  have hout : Safe (s.withHandle h { s.handle h with refused := (s.handle h).refused - 1 }) := by
    refine safe_keep hs rfl (fun a _ ha => ?_) (Nat.le_refl _) (hs.busy h) (fun _ => hnone)
    rw [hnone] at ha
    cases ha
  cases fails with
  | true => exact hout
  | false =>
    simp only [Bool.false_eq_true, ↓reduceIte]
    rw [withHandle_change]
    apply safe_change hout _ _
    intro h' a ha hid
    rw [semSet_withHandle (by rfl), System.semSet] at ha
    rw [semId_withHandle (by rfl)] at hid
    rw [hid] at ha
    have hsome : s.semSet h = some a := ha
    rw [hnone] at hsome
    cases hsome

variable [DecidableEq κ]

omit [DecidableEq κ] in
/-- A step behind a guard on the phase. -/
theorem ok_of_guard {c : Prop} [Decidable c] {s s' : System κ} {u : Unit} {e : NotEnabled}
    (h : (if c then .ok (s, ()) else .error e : Except NotEnabled (System κ × Unit)) =
      .ok (s', u)) : c ∧ s = s' := by
  split at h
  · rename_i hc
    cases h
    exact ⟨hc, rfl⟩
  · cases h

theorem semP_safe {ftok : Nat → κ} {s s' : System κ} {h : Nat} {interrupted : Bool} (hs : Safe s)
    (hcareful : Careful ftok s (.semP h interrupted)) {u : Unit}
    (hstep : handleStep ftok s (.semP h interrupted) = .ok (s', u)) : Safe s' := by
  by_cases hready : (s.handle h).phase = .ready
  · simp only [handleStep, if_pos hready] at hstep
    have hrefuse (hnone : s.semSet h = none) :
        Safe (s.withHandle h { s.handle h with refused := (s.handle h).refused + 1 }) :=
      safe_keep hs rfl (fun a _ ha => hs.value h a (Or.inr hready) ha) (Nat.le_refl _)
        (fun _ => hready) (fun _ => hnone)
    cases interrupted with
    | true =>
      cases hstep
      exact hrefuse hcareful
    | false =>
      simp only [Bool.false_eq_true, ↓reduceIte] at hstep
      cases ha : s.semSet h with
      | none =>
        rw [ha] at hstep
        cases hstep
        exact hrefuse ha
      | some a =>
        rw [ha] at hstep
        by_cases hval : a.val = 0
        · simp only [if_pos hval] at hstep
          cases hstep
        · simp only [if_neg hval] at hstep
          cases hstep
          exact safe_semP hs hready ha hval
  · simp only [handleStep, if_neg hready] at hstep
    cases hstep

theorem semV_safe {ftok : Nat → κ} {s s' : System κ} {h : Nat} {entered fails : Bool} (hs : Safe s)
    {u : Unit} (hstep : handleStep ftok s (.semV h entered fails) = .ok (s', u)) : Safe s' := by
  cases entered with
  | true =>
    by_cases hin : (s.handle h).entered = 0
    · simp only [handleStep, ↓reduceIte, if_pos hin] at hstep
      cases hstep
    · simp only [handleStep, ↓reduceIte, if_neg hin] at hstep
      cases hstep
      exact safe_leave hs hin fails
  | false =>
    by_cases hrefused : (s.handle h).refused = 0
    · simp only [handleStep, Bool.false_eq_true, ↓reduceIte, if_pos hrefused] at hstep
      cases hstep
    · simp only [handleStep, Bool.false_eq_true, ↓reduceIte, if_neg hrefused] at hstep
      cases hstep
      exact safe_leave_refused hs hrefused fails

/-- What every step preserves that goes wrong in none of the four ways. -/
theorem handleStep_safe {ftok : Nat → κ} {s s' : System κ} {e : HandleEvent} (hs : Safe s)
    (hcareful : Careful ftok s e) {u : Unit} (hstep : handleStep ftok s e = .ok (s', u)) :
    Safe s' := by
  cases e with
  | openFails h =>
    obtain ⟨-, rfl⟩ := ok_of_guard hstep
    exact safe_without (safe_rmid hs _) h .gone 0
  | semget h now ok =>
    cases ok with
    | true =>
      obtain ⟨-, rfl⟩ := ok_of_guard hstep
      exact safe_semget hs h hcareful
    | false =>
      obtain ⟨-, rfl⟩ := ok_of_guard hstep
      exact safe_without hs h .got 0
  | setval h =>
    obtain ⟨hgot, rfl⟩ := ok_of_guard hstep
    exact safe_setval hs hcareful hgot
  | createFails h =>
    obtain ⟨-, rfl⟩ := ok_of_guard hstep
    exact safe_without (safe_rmid hs _) h .gone 0
  | createReturns h =>
    obtain ⟨hphase, rfl⟩ := ok_of_guard hstep
    exact safe_keep hs rfl (fun a _ ha => hs.value h a (Or.inl hphase) ha) (Nat.le_refl _)
      (fun _ => rfl) (hs.refused h)
  | semP h interrupted => exact semP_safe hs hcareful hstep
  | semV h entered fails => exact semV_safe hs hstep
  | destroy h =>
    obtain ⟨-, rfl⟩ := ok_of_guard hstep
    have hout : (s.handle h).entered = 0 := hcareful
    rw [hout]
    exact safe_without (safe_rmid hs _) h .gone _

/-- Over any sets that other programs have left, for every `ftok`, and in every state that
a run of careful steps reaches, at most one handle is inside. -/
theorem handles_exclusive (ftok : Nat → κ) (sets : Sets κ) (events : List HandleEvent)
    (s : System κ) (us : List Unit)
    (hrun : run (handleStep ftok) (.initial sets) events = .ok (s, us))
    (hcareful : Along (handleStep ftok) (Careful ftok) (.initial sets) events) : Exclusive s := by
  have hsafe : Safe s := run_invariant_along Safe (Careful ftok)
    (fun _ _ _ _ hs hc hstep => handleStep_safe hs hc hstep) (safe_initial sets) hrun hcareful
  exact hsafe.single

/-- Two handles created in the same second: one is inside, leaves, and the other gets in. -/
theorem handles_exclusive_same_second :
    ∃ s us, run (handleStep id) (.initial (.empty : Sets Nat))
        [.semget 1 7 true, .setval 1, .createReturns 1, .semget 2 7 true, .setval 2,
          .createReturns 2, .semP 1 false, .semV 1 true false, .semP 2 false] = .ok (s, us) ∧
      0 < (s.handle 2).entered ∧ Exclusive s := by
  have hrun : ∃ r, run (handleStep id) (.initial (.empty : Sets Nat))
      [.semget 1 7 true, .setval 1, .createReturns 1, .semget 2 7 true, .setval 2,
        .createReturns 2, .semP 1 false, .semV 1 true false, .semP 2 false] = .ok r ∧
        0 < (r.1.handle 2).entered :=
    exists_ok (by decide)
  obtain ⟨⟨s, us⟩, hrun, hinside⟩ := hrun
  refine ⟨s, us, hrun, hinside, handles_exclusive id .empty _ s us hrun ?_⟩
  refine along_cons_ok rfl (fun h a ha => by cases ha) ?_
  refine along_cons_ok rfl (fun _ h => ?_) ?_
  · by_cases h1 : h = 1
    · subst h1
      rfl
    · simp [System.withHandle, System.initial, h1]
  refine along_cons_ok rfl trivial ?_
  refine along_cons_ok rfl (fun h a ha => ?_) ?_
  · by_cases h1 : h = 1
    · subst h1
      cases ha
      rfl
    · simp [System.semSet, System.withHandle, System.initial, System.change, h1] at ha
  refine along_cons_ok rfl (fun _ h => ?_) ?_
  · by_cases h1 : h = 1
    · subst h1
      rfl
    · by_cases h2 : h = 2
      · subst h2
        rfl
      · simp [System.withHandle, System.initial, System.change, h1, h2]
  refine along_cons_ok rfl trivial ?_
  refine along_cons_ok rfl trivial ?_
  refine along_cons_ok rfl trivial ?_
  exact along_cons_ok rfl trivial (along_nil _)

/-- Two handles created one second after the other are both inside. -/
theorem two_handles_inside :
    ∃ s us, run (handleStep id) (.initial (.empty : Sets Nat))
        [.semget 1 0 true, .setval 1, .createReturns 1, .semget 2 1 true, .setval 2,
          .createReturns 2, .semP 1 false, .semP 2 false] = .ok (s, us) ∧ ¬ Exclusive s := by
  have hrun : ∃ r, run (handleStep id) (.initial (.empty : Sets Nat))
      [.semget 1 0 true, .setval 1, .createReturns 1, .semget 2 1 true, .setval 2,
        .createReturns 2, .semP 1 false, .semP 2 false] = .ok r ∧
        0 < (r.1.handle 1).entered ∧ 0 < (r.1.handle 2).entered :=
    exists_ok (by decide)
  obtain ⟨⟨s, us⟩, hrun, h1, h2⟩ := hrun
  exact ⟨s, us, hrun, fun h => absurd (h 1 2 h1 h2) (by decide)⟩

end BackupSoftware.Records

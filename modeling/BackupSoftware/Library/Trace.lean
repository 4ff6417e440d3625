import Mathlib.Logic.Function.Basic
import Mathlib.Tactic.Common

/-!
# Runs of a machine that emits outputs and may fault

A machine reads one input at a time; each step yields a new state and one output,
or a fault that ends the run. The results below decompose runs at an input,
carry an invariant along them, compose the runs of independent components under an
arbitrary interleaving of their inputs, and relate runs to those of an abstract machine.
-/

namespace BackupSoftware.Library.Trace

variable {σ α ε β ι γ : Type}

def run (step : σ → α → Except ε (σ × β)) : σ → List α → Except ε (σ × List β)
  | s, [] => .ok (s, [])
  | s, a :: as =>
      match step s a with
      | .error e => .error e
      | .ok (s', b) =>
          match run step s' as with
          | .error e => .error e
          | .ok (t, bs) => .ok (t, b :: bs)

variable {step : σ → α → Except ε (σ × β)}

theorem run_nil (s : σ) : run step s [] = .ok (s, []) := rfl

theorem run_cons (s : σ) (a : α) (as : List α) : run step s (a :: as) =
    match step s a with
    | .error e => .error e
    | .ok (s', b) =>
        match run step s' as with
        | .error e => .error e
        | .ok (t, bs) => .ok (t, b :: bs) := rfl

theorem run_nil_iff {s t : σ} {bs : List β} :
    run step s [] = .ok (t, bs) ↔ s = t ∧ bs = [] := by
  simp only [run_nil, Except.ok.injEq, Prod.mk.injEq]
  constructor
  · rintro ⟨rfl, rfl⟩; exact ⟨rfl, rfl⟩
  · rintro ⟨rfl, rfl⟩; exact ⟨rfl, rfl⟩

theorem run_cons_ok {s s' t : σ} {a : α} {b : β} {as : List α} {bs : List β}
    (h : step s a = .ok (s', b)) (hr : run step s' as = .ok (t, bs)) :
    run step s (a :: as) = .ok (t, b :: bs) := by
  simp only [run_cons, h, hr]

/-- A completed run on a nonempty input starts with a completed step. -/
theorem run_cons_iff {s t : σ} {a : α} {as : List α} {bs : List β} :
    run step s (a :: as) = .ok (t, bs) ↔
      ∃ s' b bs', step s a = .ok (s', b) ∧ run step s' as = .ok (t, bs') ∧ bs = b :: bs' := by
  constructor
  · intro h
    rw [run_cons] at h
    cases hs : step s a with
    | error e => rw [hs] at h; cases h
    | ok r =>
        obtain ⟨s', b⟩ := r
        rw [hs] at h
        cases hr : run step s' as with
        | error e => simp only [hr] at h; cases h
        | ok q =>
            obtain ⟨u, bs'⟩ := q
            simp only [hr] at h
            cases h
            exact ⟨s', b, bs', rfl, hr, rfl⟩
  · intro h
    obtain ⟨s', b, bs', hs, hr, rfl⟩ := h
    exact run_cons_ok hs hr

theorem run_append_iff {s t : σ} {as as' : List α} {bs : List β} :
    run step s (as ++ as') = .ok (t, bs) ↔
      ∃ u bs₁ bs₂, run step s as = .ok (u, bs₁) ∧ run step u as' = .ok (t, bs₂) ∧
        bs = bs₁ ++ bs₂ := by
  induction as generalizing s bs with
  | nil =>
    constructor
    · intro h; exact ⟨s, [], bs, rfl, h, rfl⟩
    · intro h
      obtain ⟨u, bs₁, bs₂, h₁, h₂, rfl⟩ := h
      obtain ⟨rfl, rfl⟩ := run_nil_iff.mp h₁
      exact h₂
  | cons a as ih =>
    rw [List.cons_append]
    constructor
    · intro h
      obtain ⟨s', b, bs', hs, hr, rfl⟩ := run_cons_iff.mp h
      obtain ⟨u, bs₁, bs₂, h₁, h₂, rfl⟩ := ih.mp hr
      exact ⟨u, b :: bs₁, bs₂, run_cons_ok hs h₁, h₂, rfl⟩
    · intro h
      obtain ⟨u, bs₁, bs₂, h₁, h₂, rfl⟩ := h
      obtain ⟨s', b, bs', hs, hr, rfl⟩ := run_cons_iff.mp h₁
      exact run_cons_ok hs (ih.mpr ⟨u, bs', bs₂, hr, h₂, rfl⟩)

/-- A run over two inputs is a run over the second from where the first ends. -/
theorem run_append (s : σ) (as as' : List α) :
    run step s (as ++ as') = (run step s as).bind fun r =>
      (run step r.1 as').map fun q => (q.1, r.2 ++ q.2) := by
  induction as generalizing s with
  | nil =>
    rw [List.nil_append]
    cases hrest : run step s as' with
    | error e => simp only [run_nil, Except.bind, Except.map, hrest]
    | ok q => simp only [run_nil, Except.bind, Except.map, hrest, List.nil_append]
  | cons a as ih =>
    cases hstep : step s a with
    | error e => simp only [List.cons_append, run_cons, hstep, Except.bind]
    | ok r =>
      simp only [List.cons_append, run_cons, hstep, ih]
      cases hfirst : run step r.1 as with
      | error e => rfl
      | ok q =>
        simp only [Except.bind]
        cases run step q.1 as' with
        | error e => rfl
        | ok _ => rfl

/-- The condition holds of the state and the input at every step that is reached. -/
def Along (step : σ → α → Except ε (σ × β)) (C : σ → α → Prop) (s : σ) (as : List α) : Prop :=
  ∀ pre a post u bs, as = pre ++ a :: post → run step s pre = .ok (u, bs) → C u a

theorem along_cons_iff {C : σ → α → Prop} {s : σ} {a : α} {as : List α} :
    Along step C s (a :: as) ↔
      C s a ∧ ∀ s' b, step s a = .ok (s', b) → Along step C s' as := by
  constructor
  · intro h
    refine ⟨h [] a as s [] rfl rfl, ?_⟩
    intro s' b hs pre x post u bs hsplit hpre
    exact h (a :: pre) x post u (b :: bs) (by rw [hsplit]; rfl) (run_cons_ok hs hpre)
  · intro h pre x post u bs hsplit hpre
    obtain ⟨hfirst, hrest⟩ := h
    cases pre with
    | nil =>
      obtain ⟨rfl, -⟩ := run_nil_iff.mp hpre
      cases hsplit
      exact hfirst
    | cons y pre =>
      cases hsplit
      obtain ⟨s', b, bs', hs, hpre', -⟩ := run_cons_iff.mp hpre
      exact hrest s' b hs pre x post u bs' rfl hpre'

theorem along_cons_ok {C : σ → α → Prop} {s s' : σ} {a : α} {b : β} {as : List α}
    (h : step s a = .ok (s', b)) (hC : C s a) (hrest : Along step C s' as) :
    Along step C s (a :: as) := by
  refine along_cons_iff.mpr ⟨hC, fun s'' b' h' => ?_⟩
  rw [h] at h'
  cases h'
  exact hrest

theorem along_nil {C : σ → α → Prop} (s : σ) : Along step C s [] := by
  intro pre a post u bs hsplit
  cases pre <;> cases hsplit

theorem along_of_append {C : σ → α → Prop} {s : σ} {as as' : List α} (h : Along step C s as)
    (hp : as' <+: as) : Along step C s as' := by
  obtain ⟨rest, rfl⟩ := hp
  intro pre a post u bs hsplit hpre
  exact h pre a (post ++ rest) u bs (by rw [hsplit]; simp) hpre

/-- Induction rule: what every completed step preserves where a condition on the state
and the input holds, a completed run preserves if the condition holds along it. -/
theorem run_invariant_along (P : σ → Prop) (C : σ → α → Prop)
    (hstep : ∀ s a s' b, P s → C s a → step s a = .ok (s', b) → P s')
    {s t : σ} {as : List α} {bs : List β} (hs : P s) (hr : run step s as = .ok (t, bs))
    (hC : Along step C s as) : P t := by
  induction as generalizing s bs with
  | nil => obtain ⟨rfl, -⟩ := run_nil_iff.mp hr; exact hs
  | cons a as ih =>
    obtain ⟨s', b, bs', h, hr', -⟩ := run_cons_iff.mp hr
    obtain ⟨hfirst, hrest⟩ := along_cons_iff.mp hC
    exact ih (hstep s a s' b hs hfirst h) hr' (hrest s' b h)

/-- The same without a condition. -/
theorem run_invariant (P : σ → Prop)
    (hstep : ∀ s a s' b, P s → step s a = .ok (s', b) → P s')
    {s t : σ} {as : List α} {bs : List β} (hs : P s) (hr : run step s as = .ok (t, bs)) : P t :=
  run_invariant_along P (fun _ _ => True) (fun s a s' b h _ => hstep s a s' b h) hs hr
    fun _ _ _ _ _ _ _ => trivial

/-- The same for an assertion that may also speak about the inputs read so far. -/
theorem run_invariant_history (P : List α → σ → Prop)
    (hstep : ∀ pre s a s' b, P pre s → step s a = .ok (s', b) → P (pre ++ [a]) s')
    {s t : σ} {pre as : List α} {bs : List β} (hs : P pre s) (hr : run step s as = .ok (t, bs)) :
    P (pre ++ as) t := by
  induction as generalizing s pre bs with
  | nil =>
    obtain ⟨rfl, -⟩ := run_nil_iff.mp hr
    rw [List.append_nil]
    exact hs
  | cons a as ih =>
    obtain ⟨s', b, bs', h, hr', -⟩ := run_cons_iff.mp hr
    have hrest := ih (hstep pre s a s' b hs h) hr'
    rw [List.append_assoc] at hrest
    exact hrest

/-- No step completes. -/
def Stuck (step : σ → α → Except ε (σ × β)) (s : σ) : Prop := ∀ a r, step s a ≠ .ok r

/-- If completed steps decrease in a well-founded order, every state has a run that cannot be
continued. -/
theorem exists_stuck_run {r : σ → σ → Prop} (hwf : WellFounded r)
    (hstep : ∀ s a s' b, step s a = .ok (s', b) → r s' s) (s : σ) :
    ∃ as t bs, run step s as = .ok (t, bs) ∧ Stuck step t := by
  induction s using hwf.induction with
  | _ s ih =>
    by_cases hs : Stuck step s
    · exact ⟨[], s, [], rfl, hs⟩
    · simp only [Stuck, not_forall, not_not] at hs
      obtain ⟨a, ⟨s', b⟩, h⟩ := hs
      obtain ⟨as, t, bs, hr, ht⟩ := ih s' (hstep s a s' b h)
      exact ⟨a :: as, t, b :: bs, run_cons_ok h hr, ht⟩

/-- Every output of a completed run is emitted by one step at one input of it. -/
theorem run_output {s t : σ} {as : List α} {bs : List β} (hr : run step s as = .ok (t, bs))
    {b : β} (hb : b ∈ bs) :
    ∃ pre a post u u' bs', as = pre ++ a :: post ∧ run step s pre = .ok (u, bs') ∧
      step u a = .ok (u', b) := by
  induction as generalizing s bs with
  | nil => obtain ⟨-, rfl⟩ := run_nil_iff.mp hr; cases hb
  | cons a as ih =>
    obtain ⟨s', b', bs', h, hr', rfl⟩ := run_cons_iff.mp hr
    rcases List.mem_cons.mp hb with rfl | hb
    · exact ⟨[], a, as, s, s', [], rfl, rfl, h⟩
    · obtain ⟨pre, x, post, u, u', bs'', rfl, hpre, hx⟩ := ih hr' hb
      exact ⟨a :: pre, x, post, u, u', b' :: bs'', rfl, run_cons_ok h hpre, hx⟩

/-- A run completes as soon as every step that it reaches completes. -/
theorem run_completes_iff {s : σ} {as : List α} :
    (∃ r, run step s as = .ok r) ↔ Along step (fun u a => ∃ r, step u a = .ok r) s as := by
  constructor
  · rintro ⟨⟨t, bs⟩, h⟩ pre a post u bs' rfl hpre
    obtain ⟨u', bs₁, bs₂, h₁, h₂, -⟩ := run_append_iff.mp h
    rw [hpre] at h₁
    cases h₁
    obtain ⟨s', b, -, hs, -, -⟩ := run_cons_iff.mp h₂
    exact ⟨(s', b), hs⟩
  · induction as generalizing s with
    | nil => exact fun _ => ⟨(s, []), rfl⟩
    | cons a as ih =>
      intro h
      obtain ⟨⟨⟨s', b⟩, hs⟩, hrest⟩ := along_cons_iff.mp h
      obtain ⟨⟨t, bs⟩, hr⟩ := ih (hrest s' b hs)
      exact ⟨(t, b :: bs), run_cons_ok hs hr⟩

/-- In `Interleaving streams l` the list takes every item of every stream, keeping
the order inside each stream. -/
inductive Interleaving [DecidableEq ι] : (ι → List α) → List α → Prop where
  | nil {streams : ι → List α} (h : ∀ i, streams i = []) : Interleaving streams []
  | cons {streams : ι → List α} {l : List α} (i : ι) (a : α) (rest : List α)
      (h : streams i = a :: rest) (tail : Interleaving (Function.update streams i rest) l) :
      Interleaving streams (a :: l)

/-- Components that are stepped one at a time and do not touch each other run
under any interleaving as each of them runs alone: if alone every stream emits the
outputs that accompany its inputs, the interleaved run emits the interleaved ones. -/
theorem run_interleaving [DecidableEq ι] {lstep : γ → α → Except ε (γ × β)}
    (get : σ → ι → γ) (I : σ → Prop) (mine : ι → α → Prop)
    (hstep : ∀ s i a c b, I s → mine i a → lstep (get s i) a = .ok (c, b) →
      ∃ s', step s a = .ok (s', b) ∧ I s' ∧ get s' i = c ∧ ∀ j, j ≠ i → get s' j = get s j)
    {streams : ι → List (α × β)} {l : List (α × β)} (hl : Interleaving streams l)
    (hmine : ∀ i, ∀ p ∈ streams i, mine i p.1) (s : σ) (hs : I s)
    (halone : ∀ i, ∃ c, run lstep (get s i) ((streams i).map Prod.fst) =
      .ok (c, (streams i).map Prod.snd)) :
    ∃ t, I t ∧ run step s (l.map Prod.fst) = .ok (t, l.map Prod.snd) := by
  induction hl generalizing s with
  | nil => exact ⟨s, hs, rfl⟩
  | @cons streams l i p rest h tail ih =>
    obtain ⟨a, b⟩ := p
    obtain ⟨c, hc⟩ := halone i
    rw [h, List.map_cons, List.map_cons] at hc
    obtain ⟨c', b', bs', hfirst, hrest, hbs⟩ := run_cons_iff.mp hc
    cases hbs
    obtain ⟨s', hs', hI, hget, hother⟩ :=
      hstep s i a c' b hs (hmine i (a, b) (by rw [h]; exact List.mem_cons_self)) hfirst
    have hmine' : ∀ j, ∀ p ∈ Function.update streams i rest j, mine j p.1 := by
      intro j q hq
      by_cases hj : j = i
      · subst hj
        rw [Function.update_self] at hq
        exact hmine j q (by rw [h]; exact List.mem_cons_of_mem _ hq)
      · rw [Function.update_of_ne hj] at hq
        exact hmine j q hq
    have halone' : ∀ j, ∃ c, run lstep (get s' j)
        ((Function.update streams i rest j).map Prod.fst) =
        .ok (c, (Function.update streams i rest j).map Prod.snd) := by
      intro j
      by_cases hj : j = i
      · subst hj
        rw [Function.update_self, hget]
        exact ⟨c, hrest⟩
      · rw [Function.update_of_ne hj, hother j hj]
        exact halone j
    obtain ⟨t, ht, hrun⟩ := ih hmine' s' hI halone'
    exact ⟨t, ht, run_cons_ok hs' hrun⟩

/-- A run of an abstract machine, given by the relation between the state before a step,
its input, its output and the state after it. -/
inductive AbstractRun (astep : γ → α → β → γ → Prop) : γ → List α → List β → γ → Prop where
  | nil (c : γ) : AbstractRun astep c [] [] c
  | cons {c c' d : γ} {a : α} {b : β} {as : List α} {bs : List β} (head : astep c a b c')
      (tail : AbstractRun astep c' as bs d) : AbstractRun astep c (a :: as) (b :: bs) d

/-- If every step completes and is a step of the abstract machine, every run completes
and is a run of it. -/
theorem run_simulates (astep : γ → α → β → γ → Prop) (abs : σ → γ) (I : σ → Prop)
    (C : α → Prop)
    (hstep : ∀ s a, I s → C a →
      ∃ s' b, step s a = .ok (s', b) ∧ I s' ∧ astep (abs s) a b (abs s'))
    {s : σ} (hs : I s) {as : List α} (hC : ∀ a ∈ as, C a) :
    ∃ t bs, run step s as = .ok (t, bs) ∧ I t ∧ AbstractRun astep (abs s) as bs (abs t) := by
  induction as generalizing s with
  | nil => exact ⟨s, [], rfl, hs, .nil _⟩
  | cons a as ih =>
    obtain ⟨s', b, h, hs', ha⟩ := hstep s a hs (hC a List.mem_cons_self)
    obtain ⟨t, bs, hr, ht, habs⟩ := ih hs' fun x hx => hC x (List.mem_cons_of_mem _ hx)
    exact ⟨t, b :: bs, run_cons_ok h hr, ht, .cons ha habs⟩

/-- A result that can be computed and passes a test is a completed run. -/
theorem exists_ok {x : Except ε α} {p : α → Prop} [DecidablePred p]
    (h : x.toOption.any (fun r => decide (p r)) = true) : ∃ r, x = .ok r ∧ p r := by
  cases x with
  | error e => cases h
  | ok r => exact ⟨r, rfl, of_decide_eq_true h⟩

/-- The same for the last step of a run. -/
theorem exists_last_step {s : σ} {as : List α} {a : α} {p : β → Prop} [DecidablePred p]
    (h : (run step s (as ++ [a])).toOption.any
      (fun r => decide (∃ b ∈ r.2.getLast?, p b)) = true) :
    ∃ s' bs s'' b, run step s as = .ok (s', bs) ∧ step s' a = .ok (s'', b) ∧ p b := by
  obtain ⟨⟨t, bs⟩, hrun, b, hb, hp⟩ := exists_ok h
  obtain ⟨s', bs₁, bs₂, hfirst, hlast, rfl⟩ := run_append_iff.mp hrun
  obtain ⟨s'', b', bs', hstep, hnil, rfl⟩ := run_cons_iff.mp hlast
  obtain ⟨rfl, rfl⟩ := run_nil_iff.mp hnil
  rw [List.getLast?_concat] at hb
  cases hb
  exact ⟨s', bs₁, s'', b, hfirst, hstep, hp⟩

end BackupSoftware.Library.Trace

/-!
# Runs — properties of whole runs of a partial step function

A system is a step function `step : σ → ω → Option σ`: from a state and an operation to the next
state, or to `none` when the operation faults. A run is a list of operations.

* `exec` — the state a run ends in;
* `AllSteps` — every step of the run meets a condition on the state before it and the operation;
* `AllStates` — every state of the run, the first and the last included, has a property.

`allStates_of_inv`, `allSteps_of_inv` and `inv_exec` package the induction once: an invariant that
every step meeting the guard preserves holds all along the run, and where it ends.
`exec_iff_allSteps` is for what is asked only in the end. Conditions that can be decided at every
step can be decided for a run. `exec_simulation` carries a relation between two systems along a run
of the second.
-/

namespace Runs

variable {σ ω : Type _} (step : σ → ω → Option σ)

/-- The state the run ends in, if no step faults. -/
def exec : σ → List ω → Option σ
  | s, [] => some s
  | s, a :: as => (step s a).bind fun s' => exec s' as

/-- Every step of the run meets `guard`, read at the state before the step. -/
def AllSteps (guard : σ → ω → Prop) : σ → List ω → Prop
  | _, [] => True
  | s, a :: as => guard s a ∧ ∀ s', step s a = some s' → AllSteps guard s' as

def AllStates (P : σ → Prop) : σ → List ω → Prop
  | s, [] => P s
  | s, a :: as => P s ∧ ∀ s', step s a = some s' → AllStates P s' as

/-- A condition that can be decided step by step can be decided for a run. -/
def decidableAllSteps (guard : σ → ω → Prop) [∀ s a, Decidable (guard s a)] :
    ∀ (s : σ) (as : List ω), Decidable (AllSteps step guard s as)
  | _, [] => isTrue trivial
  | s, a :: as =>
    match h : step s a with
    | none => decidable_of_iff (guard s a)
        ⟨fun hg => ⟨hg, fun _ hs' => nomatch h.symm.trans hs'⟩, And.left⟩
    | some s' =>
      have := decidableAllSteps guard s' as
      decidable_of_iff (guard s a ∧ AllSteps step guard s' as)
        ⟨fun hg => ⟨hg.1, fun _ hs' => Option.some.inj (h.symm.trans hs') ▸ hg.2⟩,
          fun hg => ⟨hg.1, hg.2 s' h⟩⟩

instance (guard : σ → ω → Prop) [∀ s a, Decidable (guard s a)] (s : σ) (as : List ω) :
    Decidable (AllSteps step guard s as) :=
  decidableAllSteps step guard s as

/-- A property that can be decided in every state can be decided along a run. -/
def decidableAllStates (P : σ → Prop) [DecidablePred P] :
    ∀ (s : σ) (as : List ω), Decidable (AllStates step P s as)
  | s, [] => inferInstanceAs (Decidable (P s))
  | s, a :: as =>
    match h : step s a with
    | none => decidable_of_iff (P s)
        ⟨fun hp => ⟨hp, fun _ hs' => nomatch h.symm.trans hs'⟩, And.left⟩
    | some s' =>
      have := decidableAllStates P s' as
      decidable_of_iff (P s ∧ AllStates step P s' as)
        ⟨fun hp => ⟨hp.1, fun _ hs' => Option.some.inj (h.symm.trans hs') ▸ hp.2⟩,
          fun hp => ⟨hp.1, hp.2 s' h⟩⟩

instance (P : σ → Prop) [DecidablePred P] (s : σ) (as : List ω) :
    Decidable (AllStates step P s as) :=
  decidableAllStates step P s as

variable {step} {guard : σ → ω → Prop} {P J : σ → Prop}

theorem AllStates.head {s : σ} {as : List ω} (h : AllStates step P s as) : P s := by
  cases as with
  | nil => exact h
  | cons a as => exact h.1

/-- What a step hands on to the rest of the run is there when the first part has been executed. -/
theorem exec_induction {Q : σ → List ω → Prop}
    (hstep : ∀ s a as s₁, Q s (a :: as) → step s a = some s₁ → Q s₁ as) {s s' : σ} {as b : List ω}
    (h : Q s (as ++ b)) (he : exec step s as = some s') : Q s' b := by
  induction as generalizing s with
  | nil =>
    cases he
    exact h
  | cons a as ih =>
    obtain ⟨s₁, h₁, h₂⟩ := Option.bind_eq_some_iff.mp he
    exact ih (hstep s a (as ++ b) s₁ h h₁) h₂

theorem AllStates.exec {s s' : σ} {as : List ω} (h : AllStates step P s as)
    (he : exec step s as = some s') : P s' := by
  rw [← List.append_nil as] at h
  exact exec_induction (Q := AllStates step P) (fun _ _ _ s₁ hall h₁ => hall.2 s₁ h₁) h he

theorem allSteps_cons {s : σ} (s₁ : σ) {a : ω} {as : List ω} (h : step s a = some s₁)
    (hg : guard s a) (has : AllSteps step guard s₁ as) : AllSteps step guard s (a :: as) := by
  refine ⟨hg, fun s' hs' => ?_⟩
  rw [h] at hs'
  cases hs'
  exact has

/-- The end of a run, by evaluation. -/
theorem exists_exec {Q : σ → Prop} [DecidablePred Q] {s : σ} {as : List ω}
    (h : ((exec step s as).any fun e => decide (Q e)) = true) :
    ∃ e, exec step s as = some e ∧ Q e := by
  simpa only [Option.any_eq_true, decide_eq_true_eq] using h

/-- The guard of a run on which nothing is asked. -/
theorem allSteps_true (s : σ) (as : List ω) : AllSteps step (fun _ _ => True) s as := by
  induction as generalizing s with
  | nil => trivial
  | cons a as ih => exact ⟨trivial, fun s' _ => ih s'⟩

theorem AllSteps.and {guard' : σ → ω → Prop} {s : σ} {as : List ω}
    (h : AllSteps step guard s as) (h' : AllSteps step guard' s as) :
    AllSteps step (fun s a => guard s a ∧ guard' s a) s as := by
  induction as generalizing s with
  | nil => trivial
  | cons a as ih =>
    refine ⟨⟨h.1, h'.1⟩, fun s' hs' => ?_⟩
    exact ih (h.2 s' hs') (h'.2 s' hs')

theorem exec_append (s : σ) (as bs : List ω) :
    Runs.exec step s (as ++ bs) = (Runs.exec step s as).bind fun s' => Runs.exec step s' bs := by
  induction as generalizing s with
  | nil => rfl
  | cons a as ih =>
    simp only [List.cons_append, Runs.exec, Option.bind_assoc, ih]

/-- The condition on the rest of the run. -/
theorem AllSteps.after_exec {s s' : σ} {as bs : List ω} (h : AllSteps step guard s (as ++ bs))
    (he : Runs.exec step s as = some s') : AllSteps step guard s' bs :=
  exec_induction (Q := AllSteps step guard) (fun _ _ _ s₁ hall h₁ => hall.2 s₁ h₁) h he

theorem AllSteps.of_append {s : σ} {as bs : List ω} (h : AllSteps step guard s (as ++ bs)) :
    AllSteps step guard s as := by
  induction as generalizing s with
  | nil => trivial
  | cons a as ih => exact ⟨h.1, fun s' hs' => ih (h.2 s' hs')⟩

/-- An invariant that steps preserve holds where the run ends. -/
theorem inv_exec (hstep : ∀ s a s', J s → step s a = some s' → J s')
    {s s' : σ} {as : List ω} (hJ : J s) (he : Runs.exec step s as = some s') : J s' :=
  exec_induction (Q := fun s _ => J s) (b := []) (fun s a _ s₁ => hstep s a s₁) hJ he

/-- An invariant that guarded steps preserve gives its consequences in every state. -/
theorem allStates_of_inv (hP : ∀ s, J s → P s)
    (hstep : ∀ s a s', J s → guard s a → step s a = some s' → J s')
    {s : σ} {as : List ω} (hJ : J s) (hg : AllSteps step guard s as) : AllStates step P s as := by
  induction as generalizing s with
  | nil => exact hP s hJ
  | cons a as ih =>
    refine ⟨hP s hJ, fun s' hs' => ?_⟩
    exact ih (hstep s a s' hJ hg.1 hs') (hg.2 s' hs')

/-- An invariant that guarded steps preserve gives its consequences at every step. -/
theorem allSteps_of_inv {effect : σ → ω → Prop} (heffect : ∀ s a, J s → guard s a → effect s a)
    (hstep : ∀ s a s', J s → guard s a → step s a = some s' → J s')
    {s : σ} {as : List ω} (hJ : J s) (hg : AllSteps step guard s as) :
    AllSteps step effect s as := by
  induction as generalizing s with
  | nil => trivial
  | cons a as ih =>
    refine ⟨heffect s a hJ hg.1, fun s' hs' => ?_⟩
    exact ih (hstep s a s' hJ hg.1 hs') (hg.2 s' hs')

/-- If, as long as the invariant holds, the guard is what a step needs for its effect, then it is
what a run needs. -/
theorem allSteps_iff_of_inv {effect : σ → ω → Prop} (hiff : ∀ s a, J s → (effect s a ↔ guard s a))
    (hstep : ∀ s a s', J s → guard s a → step s a = some s' → J s')
    {s : σ} {as : List ω} (hJ : J s) : AllSteps step effect s as ↔ AllSteps step guard s as := by
  refine ⟨fun h => ?_, allSteps_of_inv (fun s a hs hg => (hiff s a hs).mpr hg) hstep hJ⟩
  induction as generalizing s with
  | nil => trivial
  | cons a as ih =>
    have hg : guard s a := (hiff s a hJ).mp h.1
    exact ⟨hg, fun s' hs' => ih (hstep s a s' hJ hg hs') (h.2 s' hs')⟩

/-- A guard on the operations alone, where no step faults. -/
theorem allSteps_iff_forall_mem {p : ω → Prop} (htotal : ∀ s a, ∃ s', step s a = some s')
    {s : σ} {as : List ω} : AllSteps step (fun _ a => p a) s as ↔ ∀ a ∈ as, p a := by
  induction as generalizing s with
  | nil => simp [AllSteps]
  | cons a as ih =>
    obtain ⟨s', hs'⟩ := htotal s a
    simp only [AllSteps, hs', Option.some.injEq, forall_eq', List.forall_mem_cons, ih]

/-- When, besides, a step that misses the guard leads out of the property, the guard is exact: the
property holds all along the run exactly when every step meets it. -/
theorem allStates_iff_allSteps (hP : ∀ s, J s → P s)
    (hstep : ∀ s a s', J s → guard s a → step s a = some s' → J s')
    (hexact : ∀ s a, J s → (∀ s', step s a = some s' → P s') → guard s a)
    {s : σ} {as : List ω} (hJ : J s) : AllStates step P s as ↔ AllSteps step guard s as := by
  refine ⟨fun h => ?_, allStates_of_inv hP hstep hJ⟩
  induction as generalizing s with
  | nil => trivial
  | cons a as ih =>
    have hg : guard s a := hexact s a hJ fun s' hs' => (h.2 s' hs').head
    exact ⟨hg, fun s' hs' => ih (hstep s a s' hJ hg hs') (h.2 s' hs')⟩

/-- A property that is lost for good by the first step that misses the guard: the run ends with it
exactly when it starts with it and every step meets the guard. -/
theorem exec_iff_allSteps (hstep : ∀ s a s', J s → step s a = some s' → J s')
    (hiff : ∀ s a s', J s → step s a = some s' → (P s' ↔ P s ∧ guard s a))
    {s s' : σ} {as : List ω} (hJ : J s) (he : Runs.exec step s as = some s') :
    P s' ↔ P s ∧ AllSteps step guard s as := by
  induction as generalizing s with
  | nil =>
    cases he
    exact ⟨fun h => ⟨h, trivial⟩, And.left⟩
  | cons a as ih =>
    obtain ⟨s₁, h₁, h₂⟩ := Option.bind_eq_some_iff.mp he
    rw [ih (hstep s a s₁ hJ h₁) h₂, hiff s a s₁ hJ h₁, and_assoc]
    refine and_congr_right fun _ => and_congr_right fun _ => ?_
    exact ⟨fun h s' hs' => Option.some.inj (h₁.symm.trans hs') ▸ h, fun h => h s₁ h₁⟩

/-- Where no step faults, no run does. -/
theorem exec_total (htotal : ∀ s a, ∃ s', step s a = some s') (s : σ) (as : List ω) :
    ∃ s', Runs.exec step s as = some s' := by
  induction as generalizing s with
  | nil => exact ⟨s, rfl⟩
  | cons a as ih =>
    obtain ⟨s₁, h₁⟩ := htotal s a
    obtain ⟨s', h'⟩ := ih s₁
    exact ⟨s', by simp only [Runs.exec, h₁, Option.bind_some, h']⟩

/-- A system that can follow every step of another, within a relation, can follow its runs. -/
theorem exec_simulation {τ : Type _} {step' : τ → ω → Option τ} {R : σ → τ → Prop}
    (hsim : ∀ s t a t', R s t → step' t a = some t' → ∃ s', step s a = some s' ∧ R s' t')
    {s : σ} {t t' : τ} {as : List ω} (hR : R s t) (he : Runs.exec step' t as = some t') :
    ∃ s', Runs.exec step s as = some s' ∧ R s' t' := by
  induction as generalizing s t with
  | nil =>
    cases he
    exact ⟨s, rfl, hR⟩
  | cons a as ih =>
    obtain ⟨t₁, ht₁, htas⟩ := Option.bind_eq_some_iff.mp he
    obtain ⟨s₁, hs₁, hR₁⟩ := hsim s t a t₁ hR ht₁
    obtain ⟨s', hs', hR'⟩ := ih hR₁ htas
    exact ⟨s', by simp only [Runs.exec, hs₁, Option.bind_some, hs'], hR'⟩

end Runs

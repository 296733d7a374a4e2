import Mathlib.Logic.Relation
import Mathlib.Order.WellFounded

/-!
# Loop — loops as partial step functions

The body of a loop is a function `step : σ → Option σ`: from the state at the head of an iteration
to the next one, or to `none` where the loop is left. Nothing bounds the number of iterations.

* `Reaches` — the states at the head of some iteration; `EndsIn` — the state the loop is left in;
* `reached_induction`, `reaches_induction` — what every iteration preserves holds at every one;
* `ends_of_decreasing` — a loop whose iterations decrease a well-founded measure is left;
* `not_ends_of_invariant` — one whose iterations can always go on is not.
-/

namespace Loop

variable {σ : Type _} (step : σ → Option σ)

/-- From `s` the loop comes to the state `s'`. -/
def Reaches (s s' : σ) : Prop := Relation.ReflTransGen (fun a b => step a = some b) s s'

def EndsIn (s e : σ) : Prop := Reaches step s e ∧ step e = none

def Ends (s : σ) : Prop := ∃ e, EndsIn step s e

variable {step} {s s' e : σ}

theorem Reaches.refl (s : σ) : Reaches step s s := Relation.ReflTransGen.refl

theorem Reaches.head (h : step s = some s') (hs' : Reaches step s' e) : Reaches step s e :=
  Relation.ReflTransGen.head h hs'

variable {I : σ → Prop}

/-- **The induction over a loop**, with what is known of the states that are reached. -/
theorem reached_induction (hI : I s) (hstep : ∀ a b, Reaches step s a → I a → step a = some b → I b)
    (h : Reaches step s e) : I e := by
  induction h with
  | refl => exact hI
  | tail hreach hlast ih => exact hstep _ _ hreach ih hlast

theorem reaches_induction (hI : I s) (hstep : ∀ a b, I a → step a = some b → I b)
    (h : Reaches step s e) : I e :=
  reached_induction hI (fun a b _ => hstep a b) h

/-- A loop that is not left yet goes on from the next state. -/
theorem Reaches.of_step (h : step s = some s') (hr : Reaches step s e) :
    s = e ∨ Reaches step s' e := by
  rcases Relation.ReflTransGen.cases_head hr with rfl | ⟨t, ht, hrest⟩
  · exact Or.inl rfl
  · rw [h] at ht
    cases ht
    exact Or.inr hrest

theorem Reaches.of_none (h : step s = none) (hr : Reaches step s e) : s = e := by
  rcases Relation.ReflTransGen.cases_head hr with rfl | ⟨t, ht, -⟩
  · rfl
  · rw [h] at ht
    cases ht

theorem endsIn_step_iff (h : step s = some s') : EndsIn step s e ↔ EndsIn step s' e := by
  constructor
  · rintro ⟨hr, hend⟩
    rcases hr.of_step h with rfl | hr
    · rw [h] at hend
      cases hend
    · exact ⟨hr, hend⟩
  · rintro ⟨hr, hend⟩
    exact ⟨hr.head h, hend⟩

theorem endsIn_of_none (h : step s = none) : EndsIn step s e ↔ s = e := by
  constructor
  · rintro ⟨hr, -⟩
    exact hr.of_none h
  · rintro rfl
    exact ⟨Reaches.refl s, h⟩

/-- How a loop goes on does not depend on where it started. -/
theorem Reaches.endsIn_iff (h : Reaches step s s') : EndsIn step s e ↔ EndsIn step s' e := by
  induction h with
  | refl => exact Iff.rfl
  | tail _ hlast ih => exact ih.trans (endsIn_step_iff hlast)

theorem Reaches.ends_iff (h : Reaches step s s') : Ends step s ↔ Ends step s' :=
  exists_congr fun _ => h.endsIn_iff

/-- **Termination.** Every iteration that is reached decreases the measure. -/
theorem ends_of_decreasing {β : Type _} {r : β → β → Prop} (hr : WellFounded r) (measure : σ → β)
    (h : ∀ a b, Reaches step s a → step a = some b → r (measure b) (measure a)) : Ends step s := by
  -- from every state that is reached, by induction on its measure
  have hfrom : ∀ x a, measure a = x → Reaches step s a → Ends step a := by
    intro x
    induction x using hr.induction with
    | _ x ih =>
      intro a hx ha
      cases hnext : step a with
      | none => exact ⟨a, (endsIn_of_none hnext).mpr rfl⟩
      | some b =>
        have hb : Reaches step s b := Relation.ReflTransGen.tail ha hnext
        obtain ⟨e, he⟩ := ih (measure b) (hx ▸ h a b ha hnext) b rfl hb
        exact ⟨e, (endsIn_step_iff hnext).mpr he⟩
  exact hfrom _ s rfl (Reaches.refl s)

/-- **Divergence.** While the invariant holds there is a next iteration. -/
theorem not_ends_of_invariant (hI : I s) (hstep : ∀ a, I a → ∃ b, step a = some b ∧ I b) :
    ¬ Ends step s := by
  rintro ⟨e, hreach, hend⟩
  have he : I e := by
    refine reaches_induction hI (fun a b ha hab => ?_) hreach
    obtain ⟨b', hb', hIb'⟩ := hstep a ha
    rw [hab] at hb'
    cases hb'
    exact hIb'
  obtain ⟨b, hb, -⟩ := hstep e he
  rw [hend] at hb
  cases hb

end Loop

import Mathlib.Data.List.Basic

/-!
# Walks of a partial step function

A step function that says which acts a state allows, and the ways from one state to another by
acts of a given kind.

## Key results

- `Walk.trans`: one walk after another
- `Walk.exists_of_measure`: a measure that some act always lowers is a bound on the way to a
  goal
-/

variable {σ α : Type*}

/-- The acts lead from the one state to the other, and each is allowed. -/
inductive Walk (step : σ → α → Option σ) (allowed : α → Prop) : σ → List α → σ → Prop where
  | nil (s : σ) : Walk step allowed s [] s
  | cons {s s' s'' : σ} {act : α} {acts : List α} (hact : allowed act)
      (hstep : step s act = some s') (h : Walk step allowed s' acts s'') :
      Walk step allowed s (act :: acts) s''

namespace Walk

variable {step : σ → α → Option σ} {allowed : α → Prop} {s s' s'' : σ} {acts acts' : List α}

theorem trans (h : Walk step allowed s acts s') (h' : Walk step allowed s' acts' s'') :
    Walk step allowed s (acts ++ acts') s'' := by
  induction h with
  | nil _ => exact h'
  | cons hact hstep _ ih => exact .cons hact hstep (ih h')

theorem allowed_of_mem (h : Walk step allowed s acts s') : ∀ act ∈ acts, allowed act := by
  induction h with
  | nil _ => simp
  | cons hact _ _ ih => simpa [hact] using ih

/-- Where some allowed act keeps the invariant and lowers the measure until the goal is met,
    the goal is no farther than the measure. -/
theorem exists_of_measure {P Q : σ → Prop} (measure : σ → Nat)
    (hlowers : ∀ s, P s → ¬Q s → ∃ act s', allowed act ∧ step s act = some s' ∧ P s' ∧
      measure s' < measure s) (h : P s) :
    ∃ acts s', Walk step allowed s acts s' ∧ acts.length ≤ measure s ∧ P s' ∧ Q s' := by
  generalize hn : measure s = n
  induction n using Nat.strongRecOn generalizing s with
  | _ n ih =>
    by_cases hgoal : Q s
    · exact ⟨[], s, .nil s, by simp, h, hgoal⟩
    · obtain ⟨act, s', hact, hstep, hkept, hlower⟩ := hlowers s h hgoal
      obtain ⟨acts, s'', hwalk, hlength, hdone⟩ := ih (measure s') (by omega) hkept rfl
      refine ⟨act :: acts, s'', .cons hact hstep hwalk, ?_, hdone⟩
      rw [List.length_cons]
      omega

end Walk

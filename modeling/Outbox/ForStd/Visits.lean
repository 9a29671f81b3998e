import Mathlib.Data.List.Basic

/-!
# Loops that stop at the first failure

A loop over a list comes to its elements in order, each time in some state, as long as the
element lets it go on. `Visits` says in which states it came to which elements; that it got
through is `Forall₂`.

## Key results

- `Visits.goesOn_of_lt`: every element but the last visited lets the loop go on
-/

namespace List

variable {α σ : Type*}

/-- The loop comes to the elements in the given states, up to the first that stops it. -/
inductive Visits (goesOn : α → σ → Prop) : List α → List σ → Prop where
  | nil : Visits goesOn [] []
  | stop {a : α} {as : List α} {s : σ} (h : ¬goesOn a s) : Visits goesOn (a :: as) [s]
  | next {a : α} {as : List α} {s : σ} {states : List σ} (h : goesOn a s)
      (hrest : Visits goesOn as states) : Visits goesOn (a :: as) (s :: states)

namespace Visits

variable {goesOn : α → σ → Prop} {as : List α} {states : List σ}

theorem goesOn_of_lt (h : Visits goesOn as states) {k : Nat} (hk : k + 1 < states.length)
    {s : σ} (hs : states[k]? = some s) : ∃ a, as[k]? = some a ∧ goesOn a s := by
  induction h generalizing k with
  | nil => simp at hs
  | stop _ => simp at hk
  | @next a as s' states hgoes _ ih =>
    cases k with
    | zero =>
      obtain rfl : s' = s := by simpa using hs
      exact ⟨a, rfl, hgoes⟩
    | succ k =>
      simp only [length_cons] at hk
      simpa using ih (by omega) (by simpa using hs)

end Visits

end List

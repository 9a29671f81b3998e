import Mathlib.Order.Bounds.Basic

/-!
# Least elements, as nullable values

An aggregate or an `ORDER BY ... LIMIT 1` subquery yields the least value of a set, or
NULL when the set is empty. `LeastOf s m` says so of a nullable value `m`. The least
value of a union is found by a second search cut off at the result of the first: what the
cut-off hides is never the least.

## Key results

- `LeastOf.head?`: the head of a sorted list is the least of its elements
- `LeastOf.union_cut`: a search, and a second one up to the result of the first
- `LeastOf.eq`: the value is determined by the set
-/

variable {α : Type*} [LinearOrder α]

/-- `m` is the least element of `s`, or `none` when `s` has no element. -/
def LeastOf (s : Set α) (m : Option α) : Prop :=
  match m with
  | none => ∀ x, x ∉ s
  | some a => IsLeast s a

namespace LeastOf

theorem eq {s : Set α} {m n : Option α} (hm : LeastOf s m) (hn : LeastOf s n) : m = n := by
  cases m with
  | none =>
    cases n with
    | none => rfl
    | some b => exact absurd hn.1 (hm b)
  | some a =>
    cases n with
    | none => exact absurd hm.1 (hn a)
    | some b => rw [hm.unique hn]

/-- The head of a sorted list. -/
theorem head? {l : List α} (hsorted : l.Pairwise (· ≤ ·)) : LeastOf {x | x ∈ l} l.head? := by
  cases l with
  | nil =>
    show ∀ x, x ∉ {x | x ∈ ([] : List α)}
    simp
  | cons a l =>
    refine ⟨List.mem_cons_self, fun x hx => ?_⟩
    cases hx with
    | head => exact le_refl a
    | tail _ hx => exact List.rel_of_pairwise_cons hsorted hx

/-- Where `t` lies below `top`, its values above the least of `s` are not needed, and all
    of them are below `top` when `s` is empty. -/
theorem union_cut {s t : Set α} {m n : Option α} (top : α) (hm : LeastOf s m)
    (htop : ∀ x ∈ t, x ≤ top) (hn : LeastOf {x ∈ t | x ≤ m.getD top} n) :
    LeastOf (s ∪ t) (m.merge min n) := by
  cases m with
  | none =>
    have hs : s ∪ t = {x ∈ t | x ≤ top} := by
      ext x
      constructor
      · intro hx
        have hxt : x ∈ t := hx.resolve_left (hm x)
        exact ⟨hxt, htop x hxt⟩
      · intro hx
        exact .inr hx.1
    rw [hs]
    cases n <;> exact hn
  | some a =>
    have hbelow : ∀ x ∈ s, a ≤ x := fun x hx => hm.2 hx
    cases n with
    | none =>
      -- all of `t` is above the cut-off
      refine ⟨.inl hm.1, fun x hx => ?_⟩
      cases hx with
      | inl hx => exact hbelow x hx
      | inr hx => exact le_of_lt (lt_of_not_ge fun hle => hn x ⟨hx, hle⟩)
    | some b =>
      have hba : b ≤ a := hn.1.2
      show IsLeast (s ∪ t) (min a b)
      rw [min_eq_right hba]
      refine ⟨.inr hn.1.1, fun x hx => ?_⟩
      cases hx with
      | inl hx => exact hba.trans (hbelow x hx)
      | inr hx =>
        by_cases hcut : x ≤ a
        · exact hn.2 ⟨hx, hcut⟩
        · exact hba.trans (le_of_lt (lt_of_not_ge hcut))

end LeastOf

import Mathlib.Algebra.BigOperators.Group.Finset.Piecewise
import Outbox.ForStd.Tally

/-!
# Opened and closed keys

In a list some elements open a key and some close one. Where no key is opened twice, and
none is closed more often than it is opened, the elements that open a key are as many as
those that close one and those whose key stays open.

## Key results

- `countP_isSome_eq_sum_tally`: the elements with a key, counted key by key
- `countP_opens_eq`: what is opened is closed or stays open
-/

namespace List

open Finset (sum_congr sum_add_distrib)

variable {α κ : Type*} [DecidableEq κ]

/-- Of a finite set of keys, one is hit if the key is in it. -/
theorem sum_hit {key : Option κ} {keys : Finset κ} (h : ∀ k, key = some k → k ∈ keys) :
    keys.sum (fun k => hit key k) = if key.isSome then 1 else 0 := by
  cases key with
  | none => simp
  | some k =>
    have hmem := h k rfl
    simp only [hit, Option.some.injEq, Option.isSome_some, if_true]
    rw [Finset.sum_ite_eq keys k fun _ => 1, if_pos hmem]

/-- The elements that have a key, counted key by key. -/
theorem countP_isSome_eq_sum_tally {f : α → Option κ} {l : List α} {keys : Finset κ}
    (h : ∀ a ∈ l, ∀ k, f a = some k → k ∈ keys) :
    l.countP (fun a => (f a).isSome) = keys.sum fun k => tally f k l := by
  induction l with
  | nil => simp
  | cons a l ih =>
    have hrest := ih fun a' ha' => h a' (mem_cons_of_mem a ha')
    simp only [tally_cons, sum_add_distrib, ← hrest, sum_hit (h a mem_cons_self), countP_cons]
    omega

/-- The tally of the keys with a property. -/
theorem tally_filter (f : α → Option κ) (p : κ → Bool) (k : κ) (l : List α) :
    tally (fun a => (f a).filter p) k l = if p k then tally f k l else 0 := by
  induction l with
  | nil => simp
  | cons a l ih =>
    have hhit : hit ((f a).filter p) k = if p k then hit (f a) k else 0 := by
      unfold hit
      cases f a with
      | none => simp
      | some k' =>
        by_cases heq : k' = k
        · subst heq
          cases hp : p k' <;> simp [hp]
        · cases p k' <;> simp [heq]
    rw [tally_cons, ih, hhit, tally_cons]
    split <;> rfl

/-- **What is opened is closed or stays open.** -/
theorem countP_opens_eq {opens closes : α → Option κ} {l : List α}
    (honce : ∀ k, tally opens k l ≤ 1) (hclosed : ∀ k, tally closes k l ≤ tally opens k l) :
    l.countP (fun a => (opens a).isSome) = l.countP (fun a => (closes a).isSome) +
      l.countP fun a => (opens a).any fun k => tally closes k l = 0 := by
  let keys : Finset κ := (l.filterMap opens).toFinset
  have hopens : ∀ a ∈ l, ∀ k, opens a = some k → k ∈ keys := fun a ha k hk =>
    mem_toFinset.mpr (mem_filterMap.mpr ⟨a, ha, hk⟩)
  -- what is closed was opened
  have hcloses : ∀ a ∈ l, ∀ k, closes a = some k → k ∈ keys := by
    intro a ha k hk
    have hpos : 0 < tally closes k l := tally_pos_iff.mpr ⟨a, ha, hk⟩
    obtain ⟨a', ha', hk'⟩ := tally_pos_iff.mp (Nat.lt_of_lt_of_le hpos (hclosed k))
    exact hopens a' ha' k hk'
  let opened : α → Option κ := fun a => (opens a).filter fun k => tally closes k l = 0
  have hopened : ∀ a ∈ l, ∀ k, opened a = some k → k ∈ keys := fun a ha k hk =>
    hopens a ha k (Option.filter_eq_some_iff.mp hk).1
  have hany : (fun a => (opens a).any fun k => decide (tally closes k l = 0)) =
      fun a => (opened a).isSome := by
    funext a
    show _ = ((opens a).filter _).isSome
    cases opens a with
    | none => rfl
    | some k => cases hp : decide (tally closes k l = 0) <;> simp [hp]
  rw [hany, countP_isSome_eq_sum_tally hopens, countP_isSome_eq_sum_tally hcloses,
    countP_isSome_eq_sum_tally hopened, ← sum_add_distrib]
  refine sum_congr rfl fun k _ => ?_
  have hone := honce k
  have hle := hclosed k
  rw [show tally opened k l = _ from tally_filter opens _ k l]
  by_cases hzero : tally closes k l = 0
  · simp [hzero]
  · simp only [hzero, decide_false, Bool.false_eq_true, if_false]
    omega

end List

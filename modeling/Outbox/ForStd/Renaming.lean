import Mathlib.Order.Monotone.Basic

/-!
# Order-preserving renamings

Two counters draw the same numbers, except that one of them also skips some. At each
point of a run the first stands at `n` and the second at `n + gap`, and neither `n` nor
`gap` ever decreases. `Renaming.ofGaps` takes a number the first has drawn to the number
the second drew with it, as one strictly increasing function on all of `Nat`.

## Key results

- `strictMono_ofGaps`: the renaming preserves the order
- `lt_iff_ofGaps_lt`: at every point, it takes the drawn numbers to the drawn numbers
-/

namespace Renaming

/-- The largest gap among the points at or below `m`. -/
def shift (points : List (Nat × Nat)) (m : Nat) : Nat :=
  points.foldr (fun p acc => if p.1 ≤ m then max p.2 acc else acc) 0

/-- Move each number by the gap it was drawn at. -/
def ofGaps (points : List (Nat × Nat)) (m : Nat) : Nat := m + shift points m

theorem le_shift {points : List (Nat × Nat)} {p : Nat × Nat} {m : Nat} (hp : p ∈ points)
    (hm : p.1 ≤ m) : p.2 ≤ shift points m := by
  induction points with
  | nil => cases hp
  | cons q points ih =>
    simp only [shift, List.foldr_cons] at ih ⊢
    cases hp with
    | head => rw [if_pos hm]; omega
    | tail _ hp =>
      have := ih hp
      split <;> omega

theorem shift_le {points : List (Nat × Nat)} {m g : Nat}
    (h : ∀ p ∈ points, p.1 ≤ m → p.2 ≤ g) : shift points m ≤ g := by
  induction points with
  | nil => exact Nat.zero_le g
  | cons q points ih =>
    have htail := ih fun p hp => h p (List.mem_cons_of_mem q hp)
    simp only [shift, List.foldr_cons] at htail ⊢
    split
    · rename_i hq
      have := h q List.mem_cons_self hq
      omega
    · exact htail

theorem shift_mono (points : List (Nat × Nat)) {m m' : Nat} (hm : m ≤ m') :
    shift points m ≤ shift points m' :=
  shift_le fun _ hp hpm => le_shift hp (Nat.le_trans hpm hm)

theorem strictMono_ofGaps (points : List (Nat × Nat)) : StrictMono (ofGaps points) := by
  intro m m' hm
  have := shift_mono points (Nat.le_of_lt hm)
  simp only [ofGaps]
  omega

/-- At every point the renaming takes the numbers below `n` to numbers below `n + gap`,
    and the others to the others. -/
theorem lt_iff_ofGaps_lt {points : List (Nat × Nat)}
    (hmono : points.Pairwise fun p q => p.1 ≤ q.1 ∧ p.2 ≤ q.2) {p : Nat × Nat}
    (hp : p ∈ points) (m : Nat) : m < p.1 ↔ ofGaps points m < p.1 + p.2 := by
  constructor
  · intro hlt
    have hle : shift points m ≤ p.2 := by
      refine shift_le fun q hq hqm => ?_
      -- a point below `m` comes before `p`
      have hbefore : points.Pairwise fun a b => (a.1 < b.1 → a.2 ≤ b.2) ∧
          (b.1 < a.1 → b.2 ≤ a.2) :=
        hmono.imp fun {a b} hab => ⟨fun _ => hab.2, fun hba => by omega⟩
      by_cases heq : q = p
      · exact Nat.le_of_eq (congrArg Prod.snd heq)
      · have hsymm := hbefore.forall_of_forall_of_flip (fun a _ => ⟨fun h => by omega,
          fun h => by omega⟩) (hbefore.imp fun {a b} hab => ⟨hab.2, hab.1⟩)
        exact (hsymm hq hp).1 (by omega)
    simp only [ofGaps]
    omega
  · intro hlt
    by_contra hge
    have := le_shift hp (Nat.le_of_not_lt hge)
    simp only [ofGaps] at hlt
    omega

/-- Where the boundary moves by `k` on both sides, the `k` numbers in between correspond. -/
theorem eq_add_of_boundary {f : Nat → Nat} (hf : StrictMono f) {n n' k : Nat}
    (hlow : ∀ m, m < n ↔ f m < n') (hhigh : ∀ m, m < n + k ↔ f m < n' + k) {i : Nat}
    (hi : i < k) : f (n + i) = n' + i := by
  have hge : ∀ j, n' + j ≤ f (n + j) := by
    intro j
    induction j with
    | zero =>
      have := (hlow n).not.mp (Nat.lt_irrefl n)
      simp only [Nat.add_zero]
      omega
    | succ j ih =>
      have hlt : f (n + j) < f (n + (j + 1)) := hf (by omega)
      omega
  have hle : ∀ j, j < k → f (n + (k - 1 - j)) ≤ n' + (k - 1 - j) := by
    intro j hj
    induction j with
    | zero =>
      have := (hhigh (n + (k - 1))).mp (by omega)
      simp only [Nat.sub_zero]
      omega
    | succ j ih =>
      have hprev := ih (by omega)
      have hlt : f (n + (k - 1 - (j + 1))) < f (n + (k - 1 - j)) := hf (by omega)
      omega
  have hup := hle (k - 1 - i) (by omega)
  have hidx : k - 1 - (k - 1 - i) = i := by omega
  rw [hidx] at hup
  exact Nat.le_antisymm hup (hge i)

end Renaming

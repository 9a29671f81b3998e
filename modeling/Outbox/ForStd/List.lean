import Mathlib.Data.List.Sort
import Mathlib.Data.List.Dedup
import Mathlib.Algebra.BigOperators.Group.List.Basic

/-!
# List lemmas for the standard library

Generic lemmas about sorted prefixes and one-element updates of lists. They name
nothing of the outbox: an `ORDER BY .. LIMIT n` over any table is `topN`, and a
loop that rewrites the first match is `updateFirst`.

## Key results

- `topN_append_topN`: truncating one part of a concatenation to its first `n`
  elements loses nothing of the first `n` of the whole
- `topN_flatMap_topN`: the same for any number of parts
- `topN_perm`: the first `n` elements do not depend on the order of the list
- `flatMap_filter_perm`: pairwise disjoint filters select a disjunction
- `filter_map_fixed`, `map_ite_map_fixed`: a map that moves nothing a predicate picks is
  applied before or after
-/

namespace List

/-! ## The first `n` elements in an order -/

section TopN

variable {α β : Type*} (r : α → α → Prop)

/-- `r` tells the elements of `l` apart: no two of them are tied. -/
def Untied (l : List α) : Prop := ∀ a ∈ l, ∀ b ∈ l, r a b → r b a → a = b

theorem Untied.subset {r : α → α → Prop} {l l' : List α} (h : Untied r l) (hsub : ∀ a ∈ l', a ∈ l) :
    Untied r l' :=
  fun a ha b hb => h a (hsub a ha) b (hsub b hb)

variable [DecidableRel r]

/-- The first `n` elements of `l` in the order `r`: `ORDER BY r LIMIT n`. -/
def topN (n : Nat) (l : List α) : List α := (l.insertionSort r).take n

variable {r}

theorem mem_of_mem_topN {n : Nat} {l : List α} {a : α} (h : a ∈ topN r n l) : a ∈ l :=
  (mem_insertionSort r).mp (mem_of_mem_take h)

/-- The elements before the insertion point decide the first `n`: what `s` holds
    past position `n` cannot move into the prefix. -/
theorem take_orderedInsert_take (x : α) (n : Nat) (s : List α) :
    (orderedInsert r x (s.take n)).take n = (orderedInsert r x s).take n := by
  induction s generalizing n with
  | nil => simp
  | cons y s ih =>
    cases n with
    | zero => simp
    | succ n =>
      simp only [take_succ_cons, orderedInsert_cons]
      split
      · cases n with
        | zero => simp
        | succ n => simp [take_take]
      · simp only [take_succ_cons, ih]

/-- Inserting the elements of `l` one by one only needs the first `n` of `s`. -/
theorem take_foldr_orderedInsert_take (l s : List α) (n : Nat) :
    ((l.foldr (orderedInsert r) (s.take n)).take n) =
      (l.foldr (orderedInsert r) s).take n := by
  induction l with
  | nil => simp [take_take]
  | cons x l ih =>
    simp only [foldr_cons]
    rw [← take_orderedInsert_take, ih, take_orderedInsert_take]

section Linear

variable [Std.Total r] [IsTrans α r]

/-- The selected prefix is in order. -/
theorem pairwise_topN (n : Nat) (l : List α) : (topN r n l).Pairwise r :=
  (pairwise_insertionSort r l).sublist (take_sublist _ _)

/-- Truncating the second part of a concatenation to its first `n` elements keeps
    the first `n` of the whole. -/
theorem topN_append_topN (n : Nat) (l l' : List α) :
    topN r n (l ++ topN r n l') = topN r n (l ++ l') := by
  have hsorted : (topN r n l').insertionSort r = topN r n l' :=
    (pairwise_topN n l').insertionSort_eq
  simp only [topN, insertionSort, foldr_append] at hsorted ⊢
  rw [hsorted, take_foldr_orderedInsert_take]

/-- Two arrangements of the same untied elements sort to the same list. -/
theorem insertionSort_perm {l l' : List α} (hties : Untied r l) (hp : l.Perm l') :
    l.insertionSort r = l'.insertionSort r := by
  have hperm : (l.insertionSort r).Perm (l'.insertionSort r) :=
    (perm_insertionSort r l).trans (hp.trans (perm_insertionSort r l').symm)
  refine hperm.eq_of_pairwise (fun a b ha hb hab hba => ?_)
    (pairwise_insertionSort r l) (pairwise_insertionSort r l')
  have ha' : a ∈ l := (mem_insertionSort r).mp ha
  have hb' : b ∈ l := hp.mem_iff.mpr ((mem_insertionSort r).mp hb)
  exact hties a ha' b hb' hab hba

/-- The first `n` elements do not depend on the order of an untied list. -/
theorem topN_perm {l l' : List α} (n : Nat) (hties : Untied r l) (hp : l.Perm l') :
    topN r n l = topN r n l' := by
  simp only [topN, insertionSort_perm hties hp]

/-- Truncating the first part of a concatenation keeps the first `n` of the whole. -/
theorem topN_topN_append {l l' : List α} (n : Nat) (hties : Untied r (l ++ l')) :
    topN r n (topN r n l ++ l') = topN r n (l ++ l') := by
  have hsub : ∀ a ∈ topN r n l ++ l', a ∈ l ++ l' := by
    intro a ha
    rw [mem_append] at ha ⊢
    exact ha.imp_left mem_of_mem_topN
  rw [topN_perm n (hties.subset hsub) perm_append_comm, topN_append_topN,
    topN_perm n hties perm_append_comm]

/-- Truncating every part of a union to its first `n` elements keeps the first `n`
    of the whole: no element of the global prefix is cut from its own part. -/
theorem topN_flatMap_topN {n : Nat} (parts : List β) (f : β → List α)
    (hties : Untied r (parts.flatMap f)) :
    topN r n (parts.flatMap fun p => topN r n (f p)) = topN r n (parts.flatMap f) := by
  induction parts with
  | nil => rfl
  | cons p parts ih =>
    simp only [flatMap_cons] at hties ⊢
    have hrest : Untied r (parts.flatMap f) :=
      hties.subset fun a ha => mem_append_right _ ha
    have hcut : Untied r (f p ++ parts.flatMap fun p => topN r n (f p)) := by
      refine hties.subset fun a ha => ?_
      rw [mem_append, mem_flatMap] at ha
      rw [mem_append, mem_flatMap]
      exact ha.imp_right fun ⟨q, hq, haq⟩ => ⟨q, hq, mem_of_mem_topN haq⟩
    rw [topN_topN_append n hcut, ← topN_append_topN n (f p), ih hrest, topN_append_topN]

/-- Filtering commutes with sorting an untied list. -/
theorem filter_insertionSort {l : List α} (p : α → Bool) (hties : Untied r l) :
    (l.insertionSort r).filter p = (l.filter p).insertionSort r := by
  have hperm : ((l.insertionSort r).filter p).Perm ((l.filter p).insertionSort r) :=
    ((perm_insertionSort r l).filter p).trans (perm_insertionSort r _).symm
  refine hperm.eq_of_pairwise (fun a b ha hb hab hba => ?_)
    ((pairwise_insertionSort r l).filter p) (pairwise_insertionSort r _)
  have ha' : a ∈ l := (mem_insertionSort r).mp (mem_of_mem_filter ha)
  have hb' : b ∈ l := mem_of_mem_filter ((mem_insertionSort r).mp hb)
  exact hties a ha' b hb' hab hba

end Linear

end TopN

/-! ## Filtering by one of several predicates -/

section Parts

variable {α : Type*}

/-- Two disjoint filters together select what their disjunction selects. -/
theorem filter_append_filter_perm {p q : α → Bool} {l : List α}
    (h : ∀ a ∈ l, ¬(p a = true ∧ q a = true)) :
    (l.filter p ++ l.filter q).Perm (l.filter fun a => p a || q a) := by
  induction l with
  | nil => rfl
  | cons a l ih =>
    have ih := ih fun b hb => h b (mem_cons_of_mem _ hb)
    have ha := h a mem_cons_self
    cases hp : p a with
    | true =>
      have hq : q a = false := by simpa [hp] using ha
      simpa [hp, hq] using ih
    | false =>
      cases hq : q a with
      | true =>
        have hmid : (l.filter p ++ a :: l.filter q).Perm (a :: (l.filter p ++ l.filter q)) :=
          perm_middle
        simpa [hp, hq] using hmid.trans (ih.cons a)
      | false => simpa [hp, hq] using ih

/-- Pairwise disjoint filters together select what some of them selects. -/
theorem flatMap_filter_perm {l : List α} (parts : List (α → Bool))
    (h : parts.Pairwise fun p q => ∀ a ∈ l, ¬(p a = true ∧ q a = true)) :
    (parts.flatMap fun p => l.filter p).Perm (l.filter fun a => parts.any fun p => p a) := by
  induction parts with
  | nil => simp
  | cons p parts ih =>
    rw [pairwise_cons] at h
    simp only [flatMap_cons, any_cons]
    refine ((ih h.2).append_left _).trans (filter_append_filter_perm fun a ha hpq => ?_)
    obtain ⟨q, hq, hqa⟩ := any_eq_true.mp hpq.2
    exact h.1 q hq a ha ⟨hpq.1, hqa⟩

end Parts

/-! ## Rewriting the first match -/

section UpdateFirst

variable {α : Type*}

/-- Rewrite the first element that satisfies `p`: a loop that mutates its first
    match and returns. -/
def updateFirst (p : α → Bool) (f : α → α) : List α → List α
  | [] => []
  | a :: l => if p a then f a :: l else a :: updateFirst p f l

/-- Where at most one element matches, rewriting the first match rewrites all of them. -/
theorem updateFirst_eq_map {p : α → Bool} (f : α → α) {l : List α}
    (h : l.Pairwise fun a b => ¬(p a = true ∧ p b = true)) :
    l.updateFirst p f = l.map fun a => if p a then f a else a := by
  induction l with
  | nil => rfl
  | cons a l ih =>
    rw [pairwise_cons] at h
    simp only [updateFirst, map_cons]
    split
    · rename_i hpa
      have htail : l.map (fun a => if p a then f a else a) = l := by
        rw [map_congr_left (g := id), map_id]
        intro b hb
        have hpb : p b ≠ true := fun hpb => h.1 b hb ⟨hpa, hpb⟩
        simp [hpb]
      rw [htail]
    · rw [ih h.2]

/-- Where at most one element matches, erasing the first match erases all of them. -/
theorem eraseP_eq_filter {p : α → Bool} {l : List α}
    (h : l.Pairwise fun a b => ¬(p a = true ∧ p b = true)) :
    l.eraseP p = l.filter fun a => !p a := by
  induction l with
  | nil => rfl
  | cons a l ih =>
    rw [pairwise_cons] at h
    by_cases hpa : p a = true
    · have htail : l.filter (fun a => !p a) = l := by
        rw [filter_eq_self]
        intro b hb
        have hpb : p b ≠ true := fun hpb => h.1 b hb ⟨hpa, hpb⟩
        simpa using hpb
      simp [hpa, htail]
    · simp [hpa, ih h.2]

/-- Where at most one element matches, two matches are the same element. -/
theorem eq_of_pairwise_not {p : α → Bool} {l : List α}
    (h : l.Pairwise fun a b => ¬(p a = true ∧ p b = true)) {a b : α} (ha : a ∈ l) (hb : b ∈ l)
    (hpa : p a = true) (hpb : p b = true) : a = b := by
  have h' : l.Pairwise fun a b => p a = true → p b = true → a = b :=
    h.imp fun hab hpa hpb => (hab ⟨hpa, hpb⟩).elim
  have hflip : l.Pairwise (flip fun a b => p a = true → p b = true → a = b) :=
    h.imp fun hab hpb hpa => (hab ⟨hpa, hpb⟩).elim
  exact h'.forall_of_forall_of_flip (fun _ _ _ _ => rfl) hflip ha hb hpa hpb

/-- Where at most one element matches, the matches are the first match. -/
theorem filter_eq_find?_toList {p : α → Bool} {l : List α}
    (h : l.Pairwise fun a b => ¬(p a = true ∧ p b = true)) :
    l.filter p = (l.find? p).toList := by
  induction l with
  | nil => rfl
  | cons a l ih =>
    rw [pairwise_cons] at h
    by_cases hpa : p a = true
    · have htail : l.filter p = [] := by
        rw [filter_eq_nil_iff]
        exact fun b hb hpb => h.1 b hb ⟨hpa, hpb⟩
      simp [hpa, htail]
    · simp [hpa, ih h.2]

end UpdateFirst

section FilterMap

variable {α β : Type*}

/-- Where `filterMap` repeats nothing, a value comes from one position only. -/
theorem getElem?_unique_of_nodup_filterMap {f : α → Option β} {l : List α}
    (h : (l.filterMap f).Nodup) {i j : Nat} {a b : α} {x : β} (hi : l[i]? = some a)
    (hj : l[j]? = some b) (ha : f a = some x) (hb : f b = some x) : i = j := by
  have hne : l.Pairwise fun a b => ∀ x, f a = some x → f b ≠ some x := by
    rw [Nodup, pairwise_filterMap] at h
    exact h.imp fun hab x ha hb => hab x ha x hb rfl
  rw [pairwise_iff_getElem] at hne
  obtain ⟨hilt, hia⟩ := getElem?_eq_some_iff.mp hi
  obtain ⟨hjlt, hjb⟩ := getElem?_eq_some_iff.mp hj
  rcases Nat.lt_trichotomy i j with hlt | heq | hgt
  · exact absurd (hjb ▸ hb) (hne i j hilt hjlt hlt x (hia ▸ ha))
  · exact heq
  · exact absurd (hia ▸ ha) (hne j i hjlt hilt hgt x (hjb ▸ hb))

end FilterMap

section Set

variable {α : Type*}

/-- What holds at every position of a list still does once one entry is replaced by another
    of which it holds. -/
theorem forall_getElem?_set {P : Nat → α → Prop} {l : List α}
    (h : ∀ (j : Nat) (a : α), l[j]? = some a → P j a) {i : Nat} {new : α} (hnew : P i new)
    (j : Nat) (a : α) (ha : (l.set i new)[j]? = some a) : P j a := by
  by_cases hij : i = j
  · subst hij
    rw [getElem?_set_self'] at ha
    cases hl : l[i]? with
    | none =>
      rw [hl] at ha
      cases ha
    | some old =>
      rw [hl] at ha
      cases ha
      exact hnew
  · rw [getElem?_set_ne hij] at ha
    exact h j a ha

end Set

/-! ## Masks

A map that moves none of the elements a predicate picks, before or after it. -/

section Mask

variable {α : Type*} {v : α → α} {p : α → Bool} {l : List α}
  (h : ∀ a ∈ l, p a = true ∨ p (v a) = true → v a = a)
include h

theorem eq_of_fixed {a : α} (ha : a ∈ l) : p (v a) = p a := by
  by_cases hpick : p a = true ∨ p (v a) = true
  · rw [h a ha hpick]
  · simp only [not_or, Bool.not_eq_true] at hpick
    rw [hpick.1, hpick.2]

theorem filter_map_fixed : (l.map v).filter p = l.filter p := by
  induction l with
  | nil => rfl
  | cons a l ih =>
    have hrest := ih fun b hb => h b (mem_cons_of_mem a hb)
    have hsame := eq_of_fixed h mem_cons_self
    by_cases hpick : p a = true
    · simp [hrest, hpick, h a mem_cons_self (.inl hpick)]
    · simp [hrest, hsame, hpick]

theorem filter_not_map_fixed :
    (l.map v).filter (fun a => !p a) = (l.filter fun a => !p a).map v := by
  rw [filter_map]
  congr 1
  refine filter_congr fun a ha => ?_
  simp [eq_of_fixed h ha]

theorem map_ite_map_fixed {g : α → α} (hg : ∀ a ∈ l, p a = true → v (g a) = g a) :
    ((l.map v).map fun a => if p a then g a else a) =
      (l.map fun a => if p a then g a else a).map v := by
  rw [map_map, map_map]
  refine map_congr_left fun a ha => ?_
  have hsame := eq_of_fixed h ha
  by_cases hpick : p a = true
  · simp [h a ha (.inl hpick), hpick, hg a ha hpick]
  · simp [hsame, hpick]

end Mask

/-- Erasing what a search passes over does not change what it finds. -/
theorem find?_eraseIdx_of_neg {α : Type*} {p : α → Bool} {l : List α} {i : Nat} {a : α}
    (ha : l[i]? = some a) (hp : p a = false) : (l.eraseIdx i).find? p = l.find? p := by
  induction l generalizing i with
  | nil => simp at ha
  | cons b l ih =>
    cases i with
    | zero =>
      obtain rfl : b = a := by simpa using ha
      simp [hp]
    | succ i => simp [find?_cons, ih (by simpa using ha)]

end List

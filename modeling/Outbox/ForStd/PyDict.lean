import Mathlib.Data.List.Nodup

/-!
# Python dicts

A `dict` is its entries in insertion order, no key twice. Assigning to a key that is there
keeps the entry's place, so assigning the value a key already has changes nothing.

## Key results

- `get?_set_self` / `get?_set_of_ne`: an assignment is seen at its key only
- `get?_pop_self` / `get?_pop_of_ne`: likewise a removal
- `set_eq_self`: assigning the value that is there
- `ofList_entries`: a dict is rebuilt from its entries
- `get?_update`: of two merged dicts the second wins
-/

variable {κ ν : Type*}

/-- A `dict`, in insertion order. -/
structure PyDict (κ ν : Type*) where
  entries : List (κ × ν)
  nodup : (entries.map Prod.fst).Nodup

namespace PyDict

@[ext] theorem ext {d e : PyDict κ ν} (h : d.entries = e.entries) : d = e := by
  cases d
  cases e
  cases h
  rfl

/-- `{}`. -/
def empty : PyDict κ ν := ⟨[], List.nodup_nil⟩

instance : EmptyCollection (PyDict κ ν) := ⟨empty⟩

/-- `not d`. -/
def isEmpty (d : PyDict κ ν) : Bool := d.entries.isEmpty

theorem eq_empty_of_isEmpty {d : PyDict κ ν} (h : d.isEmpty = true) : d = ∅ :=
  ext (List.isEmpty_iff.mp h)

variable [DecidableEq κ]

/-- `d.get(key)`. -/
def get? (d : PyDict κ ν) (key : κ) : Option ν := d.entries.lookup key

private theorem lookup_cons_if (entry : κ × ν) (rest : List (κ × ν)) (k : κ) :
    (entry :: rest).lookup k = if k = entry.1 then some entry.2 else rest.lookup k := by
  by_cases hk : k = entry.1
  · rw [if_pos hk, List.lookup_cons, beq_iff_eq.mpr hk]
  · rw [if_neg hk, List.lookup_cons, beq_eq_false_iff_ne.mpr hk]

@[simp] theorem get?_empty (key : κ) : (∅ : PyDict κ ν).get? key = none := rfl

/-! ## Assignment -/

/-- The entries after `d[key] = value`. -/
def setEntries (key : κ) (value : ν) : List (κ × ν) → List (κ × ν)
  | [] => [(key, value)]
  | entry :: rest =>
    if entry.1 = key then (key, value) :: rest else entry :: setEntries key value rest

theorem mem_keys_setEntries {key k : κ} {value : ν} {l : List (κ × ν)}
    (h : k ∈ (setEntries key value l).map Prod.fst) : k = key ∨ k ∈ l.map Prod.fst := by
  induction l with
  | nil => exact .inl (List.mem_singleton.mp h)
  | cons entry rest ih =>
    unfold setEntries at h
    split at h
    · rw [List.map_cons, List.mem_cons] at h
      exact h.imp id (List.mem_cons_of_mem _)
    · rw [List.map_cons, List.mem_cons] at h
      cases h with
      | inl h => exact .inr (h ▸ List.mem_cons_self)
      | inr h => exact (ih h).imp id (List.mem_cons_of_mem _)

theorem nodup_setEntries (key : κ) (value : ν) {l : List (κ × ν)}
    (h : (l.map Prod.fst).Nodup) : ((setEntries key value l).map Prod.fst).Nodup := by
  induction l with
  | nil => exact List.nodup_singleton key
  | cons entry rest ih =>
    rw [List.map_cons, List.nodup_cons] at h
    unfold setEntries
    split
    · rename_i hkey
      rw [List.map_cons, List.nodup_cons]
      exact ⟨hkey ▸ h.1, h.2⟩
    · rename_i hkey
      rw [List.map_cons, List.nodup_cons]
      refine ⟨fun hmem => ?_, ih h.2⟩
      exact (mem_keys_setEntries hmem).elim hkey h.1

/-- `d[key] = value`. -/
def set (d : PyDict κ ν) (key : κ) (value : ν) : PyDict κ ν :=
  ⟨setEntries key value d.entries, nodup_setEntries key value d.nodup⟩

theorem lookup_setEntries (key k : κ) (value : ν) (l : List (κ × ν)) :
    (setEntries key value l).lookup k = if k = key then some value else l.lookup k := by
  induction l with
  | nil => rw [setEntries, lookup_cons_if]
  | cons entry rest ih =>
    unfold setEntries
    by_cases hkey : entry.1 = key
    · rw [if_pos hkey, lookup_cons_if, lookup_cons_if, hkey]
      by_cases hk : k = key
      · rw [if_pos hk, if_pos hk]
      · rw [if_neg hk, if_neg hk, if_neg hk]
    · rw [if_neg hkey, lookup_cons_if, lookup_cons_if, ih]
      by_cases hk : k = key
      · have hne : k ≠ entry.1 := fun h => hkey (h.symm.trans hk)
        rw [if_neg hne, if_pos hk, if_pos hk]
      · rw [if_neg hk, if_neg hk]

@[simp] theorem get?_set_self (d : PyDict κ ν) (key : κ) (value : ν) :
    (d.set key value).get? key = some value := by
  simp [get?, set, lookup_setEntries]

theorem get?_set_of_ne (d : PyDict κ ν) {key k : κ} (h : k ≠ key) (value : ν) :
    (d.set key value).get? k = d.get? k := by
  simp [get?, set, lookup_setEntries, h]

/-- Assigning the value a key already has. -/
theorem set_eq_self {d : PyDict κ ν} {key : κ} {value : ν} (h : d.get? key = some value) :
    d.set key value = d := by
  have hentries : ∀ l : List (κ × ν), l.lookup key = some value →
      setEntries key value l = l := by
    intro l
    induction l with
    | nil => simp
    | cons entry rest ih =>
      intro hl
      rw [lookup_cons_if] at hl
      unfold setEntries
      by_cases hkey : entry.1 = key
      · rw [if_pos hkey.symm] at hl
        rw [if_pos hkey, ← hkey, ← Option.some_inj.mp hl]
      · rw [if_neg fun h => hkey h.symm] at hl
        rw [if_neg hkey, ih hl]
  exact ext (hentries d.entries h)

/-! ## Removal -/

/-- `d.pop(key, None)`. -/
def pop (d : PyDict κ ν) (key : κ) : PyDict κ ν where
  entries := d.entries.filter fun entry => entry.1 ≠ key
  nodup := d.nodup.sublist (List.filter_sublist.map _)

private theorem lookup_filter_ne (key k : κ) (l : List (κ × ν)) :
    (l.filter fun entry => entry.1 ≠ key).lookup k = if k = key then none else l.lookup k := by
  induction l with
  | nil => simp
  | cons entry rest ih =>
    by_cases hkey : entry.1 = key
    · rw [List.filter_cons_of_neg (by simp [hkey]), ih, lookup_cons_if]
      by_cases hk : k = key
      · rw [if_pos hk, if_pos hk]
      · rw [if_neg hk, if_neg hk, if_neg fun h => hk (h.trans hkey)]
    · rw [List.filter_cons_of_pos (by simp [hkey]), lookup_cons_if, ih, lookup_cons_if]
      by_cases hk : k = key
      · have hne : k ≠ entry.1 := fun h => hkey (h.symm.trans hk)
        rw [if_neg hne, if_pos hk, if_pos hk]
      · rw [if_neg hk, if_neg hk]

@[simp] theorem get?_pop_self (d : PyDict κ ν) (key : κ) : (d.pop key).get? key = none := by
  simp only [get?, pop, lookup_filter_ne, if_true]

theorem get?_pop_of_ne (d : PyDict κ ν) {key k : κ} (h : k ≠ key) :
    (d.pop key).get? k = d.get? k := by
  simp only [get?, pop, lookup_filter_ne, h, if_false]

/-! ## From entries -/

/-- `dict(pairs)`. -/
def ofList (l : List (κ × ν)) : PyDict κ ν := l.foldl (fun d e => d.set e.1 e.2) ∅

private theorem setEntries_of_not_mem {key : κ} (value : ν) {l : List (κ × ν)}
    (h : key ∉ l.map Prod.fst) : setEntries key value l = l ++ [(key, value)] := by
  induction l with
  | nil => rfl
  | cons entry rest ih =>
    rw [List.map_cons, List.mem_cons, not_or] at h
    unfold setEntries
    rw [if_neg fun hkey => h.1 hkey.symm, ih h.2]
    rfl

private theorem entries_foldl_set {l : List (κ × ν)} (d : PyDict κ ν)
    (h : ((d.entries ++ l).map Prod.fst).Nodup) :
    (l.foldl (fun d e => d.set e.1 e.2) d).entries = d.entries ++ l := by
  induction l generalizing d with
  | nil => simp
  | cons entry rest ih =>
    have hnew : entry.1 ∉ d.entries.map Prod.fst := by
      rw [List.map_append, List.nodup_append] at h
      intro hmem
      exact h.2.2 entry.1 hmem entry.1 (by simp) rfl
    have hset : (d.set entry.1 entry.2).entries = d.entries ++ [entry] :=
      setEntries_of_not_mem entry.2 hnew
    rw [List.foldl_cons, ih, hset]
    · simp
    · rw [hset]
      simpa using h

theorem ofList_entries (d : PyDict κ ν) : ofList d.entries = d := by
  refine ext ((entries_foldl_set ∅ ?_).trans (List.nil_append _))
  exact d.nodup

/-! ## Merging -/

/-- `{**d, **e}`. -/
def update (d e : PyDict κ ν) : PyDict κ ν := e.entries.foldl (fun d e => d.set e.1 e.2) d

/-- Of two merged dicts the second wins. -/
@[simp] theorem get?_update (d e : PyDict κ ν) (key : κ) :
    (d.update e).get? key = (e.get? key).or (d.get? key) := by
  have hentries : ∀ (l : List (κ × ν)) (d : PyDict κ ν), (l.map Prod.fst).Nodup →
      (l.foldl (fun d e => d.set e.1 e.2) d).get? key = (l.lookup key).or (d.get? key) := by
    intro l
    induction l with
    | nil => intro d _; rfl
    | cons entry rest ih =>
      intro d hnodup
      rw [List.map_cons, List.nodup_cons] at hnodup
      rw [List.foldl_cons, ih _ hnodup.2, lookup_cons_if]
      by_cases hkey : key = entry.1
      · -- no later entry has the key
        have hlast : rest.lookup key = none := by
          rw [List.lookup_eq_none_iff]
          intro pair hpair
          rw [bne_iff_ne]
          intro heq
          exact hnodup.1 (hkey ▸ heq ▸ List.mem_map_of_mem hpair)
        rw [if_pos hkey, hlast, hkey, get?_set_self]
        rfl
      · rw [if_neg hkey, get?_set_of_ne _ hkey]
  exact hentries e.entries d e.nodup

end PyDict

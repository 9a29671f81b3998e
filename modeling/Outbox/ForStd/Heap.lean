import Mathlib.Data.List.Basic

/-!
# Mutable objects

A heap holds mutable objects under the references they were created with. Creating one
changes no other, and so does whatever happens to an object that was created since: the
earlier ones are framed (`Keeps`).

## Key results

- `get?_new_self`: a new object
- `keeps_new` / `Keeps.modify`: creating an object, and changing one created since
-/

/-- The objects, by reference. -/
structure Heap (α : Type*) where
  objects : List α := []

namespace Heap

variable {α : Type*} {h h' h'' : Heap α}

/-- The object behind a reference. -/
def get? (h : Heap α) (ref : Nat) : Option α := h.objects[ref]?

/-- Create an object. -/
def new (h : Heap α) (a : α) : Nat × Heap α := (h.objects.length, ⟨h.objects ++ [a]⟩)

/-- Change an object in place. -/
def modify (h : Heap α) (ref : Nat) (f : α → α) : Heap α := ⟨h.objects.modify ref f⟩

@[simp] theorem get?_new_self (h : Heap α) (a : α) : (h.new a).2.get? (h.new a).1 = some a := by
  simp [new, get?]

@[simp] theorem get?_modify_self (h : Heap α) (ref : Nat) (f : α → α) :
    (h.modify ref f).get? ref = (h.get? ref).map f := by
  simp [modify, get?]

theorem get?_modify_of_ne (h : Heap α) {ref r : Nat} (hne : r ≠ ref) (f : α → α) :
    (h.modify ref f).get? r = h.get? r := by
  simp [modify, get?, Ne.symm hne]

/-! ## The frame -/

/-- The objects of `h` are as they were in `h'`. -/
def Keeps (h h' : Heap α) : Prop := ∀ ref a, h.get? ref = some a → h'.get? ref = some a

theorem Keeps.refl (h : Heap α) : h.Keeps h := fun _ _ hget => hget

theorem keeps_new (h : Heap α) (a : α) : h.Keeps (h.new a).2 := by
  intro ref b hget
  obtain ⟨hlt, -⟩ := List.getElem?_eq_some_iff.mp hget
  show (h.objects ++ [a])[ref]? = some b
  rw [List.getElem?_append_left hlt]
  exact hget

/-- An object that `h` does not have may change. -/
theorem Keeps.modify (hkeeps : h.Keeps h') {ref : Nat} (hnew : h.get? ref = none) (f : α → α) :
    h.Keeps (h'.modify ref f) := by
  intro r a hget
  have hne : r ≠ ref := by
    intro hr
    rw [hr, hnew] at hget
    cases hget
  rw [get?_modify_of_ne h' hne]
  exact hkeeps r a hget

@[simp] theorem get?_new_fst (h : Heap α) (a : α) : h.get? (h.new a).1 = none := by
  simp [new, get?]

end Heap

import Mathlib.Data.List.Basic

/-!
# Exit stacks

Code on a state that may raise, and the callbacks a context manager runs on its way out,
the last one pushed first. A callback is passed the exception that is pending: it lets it
pass, suppresses it, or raises one of its own in its place.

## Key results

- `unwind_append`: a stack on top of another unwinds first
- `unwind_log`: every callback runs, in order, whatever the others raise
-/

namespace ExitStack

variable {σ ε α κ : Type*}

/-- Code on a state: what it returns or raises, and the state it leaves. -/
abbrev Code (σ ε α : Type*) := σ → Except ε α × σ

/-- An exit callback: from the pending exception, whether it suppresses it. -/
abbrev Callback (σ ε : Type*) := Option ε → Code σ ε Bool

/-- One callback: what is pending after it. -/
def Callback.run (exit : Callback σ ε) (pending : Option ε) (s : σ) : Option ε × σ :=
  let r := exit pending s
  (match r.1 with
    | .error e => some e
    | .ok true => none
    | .ok false => pending, r.2)

@[simp] theorem Callback.run_snd (exit : Callback σ ε) (pending : Option ε) (s : σ) :
    (exit.run pending s).2 = (exit pending s).2 := rfl

/-- Every callback of a stack, the top one first. -/
def unwind (stack : List (Callback σ ε)) (pending : Option ε) (s : σ) : Option ε × σ :=
  stack.foldl (fun acc exit => exit.run acc.1 acc.2) (pending, s)

@[simp] theorem unwind_nil (pending : Option ε) (s : σ) : unwind [] pending s = (pending, s) :=
  rfl

@[simp] theorem unwind_cons (exit : Callback σ ε) (stack : List (Callback σ ε)) (pending : Option ε)
    (s : σ) : unwind (exit :: stack) pending s =
      unwind stack (exit.run pending s).1 (exit.run pending s).2 := rfl

theorem unwind_append (top bottom : List (Callback σ ε)) (pending : Option ε) (s : σ) :
    unwind (top ++ bottom) pending s =
      unwind bottom (unwind top pending s).1 (unwind top pending s).2 := by
  simp [unwind, List.foldl_append]

/-- Callbacks that each leave an entry in a record leave one entry each, in order. -/
theorem unwind_log (log : σ → List κ) (exit : α → Callback σ ε) (tag : α → κ)
    (h : ∀ a pending s, log (exit a pending s).2 = log s ++ [tag a]) (as : List α)
    (pending : Option ε) (s : σ) :
    log (unwind (as.map exit) pending s).2 = log s ++ as.map tag := by
  induction as generalizing pending s with
  | nil => simp
  | cons a as ih =>
    rw [List.map_cons, unwind_cons, ih, Callback.run_snd, h]
    simp

end ExitStack

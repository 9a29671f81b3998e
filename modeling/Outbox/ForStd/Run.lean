import Mathlib.Data.List.Basic

/-!
# Runs of a deterministic machine

A machine is a step function `σ → ι → ο × σ`. `Run.trace` lists what a run does, one
entry per input, and `Run.final` is the state it ends in. The one induction over runs is
`trace_induction`: a property that each entry carries from `before` to `after` is
carried from any point of the run to any later one.

## Key results

- `trace_getElem?`: the entry at index `k` is the step taken after `k` inputs
- `trace_induction`: the induction rule, between any two points of a run
- `trace_invariant`: the rule from the start of the run
- `trace_forall`: the rule over the entries of one run
- `exists_exit`: a run with more good entries than its measure leaves
- `LastBefore.succ`: the last entry of a kind, one step on
-/

namespace Run

variable {σ ι ο : Type*}

/-- One step of a run. -/
structure Entry (σ ι ο : Type*) where
  before : σ
  input : ι
  output : ο
  after : σ

/-- The state after a list of inputs. -/
def final (step : σ → ι → ο × σ) (s : σ) (is : List ι) : σ :=
  is.foldl (fun s i => (step s i).2) s

/-- The entries of a run, in order. -/
def trace (step : σ → ι → ο × σ) : σ → List ι → List (Entry σ ι ο)
  | _, [] => []
  | s, i :: is =>
    let r := step s i
    { before := s, input := i, output := r.1, after := r.2 } :: trace step r.2 is

variable {step : σ → ι → ο × σ}

@[simp] theorem final_nil (s : σ) : final step s [] = s := rfl

@[simp] theorem final_cons (s : σ) (i : ι) (is : List ι) :
    final step s (i :: is) = final step (step s i).2 is := rfl

@[simp] theorem length_trace (s : σ) (is : List ι) : (trace step s is).length = is.length := by
  induction is generalizing s with
  | nil => rfl
  | cons i is ih => simp [trace, ih]

/-- The entry at index `k` is the step taken from the state after `k` inputs. -/
theorem trace_getElem? {s : σ} {is : List ι} {k : Nat} {e : Entry σ ι ο}
    (h : (trace step s is)[k]? = some e) :
    is[k]? = some e.input ∧ e.before = final step s (is.take k) ∧
      step e.before e.input = (e.output, e.after) := by
  induction is generalizing s k with
  | nil => simp [trace] at h
  | cons i is ih =>
    cases k with
    | zero =>
      simp only [trace, List.getElem?_cons_zero, Option.some.injEq] at h
      subst h
      simp
    | succ k =>
      simp only [trace, List.getElem?_cons_succ] at h
      simpa using ih h

theorem lt_length_of_trace {s : σ} {is : List ι} {k : Nat} {e : Entry σ ι ο}
    (h : (trace step s is)[k]? = some e) : k < is.length := by
  have hlt := (List.getElem?_eq_some_iff.mp h).1
  simpa using hlt

/-- The state an entry leaves is the state after one more input. -/
theorem trace_after {s : σ} {is : List ι} {k : Nat} {e : Entry σ ι ο}
    (h : (trace step s is)[k]? = some e) : e.after = final step s (is.take (k + 1)) := by
  obtain ⟨hinput, hbefore, hstep⟩ := trace_getElem? h
  obtain ⟨hlt, hget⟩ := List.getElem?_eq_some_iff.mp hinput
  rw [List.take_succ_eq_append_getElem hlt, final, List.foldl_append, hget]
  show e.after = (step (final step s (is.take k)) e.input).2
  rw [← hbefore, hstep]

/-- Every index below the length has an entry. -/
theorem exists_trace (step : σ → ι → ο × σ) {s : σ} {is : List ι} {k : Nat} (hk : k < is.length) :
    ∃ e, (trace step s is)[k]? = some e :=
  ⟨_, List.getElem?_eq_getElem (by simpa using hk)⟩

/-- **The induction rule**: what every entry carries from `before` to `after` holds at
    any point after one at which it holds. -/
theorem trace_induction (step : σ → ι → ο × σ) {s : σ} {is : List ι} {P : Nat → σ → Prop}
    {m n : Nat} (hmn : m ≤ n) (hn : n ≤ is.length) (hm : P m (final step s (is.take m)))
    (hstep : ∀ k e, m ≤ k → k < n → (trace step s is)[k]? = some e → P k e.before →
      P (k + 1) e.after) :
    P n (final step s (is.take n)) := by
  induction n with
  | zero =>
    have hm0 : m = 0 := by omega
    exact hm0 ▸ hm
  | succ n ih =>
    by_cases hlast : m = n + 1
    · exact hlast ▸ hm
    · have hle : m ≤ n := by omega
      have hP := ih hle (Nat.le_of_succ_le hn) fun k e hmk hkn =>
        hstep k e hmk (Nat.lt_succ_of_lt hkn)
      obtain ⟨e, he⟩ := exists_trace step (s := s) hn
      rw [← (trace_getElem? he).2.1] at hP
      rw [← trace_after he]
      exact hstep n e hle (Nat.lt_succ_self n) he hP

/-- The rule between two entries: from the state the first leaves to the state the second
    finds. -/
theorem trace_between {s : σ} {is : List ι} {P : σ → Prop} {i j : Nat} {e e' : Entry σ ι ο}
    (hi : (trace step s is)[i]? = some e) (hj : (trace step s is)[j]? = some e') (hij : i < j)
    (hP : P e.after)
    (hstep : ∀ k e, i < k → k < j → (trace step s is)[k]? = some e → P e.before → P e.after) :
    P e'.before := by
  rw [(trace_getElem? hj).2.1]
  refine trace_induction step (P := fun _ => P) hij
    (Nat.le_of_lt (lt_length_of_trace hj)) ?_ fun k e hk hkj => hstep k e hk hkj
  rw [← trace_after hi]
  exact hP

/-- What every input of a run carries on holds at its end. -/
theorem final_induction (step : σ → ι → ο × σ) {P : σ → Prop} {s : σ} (hs : P s) (is : List ι)
    (hstep : ∀ s, ∀ i ∈ is, P s → P (step s i).2) : P (final step s is) := by
  induction is generalizing s with
  | nil => exact hs
  | cons i is ih =>
    exact ih (hstep s i List.mem_cons_self hs) fun s' i' hi' =>
      hstep s' i' (List.mem_cons_of_mem i hi')

/-- An invariant of the step holds before every entry and at the end. -/
theorem final_invariant {P : σ → Prop} (hstep : ∀ s i, P s → P (step s i).2) {s : σ} (hs : P s)
    (is : List ι) : P (final step s is) :=
  final_induction step hs is fun s i _ => hstep s i

theorem trace_invariant {P : σ → Prop} (hstep : ∀ s i, P s → P (step s i).2) {s : σ} (hs : P s)
    {is : List ι} {k : Nat} {e : Entry σ ι ο} (h : (trace step s is)[k]? = some e) :
    P e.before ∧ P e.after := by
  rw [(trace_getElem? h).2.1, trace_after h]
  exact ⟨final_invariant hstep hs _, final_invariant hstep hs _⟩

/-- **The measure rule**: where every entry leaves through `exit` or carries `P` on without
    raising the measure, and a good one lowers it, a run with more good entries than the
    measure allows has an exit. -/
theorem exists_exit (step : σ → ι → ο × σ) {P : σ → Prop} {exit : Entry σ ι ο → Prop}
    {good : Entry σ ι ο → Bool} (measure : σ → ℕ) {s : σ} (hs : P s) (is : List ι)
    (hstep : ∀ e ∈ trace step s is, step e.before e.input = (e.output, e.after) → P e.before →
      exit e ∨ P e.after ∧
        measure e.after + (if good e then 1 else 0) ≤ measure e.before)
    (hgood : measure s < (trace step s is).countP good) :
    ∃ e ∈ trace step s is, exit e := by
  induction is generalizing s with
  | nil => simp [trace] at hgood
  | cons i is ih =>
    cases hstep _ List.mem_cons_self rfl hs with
    | inl hexit => exact ⟨_, List.mem_cons_self, hexit⟩
    | inr hcarried =>
      have hP : P (step s i).2 := hcarried.1
      have hle := hcarried.2
      -- the first entry is counted on both sides
      simp only [trace, List.countP_cons] at hgood hle
      obtain ⟨e, he, hexit⟩ :=
        ih hP (fun e he => hstep e (List.mem_cons_of_mem _ he)) (by omega)
      exact ⟨e, List.mem_cons_of_mem _ he, hexit⟩

/-! ## The last entry of a kind -/

section Kinds

variable {α : Type*} {p : α → Prop} {t : List α} {a : α} {m n : ℕ}

/-- No entry strictly between the two points is of the kind. -/
def Without (p : α → Prop) (t : List α) (m n : ℕ) : Prop :=
  ∀ k a, m < k → k < n → t[k]? = some a → ¬p a

/-- The last entry of the kind before the point `n` is at `m`. -/
structure LastBefore (p : α → Prop) (t : List α) (n m : ℕ) : Prop where
  lt : m < n
  entry : ∃ a, t[m]? = some a ∧ p a
  since : Without p t m n

instance [DecidablePred p] : Decidable (Without p t m n) :=
  decidable_of_iff (∀ k < n, m < k → ∀ a ∈ t[k]?, ¬p a)
    ⟨fun h k a hmk hkn ha => h k hkn hmk a ha, fun h k hkn hmk a ha => h k a hmk hkn ha⟩

instance [DecidablePred p] : Decidable (LastBefore p t n m) :=
  decidable_of_iff (m < n ∧ (∃ a ∈ t[m]?, p a) ∧ Without p t m n)
    ⟨fun ⟨hlt, ⟨a, ha, hp⟩, hsince⟩ => ⟨hlt, ⟨a, ha, hp⟩, hsince⟩,
      fun ⟨hlt, ⟨a, ha, hp⟩, hsince⟩ => ⟨hlt, ⟨a, ha, hp⟩, hsince⟩⟩

theorem without_self (p : α → Prop) (t : List α) (n : ℕ) : Without p t n (n + 1) :=
  fun _ _ hlt hlt' => absurd hlt (by omega)

theorem Without.succ (h : Without p t m n) (ha : t[n]? = some a) (hp : ¬p a) :
    Without p t m (n + 1) := by
  intro k a' hmk hkn ha'
  by_cases hk : k = n
  · subst hk
    rw [ha] at ha'
    exact Option.some_inj.mp ha' ▸ hp
  · exact h k a' hmk (by omega) ha'

/-- The entry at the point itself is of the kind. -/
theorem lastBefore_self (ha : t[n]? = some a) (hp : p a) : LastBefore p t (n + 1) n where
  lt := Nat.lt_succ_self n
  entry := ⟨a, ha, hp⟩
  since := without_self p t n

/-- The entry at the point itself is of another kind. -/
theorem LastBefore.succ (h : LastBefore p t n m) (ha : t[n]? = some a) (hp : ¬p a) :
    LastBefore p t (n + 1) m where
  lt := Nat.lt_succ_of_lt h.lt
  entry := h.entry
  since := h.since.succ ha hp

end Kinds

end Run

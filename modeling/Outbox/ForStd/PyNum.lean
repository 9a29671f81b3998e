import Outbox.ForStd.Binary64

/-!
# Python numbers

A Python number is an `int`, of any size, or a `float`, which is a double. Integer
arithmetic is exact; an operation with a float among its operands converts the other one
first, which raises `OverflowError` for an integer beyond the doubles. Comparisons are
between the exact values, and false where one side is a NaN.
-/

/-- `OverflowError`. -/
inductive OverflowError where
  /-- `int too large to convert to float` -/
  | intTooLarge
  /-- `(34, 'Numerical result out of range')` -/
  | outOfRange
deriving DecidableEq, Repr

/-- The C library's `pow`, which a float power ends in. A positive base and an exponent that
    is not negative have a power that is neither a NaN nor negative. -/
structure Libm where
  pow : Binary64 → Binary64 → Binary64
  pow_nonneg : ∀ p hp q hq, 0 < p → 0 ≤ q →
    ∃ v, (pow (.finite p hp) (.finite q hq)).value = some v ∧ 0 ≤ v

/-- A `pow` that is correctly rounded at the whole exponents. -/
def Libm.rounded : Libm where
  pow
    | .finite p _, .finite q _ => .round (p ^ ⌊q⌋.toNat)
    | _, _ => .nan
  pow_nonneg := fun _ _ q _ hp _ => Binary64.round_nonneg (pow_pos hp ⌊q⌋.toNat).le

/-- An `int` or a `float`. -/
inductive PyNum where
  | int (n : ℤ)
  | float (x : Binary64)
deriving DecidableEq

namespace PyNum

/-- `float(x)`. -/
def toFloat : PyNum → Except OverflowError Binary64
  | .int n =>
    match Binary64.round n with
    | .inf _ => .error .intTooLarge
    | x => .ok x
  | .float x => .ok x

/-- The number itself; nothing for a NaN. -/
def value : PyNum → Option (WithBot (WithTop ℚ))
  | .int n => some (((n : ℚ) : WithTop ℚ) : WithBot (WithTop ℚ))
  | .float x => x.value

/-- `a < b`. -/
def lt (a b : PyNum) : Bool :=
  match a.value, b.value with
  | some u, some v => decide (u < v)
  | _, _ => false

/-- `a <= b`. -/
def le (a b : PyNum) : Bool :=
  match a.value, b.value with
  | some u, some v => decide (u ≤ v)
  | _, _ => false

/-- `min(a, b)`: `a` unless `b` is less. -/
def min (a b : PyNum) : PyNum := if b.lt a then b else a

/-- Whether `if x:` takes its branch. -/
def truthy (x : PyNum) : Bool := decide (x.value ≠ some 0)

/-- `-x`. -/
def neg : PyNum → PyNum
  | .int n => .int (-n)
  | .float x => .float x.neg

/-- `a + b`. -/
def add : PyNum → PyNum → Except OverflowError PyNum
  | .int m, .int n => .ok (.int (m + n))
  | a, b => do
    let x ← a.toFloat
    let y ← b.toFloat
    return .float (x.add y)

/-- `a * b`. -/
def mul : PyNum → PyNum → Except OverflowError PyNum
  | .int m, .int n => .ok (.int (m * n))
  | a, b => do
    let x ← a.toFloat
    let y ← b.toFloat
    return .float (x.mul y)

/-- `x / 2`. -/
def half : PyNum → Except OverflowError Binary64
  | .int n =>
    match Binary64.round (n / 2) with
    | .inf _ => .error .intTooLarge
    | x => .ok x
  | .float x => .ok x.half

/-- `x ** y` of floats, where `y` is a whole number and not negative. -/
def floatPow (libm : Libm) (x y : Binary64) : Except OverflowError Binary64 :=
  match x, y with
  | .finite p hp, .finite q hq =>
    if q = 0 then .ok (.ofInt 1 (by decide))
    else if p = 1 then .ok (.ofInt 1 (by decide))
    else
      match libm.pow (.finite p hp) (.finite q hq) with
      | .inf _ => .error .outOfRange
      | r => .ok r
  | .inf negative, .finite q _ =>
    if q = 0 then .ok (.ofInt 1 (by decide))
    else .ok (.inf (negative && decide (q.num % 2 = 1)))
  | .nan, .finite q _ => if q = 0 then .ok (.ofInt 1 (by decide)) else .ok .nan
  | _, y => .ok y

/-- `x ** k` for a `k` that is not negative. -/
def pow (libm : Libm) (x : PyNum) (k : ℕ) : Except OverflowError PyNum :=
  match x with
  | .int n => .ok (.int (n ^ k))
  | .float x => do
    let y ← (PyNum.int k).toFloat
    return .float (← floatPow libm x y)

/-! ## Order -/

@[simp]
theorem value_float (x : Binary64) : (float x).value = x.value := rfl

@[simp]
theorem value_int (n : ℤ) :
    (int n).value = some (((n : ℚ) : WithTop ℚ) : WithBot (WithTop ℚ)) := rfl

theorem le_iff {a b : PyNum} :
    a.le b = true ↔ ∃ u v, a.value = some u ∧ b.value = some v ∧ u ≤ v := by
  unfold le
  cases a.value <;> cases b.value <;> simp

theorem lt_iff {a b : PyNum} :
    a.lt b = true ↔ ∃ u v, a.value = some u ∧ b.value = some v ∧ u < v := by
  unfold lt
  cases a.value <;> cases b.value <;> simp

/-- A number that passes a check against zero is a NaN or positive. -/
theorem value_of_le_zero_false {x : PyNum} (h : x.le (.int 0) = false) :
    x.value = none ∨ ∃ v, x.value = some v ∧ 0 < v := by
  cases hx : x.value with
  | none => exact Or.inl rfl
  | some v =>
    refine Or.inr ⟨v, rfl, not_le.mp fun hle => ?_⟩
    rw [le_iff.mpr ⟨v, 0, hx, rfl, hle⟩] at h
    cases h

theorem value_min {a b : PyNum} {u v : WithBot (WithTop ℚ)} (ha : a.value = some u)
    (hb : b.value = some v) : (a.min b).value = some (Min.min u v) := by
  unfold PyNum.min
  by_cases h : v < u
  · rw [if_pos (lt_iff.mpr ⟨v, u, hb, ha, h⟩), hb, min_eq_right h.le]
  · have hle : ¬ b.lt a = true := by
      rw [lt_iff, ha, hb]
      rintro ⟨v', u', hv, hu, hlt⟩
      cases hv
      cases hu
      exact h hlt
    rw [if_neg hle, ha, min_eq_left (not_lt.mp h)]

/-- A NaN on the left stays. -/
theorem min_of_value_none {a b : PyNum} (ha : a.value = none) : a.min b = a := by
  have hle : ¬ b.lt a = true := by
    rw [lt_iff, ha]
    rintro ⟨_, _, _, hu, _⟩
    cases hu
  exact if_neg hle

/-! ## Conversion -/

theorem toFloat_int_of_lt {n : ℤ} (hn : 0 ≤ n) (h : n < Binary64.overflowBound) :
    ∃ hrep, (int n).toFloat = .ok (.finite (Binary64.nearest n) hrep) := by
  have hn' : (0 : ℚ) ≤ n := Int.cast_nonneg hn
  have h' : (n : ℚ) < (Binary64.overflowBound : ℤ) := Int.cast_lt.mpr h
  obtain ⟨hrep, heq⟩ := Binary64.round_of_lt hn' h'
  exact ⟨hrep, by simp only [toFloat, heq]⟩

theorem toFloat_int_of_le {n : ℤ} (h : Binary64.overflowBound ≤ n) :
    (int n).toFloat = .error .intTooLarge := by
  have h' : ((Binary64.overflowBound : ℤ) : ℚ) ≤ n := Int.cast_le.mpr h
  have heq := Binary64.round_of_le h'
  simp only [toFloat, heq]

/-- A conversion that succeeds keeps what is not negative so, or a NaN. -/
theorem toFloat_nonneg {a : PyNum} {x : Binary64} (h : a.toFloat = .ok x)
    (ha : a.value = none ∨ ∃ v, a.value = some v ∧ 0 ≤ v) :
    x.value = none ∨ ∃ v, x.value = some v ∧ 0 ≤ v := by
  cases a with
  | float y =>
    cases h
    exact ha
  | int n =>
    obtain hnone | ⟨v, hv, hv0⟩ := ha
    · cases hnone
    · cases hv
      have hn : 0 ≤ n := by exact_mod_cast hv0
      rcases lt_or_ge n Binary64.overflowBound with hlt | hge
      · obtain ⟨hrep, heq⟩ := toFloat_int_of_lt hn hlt
        rw [heq] at h
        cases h
        have hq : (0 : ℚ) ≤ n := Int.cast_nonneg hn
        exact Or.inr ⟨_, rfl, by exact_mod_cast Binary64.nearest_nonneg hq⟩
      · rw [toFloat_int_of_le hge] at h
        cases h

/-- With a float among the factors, both are converted. -/
theorem mul_of_mixed {a b : PyNum} (h : ∀ m n, a = .int m → b ≠ .int n) :
    a.mul b = (do
      let x ← a.toFloat
      let y ← b.toFloat
      return .float (x.mul y)) := by
  cases a with
  | float x => rfl
  | int m =>
    cases b with
    | float y => rfl
    | int n => exact absurd rfl (h m n rfl)

/-- Half of a number between zero and two, and of its opposite. -/
theorem half_of_le_two {x : PyNum} (hlo : (float (.ofInt 0 (by decide))).le x = true)
    (hhi : x.le (float (.ofInt 2 (by decide))) = true) :
    ∃ a ha b hb, x.neg.half = .ok (.finite a ha) ∧ x.half = .ok (.finite b hb) ∧
      -1 ≤ a ∧ b ≤ 1 := by
  obtain ⟨u, v, hu, hv, hle⟩ := le_iff.mp hlo
  obtain ⟨v', w, hv', hw, hle'⟩ := le_iff.mp hhi
  cases hu
  cases hw
  rw [hv] at hv'
  cases hv'
  cases x with
  | int n =>
    cases hv
    have h0 : (0 : ℚ) ≤ n := by exact_mod_cast hle
    have h2 : (n : ℚ) ≤ 2 := by exact_mod_cast hle'
    obtain ⟨a, ha, haeq, ha', -⟩ :=
      Binary64.round_abs_le_one (q := ((-n : ℤ) : ℚ) / 2) (by push_cast; linarith)
        (by push_cast; linarith)
    obtain ⟨b, hb, hbeq, -, hb'⟩ :=
      Binary64.round_abs_le_one (q := (n : ℚ) / 2) (by linarith) (by linarith)
    exact ⟨a, ha, b, hb, by simp only [neg, half, haeq], by simp only [half, hbeq], ha', hb'⟩
  | float x =>
    rcases Binary64.exists_of_value_nonneg hv hle with rfl | ⟨q, hq, rfl, hq0⟩
    · -- an infinity is past the bound
      cases hv
      exact absurd hle' (by decide)
    · cases hv
      have h2 : q ≤ 2 := by exact_mod_cast hle'
      obtain ⟨a, ha, haeq, ha', -⟩ :=
        Binary64.round_abs_le_one (q := -q / 2) (by linarith) (by linarith)
      obtain ⟨b, hb, hbeq, -, hb'⟩ :=
        Binary64.round_abs_le_one (q := q / 2) (by linarith) (by linarith)
      refine ⟨a, ha, b, hb, ?_, ?_, ha', hb'⟩
      · simp only [neg, half, Binary64.neg, Binary64.half, haeq]
      · simp only [half, Binary64.half, hbeq]

/-! ## Powers -/

/-- A float power of a positive base (or a NaN) is not negative, if it is a number at all. -/
theorem floatPow_cases (libm : Libm) {x : Binary64}
    (hx : x.value = none ∨ ∃ v, x.value = some v ∧ 0 < v) {q : ℚ} {hq : Binary64.Representable q}
    (hq0 : 0 ≤ q) :
    (∃ e, floatPow libm x (.finite q hq) = .error e) ∨
    ∃ r, floatPow libm x (.finite q hq) = .ok r ∧
      (r.value = none ∨ ∃ v, r.value = some v ∧ 0 ≤ v) := by
  have hone : ∃ v, (Binary64.ofInt 1 (by decide)).value = some v ∧ 0 ≤ v := ⟨_, rfl, by decide⟩
  cases x with
  | nan =>
    simp only [floatPow]
    split
    · exact Or.inr ⟨_, rfl, Or.inr hone⟩
    · exact Or.inr ⟨_, rfl, Or.inl rfl⟩
  | inf negative =>
    cases negative with
    | true =>
      obtain h | ⟨v, h, hv⟩ := hx
      · cases h
      · cases h
        exact absurd hv (by decide)
    | false =>
      simp only [floatPow, Bool.false_and]
      split
      · exact Or.inr ⟨_, rfl, Or.inr hone⟩
      · exact Or.inr ⟨_, rfl, Or.inr ⟨⊤, rfl, le_top⟩⟩
  | finite p hp =>
    have hp0 : 0 < p := by
      obtain h | ⟨v, h, hv⟩ := hx
      · cases h
      · cases h
        exact_mod_cast hv
    -- two finite numbers: the C library is asked
    obtain ⟨v, hv, hv0⟩ := libm.pow_nonneg p hp q hq hp0 hq0
    simp only [floatPow]
    split
    · exact Or.inr ⟨_, rfl, Or.inr hone⟩
    · split
      · exact Or.inr ⟨_, rfl, Or.inr hone⟩
      · split
        · exact Or.inl ⟨_, rfl⟩
        · exact Or.inr ⟨_, rfl, Or.inr ⟨v, hv, hv0⟩⟩

/-- The power of a positive base (or a NaN). -/
theorem pow_cases (libm : Libm) {x : PyNum} (hx : x.le (.int 0) = false) (k : ℕ) :
    (∃ n : ℤ, x = .int n ∧ 0 < n ∧ x.pow libm k = .ok (.int (n ^ k))) ∨
    (∃ y, x = .float y) ∧ ((∃ e, x.pow libm k = .error e) ∨
      ∃ r, x.pow libm k = .ok (.float r) ∧
        (r.value = none ∨ ∃ v, r.value = some v ∧ 0 ≤ v)) := by
  have hpos := value_of_le_zero_false hx
  cases x with
  | int n =>
    refine Or.inl ⟨n, rfl, ?_, rfl⟩
    obtain h | ⟨v, h, hv⟩ := hpos
    · cases h
    · cases h
      exact_mod_cast hv
  | float x =>
    refine Or.inr ⟨⟨x, rfl⟩, ?_⟩
    rcases lt_or_ge (k : ℤ) Binary64.overflowBound with hlt | hge
    · obtain ⟨hrep, heq⟩ := toFloat_int_of_lt (Int.natCast_nonneg k) hlt
      have hq0 := Binary64.nearest_nonneg (q := ((k : ℤ) : ℚ)) (by exact_mod_cast Nat.zero_le k)
      have hpow : (float x).pow libm k =
          (floatPow libm x (.finite _ hrep) >>= fun r => .ok (.float r)) := by
        simp only [pow, heq]
        rfl
      obtain ⟨e, h⟩ | ⟨r, h, hr⟩ := @floatPow_cases libm _ hpos _ hrep hq0
      · exact Or.inl ⟨e, by rw [hpow, h]; rfl⟩
      · exact Or.inr ⟨r, by rw [hpow, h]; rfl, hr⟩
    · -- the exponent itself does not convert
      refine Or.inl ⟨.intTooLarge, ?_⟩
      simp only [pow, toFloat_int_of_le hge]
      rfl

end PyNum

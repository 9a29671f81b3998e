import Outbox.Native.Retry

/-!
# Exponential backoff is total and bounded, but for four kinds of input
-/

namespace Outbox

/-! ## What `__post_init__` promises -/

theorem refuse_ok {bad : PyNum → Bool} {message : String} {x : PyNum}
    (h : refuse bad message x = .ok ()) : bad x = false := by
  unfold refuse at h
  split at h
  · cases h
  · rename_i hbad
    exact Bool.not_eq_true _ ▸ hbad

theorem refuseSome_ok {bad : PyNum → Bool} {message : String} {o : Option PyNum}
    (h : refuseSome bad message o = .ok ()) {x : PyNum} (hx : o = some x) : bad x = false := by
  subst hx
  exact refuse_ok h

theorem bind_ok {ε : Type} {a b : Except ε Unit} (h : (do a; b) = .ok ()) :
    a = .ok () ∧ b = .ok () := by
  cases a with
  | error e => cases h
  | ok u => exact ⟨rfl, h⟩

namespace ExponentialRetry

variable (libm : Libm) (s : ExponentialRetry)

theorem initialDelaySeconds_pos : s.initialDelaySeconds.le (.int 0) = false := by
  have h := refuse_ok (bind_ok (bind_ok s.accepted).2).1
  exact h

theorem multiplier_pos : s.multiplier.le (.int 0) = false := by
  have h := refuse_ok (bind_ok (bind_ok (bind_ok s.accepted).2).2).1
  exact h

theorem maxDelaySeconds_pos {c : PyNum} (hc : s.maxDelaySeconds = some c) :
    c.le (.int 0) = false := by
  have h := refuseSome_ok (bind_ok (bind_ok (bind_ok (bind_ok s.accepted).2).2).2).1 hc
  exact h

theorem jitterFactor_le : (PyNum.float (.ofInt 0 (by decide))).le s.jitterFactor = true ∧
    s.jitterFactor.le maxJitterFactor = true := by
  have h := refuse_ok (bind_ok (bind_ok (bind_ok (bind_ok s.accepted).2).2).2).2
  simpa using h

/-! ## What the contract says -/

/-- `uniform` is a draw from between `-jitter_factor / 2` and `jitter_factor / 2`. -/
def Draws (uniform : Binary64) : Prop :=
  ∃ lo hi, s.jitterFactor.neg.half = .ok lo ∧ s.jitterFactor.half = .ok hi ∧
    (PyNum.float lo).le (.float uniform) = true ∧ (PyNum.float uniform).le (.float hi) = true

/-- `attempts_count` is below `max_attempts`, when that is set. -/
def BelowMax (attemptsCount : ℕ) : Prop :=
  ∀ m, s.maxAttempts = some m → (PyNum.int attemptsCount).lt m = true

/-- A delay between zero and both ceilings. -/
def Bounded (delay : PyNum) : Prop :=
  (PyNum.int 0).le delay = true ∧ (∀ c, s.maxDelaySeconds = some c → delay.le c = true) ∧
    delay.le Outbox.maxDelaySeconds = true

/-- Total and bounded: the delay computed is within its bounds, and it is returned, unless the
    time elapsed and it exceed `max_total_delay_seconds`. -/
def Delivers (uniform : Binary64) (firstAttemptAt lastAttemptAt : Int) (attemptsCount : ℕ) :
    Prop :=
  ∃ delay, s.delaySeconds libm uniform attemptsCount = .ok delay ∧ s.Bounded delay ∧
    (s.getNextAttemptDelay libm uniform firstAttemptAt lastAttemptAt attemptsCount =
        .ok (some delay) ∨
      s.getNextAttemptDelay libm uniform firstAttemptAt lastAttemptAt attemptsCount = .ok none ∧
        ∃ total, s.maxTotalDelaySeconds = some total ∧
          exceeds total (elapsedSoFar firstAttemptAt lastAttemptAt) delay = .ok true)

/-! ## Where the code breaks it -/

/-- `initial_delay_seconds` and `multiplier ** (attempts_count - 1)` are not both integers, and
    as floats they are `x` and `y`. -/
structure Operands (attemptsCount : ℕ) (x y : Binary64) : Prop where
  mixed : ∀ i m, s.initialDelaySeconds = .int i → s.multiplier ≠ .int m
  initial : s.initialDelaySeconds.toFloat = .ok x
  power : ∃ p, s.multiplier.pow libm (attemptsCount - 1) = .ok p ∧ p.toFloat = .ok y

/-- The inputs on which the delay raises or is a NaN, before any ceiling. -/
inductive DelayDefect (uniform : Binary64) (attemptsCount : ℕ) : Prop
  /-- Integers throughout, and a product no float holds: the jitter raises. -/
  | intTooLarge (i m : ℤ) (initial : s.initialDelaySeconds = .int i)
      (multiplier : s.multiplier = .int m)
      (large : Binary64.overflowBound ≤ i * m ^ (attemptsCount - 1))
      (jittered : s.jitterFactor.truthy = true)
  /-- A float product of a NaN, or of an infinity and zero. -/
  | nanProduct (x y : Binary64) (operands : s.Operands libm attemptsCount x y)
      (isNaN : x = .nan ∨ y = .nan ∨ Binary64.InfTimesZero x y)
  /-- An infinite product, and a jitter that multiplies it by zero. -/
  | jitteredAway (x y : Binary64) (operands : s.Operands libm attemptsCount x y)
      (infinite : Binary64.Overflows x y) (jittered : s.jitterFactor.truthy = true)
      (draw : uniform = .ofInt (-1) (by decide))

/-! ## The delay before jitter -/

theorem Operands.unique {n : ℕ} {x y x' y' : Binary64} (h : s.Operands libm n x y)
    (h' : s.Operands libm n x' y') : x = x' ∧ y = y' := by
  obtain ⟨-, hx, p, hp, hy⟩ := h
  obtain ⟨-, hx', p', hp', hy'⟩ := h'
  rw [hx] at hx'
  rw [hp] at hp'
  cases hx'
  cases hp'
  rw [hy] at hy'
  cases hy'
  exact ⟨rfl, rfl⟩

/-- The delay before jitter is an exact integer, or the ceiling an overflow is caught at, or
    the float product of its operands. -/
theorem baseDelay_cases (n : ℕ) :
    (∃ i m, s.initialDelaySeconds = .int i ∧ s.multiplier = .int m ∧ 0 ≤ i * m ^ (n - 1) ∧
      s.baseDelay libm n = .int (i * m ^ (n - 1))) ∨
    (s.baseDelay libm n = Outbox.maxDelaySeconds ∧ (∀ x y, ¬ s.Operands libm n x y) ∧
      ∀ i m, s.initialDelaySeconds = .int i → s.multiplier ≠ .int m) ∨
    ∃ x y, s.Operands libm n x y ∧ s.baseDelay libm n = .float (x.mul y) ∧
      (x.value = none ∨ ∃ v, x.value = some v ∧ 0 ≤ v) ∧
      (y.value = none ∨ ∃ v, y.value = some v ∧ 0 ≤ v) := by
  have hinitial := PyNum.value_of_le_zero_false s.initialDelaySeconds_pos
  have hinitial' : s.initialDelaySeconds.value = none ∨
      ∃ v, s.initialDelaySeconds.value = some v ∧ 0 ≤ v :=
    hinitial.imp id fun h => h.imp fun _ hv => ⟨hv.1, hv.2.le⟩
  by_cases hmixed : ∀ i m, s.initialDelaySeconds = .int i → s.multiplier ≠ .int m
  · -- a float product, unless an operand does not convert
    cases hpow : s.multiplier.pow libm (n - 1) with
    | error e =>
      refine Or.inr (Or.inl ⟨by simp only [baseDelay, hpow]; rfl, ?_, hmixed⟩)
      rintro x y ⟨-, -, p, hp, -⟩
      rw [hpow] at hp
      cases hp
    | ok p =>
      -- the power of a float is a float
      have hmixed' : ∀ i m, s.initialDelaySeconds = .int i → p ≠ .int m := by
        rintro i m hi rfl
        obtain ⟨k, hk, -, -⟩ | ⟨⟨y, hy⟩, ⟨e, he⟩ | ⟨r, hr, -⟩⟩ :=
          PyNum.pow_cases libm s.multiplier_pos (n - 1)
        · exact hmixed i k hi hk
        · rw [hpow] at he
          cases he
        · rw [hpow] at hr
          cases hr
      have hmul := PyNum.mul_of_mixed hmixed'
      have hbase : s.baseDelay libm n =
          (s.initialDelaySeconds.mul p).toOption.getD Outbox.maxDelaySeconds := by
        simp only [baseDelay, hpow, bind, Except.bind]
        cases s.initialDelaySeconds.mul p <;> rfl
      cases hx : s.initialDelaySeconds.toFloat with
      | error e =>
        refine Or.inr (Or.inl ⟨?_, ?_, hmixed⟩)
        · rw [hbase, hmul, hx]
          rfl
        · rintro x y ⟨-, hx', -⟩
          rw [hx] at hx'
          cases hx'
      | ok x =>
        cases hy : p.toFloat with
        | error e =>
          refine Or.inr (Or.inl ⟨?_, ?_, hmixed⟩)
          · rw [hbase, hmul, hx, hy]
            rfl
          · rintro x y ⟨-, -, p', hp', hy'⟩
            rw [hpow] at hp'
            cases hp'
            rw [hy] at hy'
            cases hy'
        | ok y =>
          refine Or.inr (Or.inr ⟨x, y, ⟨hmixed, hx, p, hpow, hy⟩, ?_, ?_, ?_⟩)
          · rw [hbase, hmul, hx, hy]
            rfl
          · exact PyNum.toFloat_nonneg hx hinitial'
          · apply PyNum.toFloat_nonneg hy
            obtain ⟨k, -, hk, hk'⟩ | ⟨-, ⟨e, he⟩ | ⟨r, hr, hr'⟩⟩ :=
              PyNum.pow_cases libm s.multiplier_pos (n - 1)
            · rw [hpow] at hk'
              cases hk'
              refine Or.inr ⟨_, rfl, ?_⟩
              have : (0 : ℚ) ≤ (k ^ (n - 1) : ℤ) := Int.cast_nonneg (pow_nonneg hk.le _)
              exact_mod_cast this
            · rw [hpow] at he
              cases he
            · rw [hpow] at hr
              cases hr
              exact hr'
  · -- both are integers, and the product is exact
    push Not at hmixed
    obtain ⟨i, m, hi, hm⟩ := hmixed
    refine Or.inl ⟨i, m, hi, hm, ?_, by simp only [baseDelay, hi, hm]; rfl⟩
    have hm0 := PyNum.value_of_le_zero_false s.multiplier_pos
    rw [hi] at hinitial
    rw [hm] at hm0
    obtain h | ⟨v, h, hv⟩ := hinitial
    · cases h
    · obtain h' | ⟨w, h', hw⟩ := hm0
      · cases h'
      · cases h
        cases h'
        have hi0 : 0 < i := by exact_mod_cast hv
        have hm0 : 0 < m := by exact_mod_cast hw
        exact mul_nonneg hi0.le (pow_nonneg hm0.le _)

/-! ## The jitter -/

/-- The factor of the jitter: a float that is not negative, and zero for the draw `-1` alone. -/
theorem jitter_factor {uniform : Binary64} (h : s.Draws uniform) :
    ∃ f hf, (Binary64.ofInt 1 (by decide)).add uniform = .finite f hf ∧ 0 ≤ f ∧
      (f = 0 ↔ uniform = .ofInt (-1) (by decide)) := by
  obtain ⟨lo, hi, hlo, hhi, hge, hle⟩ := h
  obtain ⟨hj0, hj2⟩ := s.jitterFactor_le
  obtain ⟨a, ha, b, hb, hlo', hhi', ha1, hb1⟩ := PyNum.half_of_le_two hj0 hj2
  rw [hlo'] at hlo
  rw [hhi'] at hhi
  cases hlo
  cases hhi
  obtain ⟨u, v, hu, hv, huv⟩ := PyNum.le_iff.mp hge
  obtain ⟨v', w, hv', hw, hvw⟩ := PyNum.le_iff.mp hle
  cases hu
  cases hw
  rw [hv] at hv'
  cases hv'
  cases uniform with
  | nan => cases hv
  | inf negative =>
    -- a draw between two finite numbers is finite
    cases negative with
    | true =>
      cases hv
      exact absurd huv (by simp)
    | false =>
      cases hv
      exact absurd hvw (by simp)
  | finite q hq =>
    cases hv
    have haq : a ≤ q := by exact_mod_cast huv
    have hqb : q ≤ b := by exact_mod_cast hvw
    obtain ⟨f, hf, heq, hf0, hzero⟩ :=
      Binary64.one_add (h := hq) (by linarith) (by linarith : q ≤ 1)
    refine ⟨f, hf, heq, hf0, hzero.trans ?_⟩
    simp only [Binary64.ofInt]
    push_cast
    rw [Binary64.finite.injEq]

/-- An integer delay is jittered where it converts to a float, and raises where not. -/
theorem jitter_int {uniform : Binary64} (h : s.Draws uniform)
    (hj : s.jitterFactor.truthy = true) {n : ℤ} (hn : 0 ≤ n) :
    (n < Binary64.overflowBound ∧
      ∃ d v, s.jitter uniform (.int n) = .ok d ∧ d.value = some v ∧ 0 ≤ v) ∨
    Binary64.overflowBound ≤ n ∧ s.jitter uniform (.int n) = .error .intTooLarge := by
  obtain ⟨f, hf, heq, hf0, -⟩ := s.jitter_factor h
  rcases lt_or_ge n Binary64.overflowBound with hlt | hge
  · obtain ⟨hrep, hconv⟩ := PyNum.toFloat_int_of_lt hn hlt
    have hq : (0 : ℚ) ≤ n := Int.cast_nonneg hn
    have hq0 := Binary64.nearest_nonneg hq
    refine Or.inl ⟨hlt, .float ((Binary64.finite _ hrep).mul (.finite f hf)), ?_⟩
    obtain ⟨-, hzero⟩ | ⟨w, hw, hw0, -, -⟩ :=
      @Binary64.mul_cases (.finite _ hrep) (.finite f hf) _ _ rfl (by exact_mod_cast hq0) rfl
        (by exact_mod_cast hf0)
    · obtain ⟨h, -⟩ | ⟨-, h⟩ := hzero <;> cases h
    · refine ⟨w, ?_, hw, hw0⟩
      unfold jitter
      rw [if_pos hj, heq, PyNum.mul_of_mixed (fun _ _ _ h => by cases h), hconv]
      rfl
  · refine Or.inr ⟨hge, ?_⟩
    unfold jitter
    rw [if_pos hj, PyNum.mul_of_mixed (fun _ _ _ h => by cases h), PyNum.toFloat_int_of_le hge]
    rfl

/-- A float delay is multiplied; only an infinite one and the draw `-1` leave a NaN. -/
theorem jitter_float {uniform : Binary64} (h : s.Draws uniform)
    (hj : s.jitterFactor.truthy = true) (x : Binary64) :
    ∃ d, s.jitter uniform (.float x) = .ok d ∧
      (x.value = none → d.value = none) ∧
      (∀ v, x.value = some v → 0 ≤ v →
        (v = ⊤ ∧ uniform = .ofInt (-1) (by decide) ∧ d.value = none) ∨
        ¬ (v = ⊤ ∧ uniform = .ofInt (-1) (by decide)) ∧ ∃ w, d.value = some w ∧ 0 ≤ w) := by
  obtain ⟨f, hf, heq, hf0, hzero⟩ := s.jitter_factor h
  refine ⟨.float (x.mul (.finite f hf)), ?_, ?_, ?_⟩
  · unfold jitter
    rw [if_pos hj, heq]
    rfl
  · intro hx
    cases x with
    | nan => rfl
    | inf negative => cases negative <;> cases hx
    | finite q hq => cases hx
  · intro v hx hv
    obtain ⟨hnan, h0⟩ | ⟨w, hw, hw0, -, hnot⟩ :=
      @Binary64.mul_cases x (.finite f hf) _ _ hx hv rfl (by exact_mod_cast hf0)
    · obtain ⟨htop, hf'⟩ | ⟨-, hf'⟩ := h0
      · rw [hx, Option.some_inj] at htop
        exact Or.inl ⟨htop, hzero.mp (Binary64.value_finite_eq_zero.mp hf'), hnan⟩
      · cases hf'
    · refine Or.inr ⟨?_, w, hw, hw0⟩
      rintro ⟨rfl, hdraw⟩
      exact hnot (Or.inl ⟨hx, Binary64.value_finite_eq_zero.mpr (hzero.mpr hdraw)⟩)

/-! ## The ceilings -/

theorem not_bounded_of_value_none {d : PyNum} (h : d.value = none) : ¬ s.Bounded d := by
  rintro ⟨hge, -, -⟩
  obtain ⟨_, v, _, hv, _⟩ := PyNum.le_iff.mp hge
  rw [h] at hv
  cases hv

theorem clamp_of_value_none {d : PyNum} (h : d.value = none) : s.clamp d = d := by
  unfold clamp
  split
  · rw [PyNum.min_of_value_none h, PyNum.min_of_value_none h]
  · rw [PyNum.min_of_value_none h]

theorem clamp_bounded {d : PyNum} {v : WithBot (WithTop ℚ)} (hd : d.value = some v) (hv : 0 ≤ v)
    (hc : s.maxDelaySeconds ≠ some (.float .nan)) : s.Bounded (s.clamp d) := by
  have hmax : ∃ w, Outbox.maxDelaySeconds.value = some w ∧ 0 ≤ w := ⟨_, rfl, by decide⟩
  obtain ⟨w, hw, hw0⟩ := hmax
  unfold clamp
  cases hcap : s.maxDelaySeconds with
  | none =>
    have hval := PyNum.value_min hd hw
    refine ⟨PyNum.le_iff.mpr ⟨0, _, rfl, hval, le_min hv hw0⟩, ?_, ?_⟩
    · intro c hc'
      rw [hcap] at hc'
      cases hc'
    · exact PyNum.le_iff.mpr ⟨_, w, hval, hw, min_le_right _ _⟩
  | some c =>
    obtain hnone | ⟨u, hu, hu0⟩ := PyNum.value_of_le_zero_false (s.maxDelaySeconds_pos hcap)
    · -- the only number without a value is the NaN
      cases c with
      | int n => cases hnone
      | float x =>
        cases x with
        | nan => exact absurd hcap hc
        | inf negative => cases negative <;> cases hnone
        | finite q h => cases hnone
    · have hval := PyNum.value_min (PyNum.value_min hd hu) hw
      refine ⟨PyNum.le_iff.mpr ⟨0, _, rfl, hval, le_min (le_min hv hu0.le) hw0⟩, ?_, ?_⟩
      · intro c' hc'
        rw [hcap] at hc'
        cases hc'
        exact PyNum.le_iff.mpr ⟨_, u, hval, hu, le_trans (min_le_left _ _) (min_le_right _ _)⟩
      · exact PyNum.le_iff.mpr ⟨_, w, hval, hw, min_le_right _ _⟩

theorem not_bounded_of_nanCeiling (h : s.maxDelaySeconds = some (.float .nan)) (d : PyNum) :
    ¬ s.Bounded d := by
  rintro ⟨-, hle, -⟩
  obtain ⟨_, v, _, hv, _⟩ := PyNum.le_iff.mp (hle _ h)
  cases hv

/-- A bounded delay converts to a float. -/
theorem Bounded.toFloat {s : ExponentialRetry} {d : PyNum} (h : s.Bounded d) :
    ∃ x, d.toFloat = .ok x := by
  cases d with
  | float x => exact ⟨x, rfl⟩
  | int n =>
    obtain ⟨hge, -, hle⟩ := h
    obtain ⟨u, v, hu, hv, huv⟩ := PyNum.le_iff.mp hge
    obtain ⟨v', w, hv', hw, hvw⟩ := PyNum.le_iff.mp hle
    cases hu
    cases hv
    cases hv'
    cases hw
    have hn : 0 ≤ n := by exact_mod_cast huv
    have hmax : n ≤ 3153600000 := by exact_mod_cast hvw
    have hbound : (3153600000 : ℤ) < Binary64.overflowBound := by decide +kernel
    obtain ⟨hrep, heq⟩ := PyNum.toFloat_int_of_lt hn (lt_of_le_of_lt hmax hbound)
    exact ⟨_, heq⟩

/-! ## The delay -/

theorem delaySeconds_of_jitter {uniform : Binary64} {n : ℕ} {d : PyNum}
    (h : s.jitter uniform (s.baseDelay libm n) = .ok d) :
    s.delaySeconds libm uniform n = .ok (s.clamp d) := by
  unfold delaySeconds
  rw [h]
  rfl

/-- After the jitter there is a number that is not negative, but for the defects. -/
theorem jittered_cases {uniform : Binary64} (hdraw : s.Draws uniform) (n : ℕ) :
    (¬ s.DelayDefect libm uniform n ∧ ∃ d v,
      s.jitter uniform (s.baseDelay libm n) = .ok d ∧ d.value = some v ∧ 0 ≤ v) ∨
    s.DelayDefect libm uniform n ∧
      ∀ d, s.jitter uniform (s.baseDelay libm n) = .ok d → d.value = none := by
  have hplain : ∀ d, s.jitterFactor.truthy ≠ true → s.jitter uniform d = .ok d :=
    fun d hj => if_neg hj
  obtain ⟨i, m, hi, hm, hk, hbase⟩ | ⟨hbase, hnone, hmixed⟩ | ⟨x, y, hops, hbase, hx, hy⟩ :=
    s.baseDelay_cases libm n
  · -- integers: there are no float operands
    have hnone : ∀ x y, ¬ s.Operands libm n x y := fun x y h => h.mixed i m hi hm
    have hnot : (i * m ^ (n - 1) < Binary64.overflowBound ∨ s.jitterFactor.truthy ≠ true) →
        ¬ s.DelayDefect libm uniform n := by
      rintro hfits (⟨i', m', hi', hm', hlarge, hj⟩ | ⟨x, y, hops, -⟩ | ⟨x, y, hops, -, -, -⟩)
      · rw [hi] at hi'
        rw [hm] at hm'
        cases hi'
        cases hm'
        rcases hfits with hlt | hj'
        · exact absurd hlt (not_lt.mpr hlarge)
        · exact hj' hj
      · exact hnone x y hops
      · exact hnone x y hops
    rw [hbase]
    by_cases hj : s.jitterFactor.truthy = true
    · obtain ⟨hlt, hgood⟩ | ⟨hge, herr⟩ := s.jitter_int hdraw hj hk
      · exact Or.inl ⟨hnot (Or.inl hlt), hgood⟩
      · -- the product of an integer and the factor overflows
        refine Or.inr ⟨.intTooLarge i m hi hm hge hj, ?_⟩
        intro d hd
        rw [herr] at hd
        cases hd
    · exact Or.inl ⟨hnot (Or.inr hj), _, _, hplain _ hj, rfl, by exact_mod_cast hk⟩
  · -- a caught overflow: the ceiling, which is finite
    left
    constructor
    · rintro (⟨i, m, hi, hm, -, -⟩ | ⟨x, y, hops, -⟩ | ⟨x, y, hops, -, -, -⟩)
      · exact hmixed i m hi hm
      · exact hnone x y hops
      · exact hnone x y hops
    · rw [hbase]
      by_cases hj : s.jitterFactor.truthy = true
      · obtain ⟨d, hd, -, hval⟩ := s.jitter_float hdraw hj (.ofInt 3153600000 (by decide))
        obtain ⟨htop, -, -⟩ | ⟨-, w, hw, hw0⟩ := hval _ rfl (by decide)
        · cases htop
        · exact ⟨d, w, hd, hw, hw0⟩
      · exact ⟨_, _, hplain _ hj, rfl, by decide⟩
  · have hnot : (¬ (x = .nan ∨ y = .nan ∨ Binary64.InfTimesZero x y)) →
        (Binary64.Overflows x y → s.jitterFactor.truthy = true →
          uniform ≠ .ofInt (-1) (by decide)) → ¬ s.DelayDefect libm uniform n := by
      rintro hnan hinf (⟨i, m, hi, hm, -, -⟩ | ⟨x', y', hops', h⟩ | ⟨x', y', hops', h, hj, hu⟩)
      · exact hops.mixed i m hi hm
      · obtain ⟨rfl, rfl⟩ := hops.unique libm s hops'
        exact hnan h
      · obtain ⟨rfl, rfl⟩ := hops.unique libm s hops'
        exact hinf h hj hu
    -- a product without a value stays so through the jitter
    have hbad : (x.mul y).value = none →
        ∀ d, s.jitter uniform (.float (x.mul y)) = .ok d → d.value = none := by
      intro hnone d hd
      by_cases hj : s.jitterFactor.truthy = true
      · obtain ⟨d', hd', hval, -⟩ := s.jitter_float hdraw hj (x.mul y)
        rw [hd] at hd'
        cases hd'
        exact hval hnone
      · rw [hplain _ hj] at hd
        cases hd
        exact hnone
    rw [hbase]
    obtain ⟨hnone, hnan⟩ | ⟨w, hw, hw0, htop, hnan⟩ := Binary64.mul_cases_of_nan hx hy
    · exact Or.inr ⟨.nanProduct x y hops hnan, hbad hnone⟩
    · by_cases hj : s.jitterFactor.truthy = true
      · obtain ⟨d, hd, -, hval⟩ := s.jitter_float hdraw hj (x.mul y)
        obtain ⟨rfl, hu, hnone⟩ | ⟨hne, hgood⟩ := hval w hw hw0
        · -- infinity times a factor of zero
          refine Or.inr ⟨.jitteredAway x y hops (htop.mp rfl) hj hu, ?_⟩
          intro d' hd'
          rw [hd] at hd'
          cases hd'
          exact hnone
        · obtain ⟨v, hv, hv0⟩ := hgood
          exact Or.inl ⟨hnot hnan fun hinf _ hu => hne ⟨htop.mpr hinf, hu⟩, d, v, hd, hv, hv0⟩
      · exact Or.inl ⟨hnot hnan fun _ hj' => absurd hj' hj, _, w, hplain _ hj, hw, hw0⟩

/-- The delay is computed and bounded exactly where no defect is met and the ceiling is a
    number. -/
theorem delaySeconds_bounded_iff {uniform : Binary64} (hdraw : s.Draws uniform) (n : ℕ) :
    (∃ d, s.delaySeconds libm uniform n = .ok d ∧ s.Bounded d) ↔
      ¬ s.DelayDefect libm uniform n ∧ s.maxDelaySeconds ≠ some (.float .nan) := by
  constructor
  · rintro ⟨d, hd, hbounded⟩
    refine ⟨?_, fun h => s.not_bounded_of_nanCeiling h d hbounded⟩
    obtain ⟨hnot, -⟩ | ⟨-, hbad⟩ := s.jittered_cases libm hdraw n
    · exact hnot
    · cases hj : s.jitter uniform (s.baseDelay libm n) with
      | error e =>
        simp only [delaySeconds, hj] at hd
        cases hd
      | ok d' =>
        rw [s.delaySeconds_of_jitter libm hj] at hd
        cases hd
        rw [s.clamp_of_value_none (hbad d' hj)] at hbounded
        exact absurd hbounded (s.not_bounded_of_value_none (hbad d' hj))
  · rintro ⟨hnot, hceiling⟩
    obtain ⟨-, d, v, hd, hv, hv0⟩ | ⟨hdefect, -⟩ := s.jittered_cases libm hdraw n
    · exact ⟨_, s.delaySeconds_of_jitter libm hd, s.clamp_bounded hv hv0 hceiling⟩
    · exact absurd hdefect hnot

/-! ## The next attempt -/

theorem not_capped {n : ℕ} (hn : s.BelowMax n) :
    (s.maxAttempts.any fun m => m.le (.int n)) = false := by
  cases hm : s.maxAttempts with
  | none => rfl
  | some m =>
    obtain ⟨u, v, hu, hv, hlt⟩ := PyNum.lt_iff.mp (hn m hm)
    refine Bool.eq_false_iff.mpr fun hle => ?_
    obtain ⟨v', u', hv', hu', hle⟩ := PyNum.le_iff.mp hle
    rw [hu] at hu'
    rw [hv] at hv'
    cases hu'
    cases hv'
    exact absurd hlt (not_lt.mpr hle)

theorem exceeds_ok {d : PyNum} {x : Binary64} (h : d.toFloat = .ok x) (total : PyNum)
    (firstAttemptAt lastAttemptAt : Int) :
    ∃ b, exceeds total (elapsedSoFar firstAttemptAt lastAttemptAt) d = .ok b := by
  cases d with
  | float y => exact ⟨_, rfl⟩
  | int n =>
    refine ⟨total.lt (.float ((Binary64.round
      ((lastAttemptAt - firstAttemptAt : Int) / 1000000)).add x)), ?_⟩
    simp only [exceeds, elapsedSoFar, PyNum.add, h]
    rfl

/-- Below `max_attempts`, with a draw of the jitter's range, `get_next_attempt_delay` is total
    and bounded exactly on the inputs that meet no defect and have a number for a ceiling. -/
theorem delivers_iff {uniform : Binary64} (hdraw : s.Draws uniform) {n : ℕ}
    (hn : s.BelowMax n) (firstAttemptAt lastAttemptAt : Int) :
    s.Delivers libm uniform firstAttemptAt lastAttemptAt n ↔
      ¬ s.DelayDefect libm uniform n ∧ s.maxDelaySeconds ≠ some (.float .nan) := by
  rw [← s.delaySeconds_bounded_iff libm hdraw n]
  constructor
  · rintro ⟨d, hd, hbounded, -⟩
    exact ⟨d, hd, hbounded⟩
  · rintro ⟨d, hd, hbounded⟩
    refine ⟨d, hd, hbounded, ?_⟩
    unfold getNextAttemptDelay
    rw [s.not_capped hn, hd]
    cases htotal : s.maxTotalDelaySeconds with
    | none => exact Or.inl rfl
    | some total =>
      obtain ⟨x, hx⟩ := hbounded.toFloat
      obtain ⟨b, hb⟩ := exceeds_ok hx total firstAttemptAt lastAttemptAt
      cases b with
      | false =>
        left
        show (exceeds total _ d >>= _) = _
        rw [hb]
        rfl
      | true =>
        right
        refine ⟨?_, total, rfl, hb⟩
        show (exceeds total _ d >>= _) = _
        rw [hb]
        rfl

/-- The default strategy, at its third attempt and a draw of zero. -/
theorem delivers_iff_default :
    defaultRetryStrategy.Delivers .rounded (.ofInt 0 (by decide)) 0 7000000 3 ↔
      ¬ defaultRetryStrategy.DelayDefect .rounded (.ofInt 0 (by decide)) 3 ∧
        defaultRetryStrategy.maxDelaySeconds ≠ some (.float .nan) := by
  refine defaultRetryStrategy.delivers_iff .rounded ?_ ?_ 0 7000000
  · exact ⟨_, _, rfl, rfl, by decide +kernel, by decide +kernel⟩
  · intro m hm
    cases hm
    decide +kernel

/-- Whole numbers of seconds, doubled each time, with the jitter of the default strategy. -/
def integerBackoff : ExponentialRetry where
  initialDelaySeconds := .int 1
  multiplier := .int 2
  jitterFactor := .float (.round (1 / 5))
  accepted := by decide +kernel

/-- At its 1025th attempt it raises: `2 ** 1024` is an integer that no float holds, and only
    the jitter converts it. -/
theorem integer_backoff_raises :
    integerBackoff.Draws (.ofInt 0 (by decide)) ∧ integerBackoff.BelowMax 1025 ∧
      integerBackoff.getNextAttemptDelay .rounded (.ofInt 0 (by decide)) 0 0 1025 =
        .error .intTooLarge ∧
      ¬ integerBackoff.Delivers .rounded (.ofInt 0 (by decide)) 0 0 1025 := by
  have hraise : integerBackoff.delaySeconds .rounded (.ofInt 0 (by decide)) 1025 =
      .error .intTooLarge := by decide +kernel
  refine ⟨⟨_, _, rfl, rfl, by decide +kernel, by decide +kernel⟩, ?_, ?_, ?_⟩
  · intro m hm
    cases hm
  · unfold getNextAttemptDelay
    rw [hraise]
    rfl
  · rintro ⟨d, hd, -⟩
    rw [hraise] at hd
    cases hd

end ExponentialRetry

end Outbox

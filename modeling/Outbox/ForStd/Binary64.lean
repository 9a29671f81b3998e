import Mathlib.Data.Int.Log
import Mathlib.Data.Rat.Floor
import Mathlib.Order.WithBot
import Mathlib.Tactic.FieldSimp
import Mathlib.Tactic.Linarith
import Mathlib.Tactic.NormNum
import Mathlib.Tactic.Positivity

/-!
# Binary64 arithmetic

IEEE 754 doubles over the rationals: a finite double is the rational it stands for, and an
operation is the exact one followed by rounding to nearest, ties to even. The sign of zero
and the payload of a NaN are left out.

## Key results

- `nearest_representable`: what rounding below the range gives is a double
- `nearest_lt_iff`: rounding overflows from `2 ^ 1024 - 2 ^ 970` on, and not before
- `nearest_le_two_pow` / `nearest_pos`: rounding stays below a power of two, and away from
  zero where the exact value is at least the smallest double
-/

/-! ## Rounding to an integer -/

/-- The integer nearest `x`; of two that are equally near, the even one. -/
def Rat.roundHalfEven (x : ℚ) : ℤ :=
  if x - ⌊x⌋ < 1 / 2 then ⌊x⌋
  else if 1 / 2 < x - ⌊x⌋ then ⌊x⌋ + 1
  else if ⌊x⌋ % 2 = 0 then ⌊x⌋
  else ⌊x⌋ + 1

namespace Rat

theorem floor_le_roundHalfEven (x : ℚ) : ⌊x⌋ ≤ x.roundHalfEven := by
  unfold roundHalfEven
  split
  · exact le_refl _
  · split
    · omega
    · split <;> omega

theorem le_roundHalfEven {x : ℚ} {n : ℤ} (h : (n : ℚ) ≤ x) : n ≤ x.roundHalfEven :=
  le_trans (Int.le_floor.mpr h) (floor_le_roundHalfEven x)

theorem roundHalfEven_le {x : ℚ} {n : ℤ} (h : x ≤ n) : x.roundHalfEven ≤ n := by
  have hfloor : ⌊x⌋ ≤ n := by exact_mod_cast le_trans (Int.floor_le x) h
  unfold roundHalfEven
  split
  · exact hfloor
  · rename_i hhalf
    -- the fraction is not zero, so `x` is not an integer and lies strictly below `n`
    have hlt : (⌊x⌋ : ℚ) < n := by linarith
    have hlt' : ⌊x⌋ < n := by exact_mod_cast hlt
    split
    · omega
    · split <;> omega

/-- Below the middle of the two, rounding goes to the lower integer. -/
theorem roundHalfEven_le_of_lt_half {x : ℚ} {n : ℤ} (h : x < n + 1 / 2) :
    x.roundHalfEven ≤ n := by
  have hfloor := Int.floor_le x
  have hle : ⌊x⌋ ≤ n := by
    have : (⌊x⌋ : ℚ) < n + 1 := by linarith
    have : ⌊x⌋ < n + 1 := by exact_mod_cast this
    omega
  rcases lt_or_eq_of_le hle with hlt | heq
  · exact roundHalfEven_le (le_of_lt (lt_of_lt_of_le (Int.lt_floor_add_one x) (by
      exact_mod_cast hlt)))
  · unfold roundHalfEven
    rw [if_pos (by rw [heq]; linarith)]
    exact hle

/-- From the middle on, rounding goes to the upper integer where that one is even. -/
theorem le_roundHalfEven_of_half_le {x : ℚ} {n : ℤ} (hn : n % 2 = 0) (h : n - 1 / 2 ≤ x) :
    n ≤ x.roundHalfEven := by
  by_cases hx : (n : ℚ) ≤ x
  · exact le_roundHalfEven hx
  · have hfloor : ⌊x⌋ = n - 1 := by
      rw [Int.floor_eq_iff]
      push_cast
      constructor <;> linarith
    unfold roundHalfEven
    rw [hfloor]
    push_cast
    rw [if_neg (by linarith)]
    split
    · omega
    · rw [if_neg (by omega)]
      omega

end Rat

/-! ## Rounding to 53 bits -/

namespace Binary64

/-- `m * 2 ^ e` with a 53-bit `m` and an exponent in range. -/
def Representable (q : ℚ) : Prop :=
  ∃ m e : ℤ, |m| < 2 ^ 53 ∧ -1074 ≤ e ∧ e ≤ 971 ∧ q = m * 2 ^ e

theorem Representable.neg {q : ℚ} (h : Representable q) : Representable (-q) := by
  obtain ⟨m, e, hm, he, he', rfl⟩ := h
  exact ⟨-m, e, by rwa [abs_neg], he, he', by push_cast; ring⟩

/-- The exponent of the last place near `q > 0`: the leading bit is the 53rd, or a lower one
    among the subnormal numbers. -/
def ulpExponent (q : ℚ) : ℤ := max (Int.log 2 q - 52) (-1074)

/-- `q ≥ 0` rounded to a multiple of its last place, whatever its size. -/
def nearest (q : ℚ) : ℚ := (q / 2 ^ ulpExponent q).roundHalfEven * 2 ^ ulpExponent q

/-- From here on rounding goes to `2 ^ 1024`, which is no double. -/
def overflowBound : ℤ := 2 ^ 1024 - 2 ^ 970

theorem two_zpow_pos (e : ℤ) : (0 : ℚ) < 2 ^ e := zpow_pos (by norm_num) e

theorem two_zpow_le {a b : ℤ} (h : a ≤ b) : (2 : ℚ) ^ a ≤ 2 ^ b :=
  zpow_le_zpow_right₀ (by norm_num) h

theorem two_zpow_add (a b : ℤ) : (2 : ℚ) ^ (a + b) = 2 ^ a * 2 ^ b :=
  zpow_add₀ (by norm_num) a b

theorem lt_two_zpow_log (q : ℚ) : q < 2 ^ (Int.log 2 q + 1) := by
  have h := Int.lt_zpow_succ_log_self (R := ℚ) (b := 2) (by decide) q
  exact_mod_cast h

theorem two_zpow_log_le {q : ℚ} (hq : 0 < q) : 2 ^ Int.log 2 q ≤ q := by
  have h := Int.zpow_log_le_self (R := ℚ) (b := 2) (by decide) hq
  exact_mod_cast h

/-- A power of two is a whole number of any smaller power of two. -/
theorem exists_two_zpow_eq {e k : ℤ} (h : e ≤ k) :
    ∃ n : ℤ, (n : ℚ) = 2 ^ k / 2 ^ e ∧ (n : ℚ) * 2 ^ e = 2 ^ k := by
  refine ⟨2 ^ (k - e).toNat, ?_, ?_⟩
  · rw [eq_div_iff (two_zpow_pos e).ne']
    push_cast
    rw [← zpow_natCast, ← two_zpow_add]
    congr 1
    omega
  · push_cast
    rw [← zpow_natCast, ← two_zpow_add]
    congr 1
    omega

/-- In units of its last place a number has at most 53 bits. -/
theorem scaled_lt (q : ℚ) : q / 2 ^ ulpExponent q < 2 ^ (53 : ℤ) := by
  rw [div_lt_iff₀ (two_zpow_pos _), ← two_zpow_add]
  have hle : Int.log 2 q + 1 ≤ 53 + ulpExponent q := by
    unfold ulpExponent
    omega
  exact lt_of_lt_of_le (lt_two_zpow_log q) (two_zpow_le hle)

/-- Above the subnormal numbers it has all 53. -/
theorem le_scaled {q : ℚ} (hq : 0 < q) (he : -1074 < ulpExponent q) :
    2 ^ (52 : ℤ) ≤ q / 2 ^ ulpExponent q := by
  rw [le_div_iff₀ (two_zpow_pos _), ← two_zpow_add]
  have heq : 52 + ulpExponent q = Int.log 2 q := by
    unfold ulpExponent at he ⊢
    omega
  rw [heq]
  exact two_zpow_log_le hq

theorem nearest_nonneg {q : ℚ} (hq : 0 ≤ q) : 0 ≤ nearest q := by
  have hround : 0 ≤ (q / 2 ^ ulpExponent q).roundHalfEven :=
    Rat.le_roundHalfEven (by
      push_cast
      exact div_nonneg hq (two_zpow_pos _).le)
  exact mul_nonneg (by exact_mod_cast hround) (two_zpow_pos _).le

theorem nearest_le_two_pow {q : ℚ} (hq : 0 < q) {k : ℤ} (hk : -1074 ≤ k) (h : q ≤ 2 ^ k) :
    nearest q ≤ 2 ^ k := by
  have hlog : Int.log 2 q ≤ k := by
    have := le_trans (two_zpow_log_le hq) h
    exact (zpow_le_zpow_iff_right₀ (by norm_num)).mp this
  have hulp : ulpExponent q ≤ k := by
    unfold ulpExponent
    omega
  obtain ⟨n, hn, hmul⟩ := exists_two_zpow_eq hulp
  have hround : (q / 2 ^ ulpExponent q).roundHalfEven ≤ n := by
    apply Rat.roundHalfEven_le
    rw [hn]
    exact div_le_div_of_nonneg_right h (two_zpow_pos _).le
  rw [← hmul]
  exact mul_le_mul_of_nonneg_right (by exact_mod_cast hround) (two_zpow_pos _).le

theorem two_pow_le_nearest {q : ℚ} {k : ℤ} (hk : -1074 ≤ k) (h : 2 ^ k ≤ q) :
    2 ^ k ≤ nearest q := by
  have hq : 0 < q := lt_of_lt_of_le (two_zpow_pos k) h
  by_cases hulp : ulpExponent q ≤ k
  · obtain ⟨n, hn, hmul⟩ := exists_two_zpow_eq hulp
    have hround : n ≤ (q / 2 ^ ulpExponent q).roundHalfEven := by
      apply Rat.le_roundHalfEven
      rw [hn]
      exact div_le_div_of_nonneg_right h (two_zpow_pos _).le
    rw [← hmul]
    exact mul_le_mul_of_nonneg_right (by exact_mod_cast hround) (two_zpow_pos _).le
  · -- the last place is above `2 ^ k` already, so no bit of `2 ^ k` is at stake
    have hround : (2 ^ 52 : ℤ) ≤ (q / 2 ^ ulpExponent q).roundHalfEven := by
      apply Rat.le_roundHalfEven
      exact_mod_cast le_scaled hq (by omega)
    calc (2 : ℚ) ^ k ≤ 2 ^ (52 + ulpExponent q) := two_zpow_le (by omega)
      _ = ((2 ^ 52 : ℤ) : ℚ) * 2 ^ ulpExponent q := by
        rw [two_zpow_add]
        norm_num
      _ ≤ nearest q :=
        mul_le_mul_of_nonneg_right (by exact_mod_cast hround) (two_zpow_pos _).le

theorem ulpExponent_top {q : ℚ} (hlo : 2 ^ (1023 : ℤ) ≤ q) (hhi : q < 2 ^ (1024 : ℤ)) :
    ulpExponent q = 971 := by
  have hq : 0 < q := lt_of_lt_of_le (two_zpow_pos _) hlo
  have h1 : (1023 : ℤ) < Int.log 2 q + 1 :=
    (zpow_lt_zpow_iff_right₀ (by norm_num : (1 : ℚ) < 2)).mp
      (lt_of_le_of_lt hlo (lt_two_zpow_log q))
  have h2 : Int.log 2 q < 1024 :=
    (zpow_lt_zpow_iff_right₀ (by norm_num : (1 : ℚ) < 2)).mp
      (lt_of_le_of_lt (two_zpow_log_le hq) hhi)
  unfold ulpExponent
  omega

theorem overflowBound_eq : (overflowBound : ℚ) = (2 ^ 53 - 1 / 2) * 2 ^ (971 : ℤ) := by
  have h : overflowBound = (2 ^ 54 - 1) * 2 ^ 970 := by decide +kernel
  have hbits : ((2 ^ 54 - 1 : ℤ) : ℚ) = (2 ^ 53 - 1 / 2) * 2 ^ (1 : ℤ) := by norm_num
  rw [h, Int.cast_mul, Int.cast_pow 2 970, hbits, show (971 : ℤ) = 1 + 970 by norm_num,
    two_zpow_add, zpow_ofNat 2 970, Int.cast_ofNat, mul_assoc]

/-- Rounding stays in the range exactly below the bound. -/
theorem nearest_lt_iff {q : ℚ} (hq : 0 ≤ q) : nearest q < 2 ^ (1024 : ℤ) ↔ q < overflowBound := by
  have htop : (2 : ℚ) ^ (1024 : ℤ) = 2 ^ 53 * 2 ^ (971 : ℤ) := by
    rw [show (1024 : ℤ) = 53 + 971 by norm_num, two_zpow_add]
    norm_num
  have hpos := two_zpow_pos 971
  constructor
  · intro h
    by_contra hge
    have hge : (overflowBound : ℚ) ≤ q := not_lt.mp hge
    by_cases hhi : q < 2 ^ (1024 : ℤ)
    · -- the topmost binade: the bound is the middle between `2 ^ 53 - 1` and `2 ^ 53` units
      have hlo : (2 : ℚ) ^ (1023 : ℤ) ≤ q := by
        refine le_trans ?_ hge
        rw [overflowBound_eq, show (1023 : ℤ) = 52 + 971 by norm_num, two_zpow_add]
        exact mul_le_mul_of_nonneg_right (by norm_num) hpos.le
      have hulp := ulpExponent_top hlo hhi
      have hround : (2 ^ 53 : ℤ) ≤ (q / 2 ^ (971 : ℤ)).roundHalfEven := by
        apply Rat.le_roundHalfEven_of_half_le (by norm_num)
        rw [le_div_iff₀ hpos, Int.cast_pow, Int.cast_ofNat, ← overflowBound_eq]
        exact hge
      have hround' : (2 ^ 53 : ℚ) ≤ (q / 2 ^ (971 : ℤ)).roundHalfEven := by exact_mod_cast hround
      have : (2 : ℚ) ^ (1024 : ℤ) ≤ nearest q := by
        rw [nearest, hulp, htop]
        exact mul_le_mul_of_nonneg_right hround' hpos.le
      exact absurd h (not_lt.mpr this)
    · exact absurd h (not_lt.mpr (two_pow_le_nearest (by norm_num) (not_lt.mp hhi)))
  · intro h
    by_cases hlo : (2 : ℚ) ^ (1023 : ℤ) ≤ q
    · have hhi : q < 2 ^ (1024 : ℤ) := by
        refine lt_of_lt_of_le h ?_
        rw [overflowBound_eq, htop]
        exact mul_le_mul_of_nonneg_right (by norm_num) hpos.le
      have hulp := ulpExponent_top hlo hhi
      have hround : (q / 2 ^ (971 : ℤ)).roundHalfEven ≤ 2 ^ 53 - 1 := by
        apply Rat.roundHalfEven_le_of_lt_half
        have hmid : (((2 ^ 53 - 1 : ℤ) : ℚ) + 1 / 2) = 2 ^ 53 - 1 / 2 := by
          push_cast
          ring
        rw [div_lt_iff₀ hpos, hmid, ← overflowBound_eq]
        exact h
      have hround' : ((q / 2 ^ (971 : ℤ)).roundHalfEven : ℚ) < 2 ^ 53 := by
        have : (q / 2 ^ (971 : ℤ)).roundHalfEven < 2 ^ 53 := by omega
        exact_mod_cast this
      rw [nearest, hulp, htop]
      exact mul_lt_mul_of_pos_right hround' hpos
    · rcases lt_or_eq_of_le hq with hq | rfl
      · have := nearest_le_two_pow hq (by norm_num) (not_le.mp hlo).le
        exact lt_of_le_of_lt this (zpow_lt_zpow_right₀ (by norm_num) (by norm_num))
      · have : nearest 0 = 0 := by decide +kernel
        rw [this]
        exact two_zpow_pos _

theorem nearest_representable {q : ℚ} (hq : 0 ≤ q) (h : nearest q < 2 ^ (1024 : ℤ)) :
    Representable (nearest q) := by
  rcases lt_or_eq_of_le hq with hq | rfl
  · have hlo : 0 ≤ (q / 2 ^ ulpExponent q).roundHalfEven :=
      Rat.le_roundHalfEven (by exact_mod_cast (div_pos hq (two_zpow_pos _)).le)
    have hhi : (q / 2 ^ ulpExponent q).roundHalfEven ≤ 2 ^ 53 :=
      Rat.roundHalfEven_le (by exact_mod_cast (scaled_lt q).le)
    have hmin : -1074 ≤ ulpExponent q := le_max_right _ _
    have htop : ulpExponent q ≤ 971 := by
      by_contra hgt
      -- all 53 bits are in use, so the value would reach the top
      have hround : (2 ^ 52 : ℤ) ≤ (q / 2 ^ ulpExponent q).roundHalfEven :=
        Rat.le_roundHalfEven (by exact_mod_cast le_scaled hq (by omega))
      have : (2 : ℚ) ^ (1024 : ℤ) ≤ nearest q :=
        calc (2 : ℚ) ^ (1024 : ℤ) ≤ 2 ^ (52 + ulpExponent q) := two_zpow_le (by omega)
          _ = ((2 ^ 52 : ℤ) : ℚ) * 2 ^ ulpExponent q := by
            rw [two_zpow_add]
            norm_num
          _ ≤ nearest q :=
            mul_le_mul_of_nonneg_right (by exact_mod_cast hround) (two_zpow_pos _).le
      exact absurd h (not_lt.mpr this)
    rcases lt_or_eq_of_le hhi with hlt | heq
    · exact ⟨_, ulpExponent q, by rwa [abs_of_nonneg hlo], hmin, htop, rfl⟩
    · -- the carry out of the top bit moves into the exponent
      have hcarry : nearest q = (2 ^ 52 : ℤ) * 2 ^ (1 + ulpExponent q) := by
        rw [nearest, heq, two_zpow_add]
        push_cast
        ring
      refine ⟨2 ^ 52, 1 + ulpExponent q, by norm_num, by omega, ?_, hcarry⟩
      have hlt : (2 : ℚ) ^ (53 + ulpExponent q) < 2 ^ (1024 : ℤ) := by
        refine lt_of_le_of_lt (le_of_eq ?_) h
        rw [nearest, heq, two_zpow_add]
        norm_num
      have := (zpow_lt_zpow_iff_right₀ (by norm_num : (1 : ℚ) < 2)).mp hlt
      omega
  · exact ⟨0, 0, by norm_num, by norm_num, by norm_num, by decide +kernel⟩

end Binary64

/-! ## Doubles -/

/-- A double. -/
inductive Binary64 where
  | nan
  | inf (negative : Bool)
  | finite (q : ℚ) (representable : Binary64.Representable q)
deriving DecidableEq

namespace Binary64

/-- The double nearest `q`. -/
def round (q : ℚ) : Binary64 :=
  if h : nearest |q| < 2 ^ (1024 : ℤ) then
    have hmag := nearest_representable (abs_nonneg q) h
    if q < 0 then .finite (-nearest |q|) hmag.neg else .finite (nearest |q|) hmag
  else
    .inf (decide (q < 0))

/-- What a double stands for; a NaN for nothing. -/
def value : Binary64 → Option (WithBot (WithTop ℚ))
  | .nan => none
  | .inf true => some ⊥
  | .inf false => some ⊤
  | .finite q _ => some ((q : WithTop ℚ) : WithBot (WithTop ℚ))

def neg : Binary64 → Binary64
  | .nan => .nan
  | .inf negative => .inf !negative
  | .finite q h => .finite (-q) h.neg

def add : Binary64 → Binary64 → Binary64
  | .nan, _ => .nan
  | _, .nan => .nan
  | .inf s, .inf t => if s = t then .inf s else .nan
  | .inf s, .finite _ _ => .inf s
  | .finite _ _, .inf t => .inf t
  | .finite p _, .finite q _ => round (p + q)

def mul : Binary64 → Binary64 → Binary64
  | .nan, _ => .nan
  | _, .nan => .nan
  | .inf s, .inf t => .inf (s != t)
  | .inf s, .finite q _ => if q = 0 then .nan else .inf (s != decide (q < 0))
  | .finite p _, .inf t => if p = 0 then .nan else .inf (decide (p < 0) != t)
  | .finite p _, .finite q _ => round (p * q)

/-- Division by two. -/
def half : Binary64 → Binary64
  | .finite q _ => round (q / 2)
  | x => x

/-- An integer of at most 53 bits. -/
def ofInt (n : ℤ) (h : |n| < 2 ^ 53) : Binary64 :=
  .finite n ⟨n, 0, h, by norm_num, by norm_num, by simp⟩

theorem abs_one_lt : |(1 : ℤ)| < 2 ^ 53 := by decide

@[simp]
theorem value_nan : nan.value = none := rfl

@[simp]
theorem value_inf : (inf false).value = some ⊤ := rfl

@[simp]
theorem value_finite (q : ℚ) (h : Representable q) :
    (finite q h).value = some ((q : WithTop ℚ) : WithBot (WithTop ℚ)) := rfl

theorem value_eq_none_iff {x : Binary64} : x.value = none ↔ x = nan := by
  cases x with
  | nan => exact iff_of_true rfl rfl
  | inf negative => cases negative <;> simp [value]
  | finite q h => simp [value]

theorem round_of_lt {q : ℚ} (hq : 0 ≤ q) (h : q < overflowBound) :
    ∃ hrep, round q = .finite (nearest q) hrep := by
  have hlt : nearest |q| < 2 ^ (1024 : ℤ) := by
    rw [abs_of_nonneg hq]
    exact (nearest_lt_iff hq).mpr h
  refine ⟨nearest_representable hq (by rwa [abs_of_nonneg hq] at hlt), ?_⟩
  unfold round
  rw [dif_pos hlt]
  simp only [if_neg (not_lt.mpr hq), abs_of_nonneg hq]

theorem round_of_le {q : ℚ} (h : (overflowBound : ℚ) ≤ q) : round q = .inf false := by
  have hq : 0 ≤ q := le_trans (by norm_num [overflowBound_eq]) h
  have hge : ¬ nearest |q| < 2 ^ (1024 : ℤ) := by
    rw [abs_of_nonneg hq, nearest_lt_iff hq]
    exact not_lt.mpr h
  simp only [round, dif_neg hge, not_lt.mpr hq, decide_false]

/-- Rounding a negative number rounds its magnitude. -/
theorem round_neg {q : ℚ} (hq : 0 < q) : round (-q) = (round q).neg := by
  have hneg : -q < 0 := by linarith
  by_cases h : nearest |q| < 2 ^ (1024 : ℤ)
  · simp only [round, abs_neg, dif_pos h, if_pos hneg, if_neg (not_lt.mpr hq.le), neg]
  · simp only [round, abs_neg, dif_neg h, hneg, not_lt.mpr hq.le, decide_true, decide_false, neg,
      Bool.not_false]

/-- The rounding of a nonnegative number is not a NaN and not negative. -/
theorem round_nonneg {q : ℚ} (hq : 0 ≤ q) : ∃ v, (round q).value = some v ∧ 0 ≤ v := by
  rcases lt_or_ge q overflowBound with h | h
  · obtain ⟨hrep, heq⟩ := round_of_lt hq h
    refine ⟨_, by rw [heq]; rfl, ?_⟩
    exact_mod_cast nearest_nonneg hq
  · exact ⟨⊤, by rw [round_of_le h]; rfl, le_top⟩

/-- Rounding stays between minus one and one. -/
theorem round_abs_le_one {q : ℚ} (hlo : -1 ≤ q) (hhi : q ≤ 1) :
    ∃ r hr, round q = .finite r hr ∧ -1 ≤ r ∧ r ≤ 1 := by
  have hone : ((1 : ℤ) : ℚ) < overflowBound := Int.cast_lt.mpr (by decide +kernel)
  push_cast at hone
  have hle : ∀ {p : ℚ}, 0 < p → p ≤ 1 → nearest p ≤ 1 := by
    intro p hp hp1
    have h := nearest_le_two_pow hp (k := 0) (by norm_num) (by simpa using hp1)
    simpa using h
  rcases lt_trichotomy q 0 with hneg | rfl | hpos
  · have hpos : 0 < -q := by linarith
    have hmag := hle hpos (by linarith)
    obtain ⟨hrep, heq⟩ := round_of_lt hpos.le (by linarith)
    refine ⟨-nearest (-q), hrep.neg, ?_, by linarith, ?_⟩
    · have h := round_neg hpos
      rw [neg_neg, heq] at h
      exact h
    · have := nearest_nonneg hpos.le
      linarith
  · obtain ⟨hrep, heq⟩ := round_of_lt (le_refl 0) (by linarith)
    have hzero : nearest 0 = 0 := by decide +kernel
    exact ⟨nearest 0, hrep, heq, by rw [hzero]; norm_num, by rw [hzero]; norm_num⟩
  · have hmag := hle hpos hhi
    obtain ⟨hrep, heq⟩ := round_of_lt hpos.le (by linarith)
    have := nearest_nonneg hpos.le
    exact ⟨nearest q, hrep, heq, by linarith, hmag⟩

/-- A sum of two doubles is a multiple of the smallest one. -/
theorem Representable.add_ge {p q : ℚ} (hp : Representable p) (hq : Representable q)
    (hpos : 0 < p + q) : 2 ^ (-1074 : ℤ) ≤ p + q := by
  have unit : ∀ {r : ℚ}, Representable r → ∃ n : ℤ, r = n * 2 ^ (-1074 : ℤ) := by
    rintro r ⟨m, e, -, he, -, rfl⟩
    obtain ⟨n, -, hn⟩ := exists_two_zpow_eq he
    exact ⟨m * n, by rw [← hn, Int.cast_mul, mul_assoc]⟩
  obtain ⟨a, rfl⟩ := unit hp
  obtain ⟨b, rfl⟩ := unit hq
  rw [← add_mul] at hpos ⊢
  have hab : (0 : ℚ) < (a + b : ℤ) := by
    push_cast
    exact (mul_pos_iff_of_pos_right (two_zpow_pos _)).mp hpos
  have hone : (1 : ℚ) ≤ (a + b : ℤ) := by
    have : 0 < a + b := by exact_mod_cast hab
    exact_mod_cast this
  push_cast at hone
  calc (2 : ℚ) ^ (-1074 : ℤ) = 1 * 2 ^ (-1074 : ℤ) := (one_mul _).symm
    _ ≤ (a + b) * 2 ^ (-1074 : ℤ) := mul_le_mul_of_nonneg_right hone (two_zpow_pos _).le

/-- A sum of doubles does not underflow. -/
theorem nearest_add_eq_zero_iff {p q : ℚ} (hp : Representable p) (hq : Representable q)
    (h : 0 ≤ p + q) : nearest (p + q) = 0 ↔ p + q = 0 := by
  constructor
  · intro hzero
    by_contra hne
    have hpos : 0 < p + q := lt_of_le_of_ne h (Ne.symm hne)
    have hle := two_pow_le_nearest (le_refl _) (hp.add_ge hq hpos)
    rw [hzero] at hle
    exact absurd hle (not_le.mpr (two_zpow_pos _))
  · intro hzero
    rw [hzero]
    decide +kernel

theorem exists_of_value_nonneg {x : Binary64} {v : WithBot (WithTop ℚ)} (hx : x.value = some v)
    (hv : 0 ≤ v) : x = .inf false ∨ ∃ q h, x = .finite q h ∧ 0 ≤ q := by
  cases x with
  | nan => cases hx
  | inf negative =>
    cases negative with
    | false => exact Or.inl rfl
    | true =>
      cases hx
      exact absurd hv (by decide)
  | finite q h =>
    cases hx
    exact Or.inr ⟨q, h, rfl, by exact_mod_cast hv⟩

/-- The product that has no value: of an infinity and zero. -/
def InfTimesZero (x y : Binary64) : Prop :=
  (x.value = some ⊤ ∧ y.value = some 0) ∨ (x.value = some 0 ∧ y.value = some ⊤)

/-- The product is beyond the doubles: one factor is, or the exact product of two that are
    not rounds to it. -/
def Overflows (x y : Binary64) : Prop :=
  x.value = some ⊤ ∨ y.value = some ⊤ ∨
    ∃ p hp q hq, x = .finite p hp ∧ y = .finite q hq ∧ (overflowBound : ℚ) ≤ p * q

theorem value_finite_eq_zero {q : ℚ} {h : Representable q} :
    (finite q h).value = some 0 ↔ q = 0 := by
  rw [value_finite, Option.some_inj]
  norm_cast

/-- A product of numbers that are not negative: nothing, or not negative either. -/
theorem mul_cases {x y : Binary64} {u v : WithBot (WithTop ℚ)} (hx : x.value = some u)
    (hu : 0 ≤ u) (hy : y.value = some v) (hv : 0 ≤ v) :
    ((x.mul y).value = none ∧ InfTimesZero x y) ∨
    ∃ w, (x.mul y).value = some w ∧ 0 ≤ w ∧ (w = ⊤ ↔ Overflows x y) ∧ ¬ InfTimesZero x y := by
  rcases exists_of_value_nonneg hx hu with rfl | ⟨p, hp, rfl, hp0⟩ <;>
    rcases exists_of_value_nonneg hy hv with rfl | ⟨q, hq, rfl, hq0⟩
  · -- both are infinite
    refine Or.inr ⟨⊤, rfl, le_top, iff_of_true rfl (Or.inl rfl), ?_⟩
    rintro (⟨_, h⟩ | ⟨h, _⟩) <;> cases h
  · by_cases hzero : q = 0
    · exact Or.inl ⟨by simp [mul, hzero], Or.inl ⟨rfl, value_finite_eq_zero.mpr hzero⟩⟩
    · refine Or.inr ⟨⊤, ?_, le_top, iff_of_true rfl (Or.inl rfl), ?_⟩
      · simp [mul, hzero, not_lt.mpr hq0]
      · rintro (⟨_, h⟩ | ⟨h, _⟩)
        · exact hzero (value_finite_eq_zero.mp h)
        · cases h
  · by_cases hzero : p = 0
    · exact Or.inl ⟨by simp [mul, hzero], Or.inr ⟨value_finite_eq_zero.mpr hzero, rfl⟩⟩
    · refine Or.inr ⟨⊤, ?_, le_top, iff_of_true rfl (Or.inr (Or.inl rfl)), ?_⟩
      · simp [mul, hzero, not_lt.mpr hp0]
      · rintro (⟨_, h⟩ | ⟨h, _⟩)
        · cases h
        · exact hzero (value_finite_eq_zero.mp h)
  · have hpq : 0 ≤ p * q := mul_nonneg hp0 hq0
    have hnot : ¬ InfTimesZero (.finite p hp) (.finite q hq) := by
      rintro (⟨h, _⟩ | ⟨_, h⟩) <;> cases h
    -- both are finite, and the product rounds to a double or overflows
    rcases lt_or_ge (p * q) overflowBound with hlt | hge
    · obtain ⟨hrep, heq⟩ := round_of_lt hpq hlt
      refine Or.inr ⟨_, by rw [mul, heq]; rfl, by exact_mod_cast nearest_nonneg hpq, ?_, hnot⟩
      refine iff_of_false (fun h => by cases h) ?_
      rintro (h | h | ⟨_, _, _, _, h1, h2, hle⟩)
      · cases h
      · cases h
      · cases h1
        cases h2
        exact absurd hlt (not_lt.mpr hle)
    · refine Or.inr ⟨⊤, by rw [mul, round_of_le hge]; rfl, le_top, iff_of_true rfl ?_, hnot⟩
      exact Or.inr (Or.inr ⟨p, hp, q, hq, rfl, rfl, hge⟩)

theorem mul_nan_left (y : Binary64) : nan.mul y = nan := by
  cases y <;> rfl

theorem mul_nan_right (x : Binary64) : x.mul nan = nan := by
  cases x <;> rfl

/-- The same with a NaN allowed on either side. -/
theorem mul_cases_of_nan {x y : Binary64} (hx : x.value = none ∨ ∃ v, x.value = some v ∧ 0 ≤ v)
    (hy : y.value = none ∨ ∃ v, y.value = some v ∧ 0 ≤ v) :
    ((x.mul y).value = none ∧ (x = nan ∨ y = nan ∨ InfTimesZero x y)) ∨
    ∃ w, (x.mul y).value = some w ∧ 0 ≤ w ∧ (w = ⊤ ↔ Overflows x y) ∧
      ¬ (x = nan ∨ y = nan ∨ InfTimesZero x y) := by
  obtain hx | ⟨u, hx, hu⟩ := hx
  · rw [value_eq_none_iff.mp hx, mul_nan_left]
    exact Or.inl ⟨rfl, Or.inl rfl⟩
  · obtain hy | ⟨v, hy, hv⟩ := hy
    · rw [value_eq_none_iff.mp hy, mul_nan_right]
      exact Or.inl ⟨rfl, Or.inr (Or.inl rfl)⟩
    · obtain ⟨hnone, hzero⟩ | ⟨w, hw, hw0, htop, hzero⟩ := mul_cases hx hu hy hv
      · exact Or.inl ⟨hnone, Or.inr (Or.inr hzero)⟩
      · refine Or.inr ⟨w, hw, hw0, htop, ?_⟩
        rintro (rfl | rfl | h)
        · cases hx
        · cases hy
        · exact hzero h

/-- A double between minus one and one, added to one. -/
theorem one_add {q : ℚ} {h : Representable q} (hlo : -1 ≤ q) (hhi : q ≤ 1) :
    ∃ f hf, (ofInt 1 (by decide)).add (.finite q h) = .finite f hf ∧ 0 ≤ f ∧
      (f = 0 ↔ q = -1) := by
  have hnonneg : (0 : ℚ) ≤ (1 : ℤ) + q := by
    push_cast
    linarith
  have htwo : ((1 : ℤ) : ℚ) + q < overflowBound := by
    have : ((2 : ℤ) : ℚ) < overflowBound := Int.cast_lt.mpr (by decide +kernel)
    push_cast at this ⊢
    linarith
  have hone : Representable ((1 : ℤ) : ℚ) := ⟨1, 0, by decide, by norm_num, by norm_num, by simp⟩
  obtain ⟨hrep, heq⟩ := round_of_lt hnonneg htwo
  refine ⟨_, hrep, heq, nearest_nonneg hnonneg, ?_⟩
  rw [nearest_add_eq_zero_iff hone h hnonneg]
  push_cast
  constructor <;> intro h <;> linarith

end Binary64

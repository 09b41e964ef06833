import Mathlib.Algebra.Order.Field.Power
import Mathlib.Data.Int.Log
import Mathlib.Data.Rat.Floor
import Mathlib.Tactic.Linarith
import Mathlib.Tactic.Positivity
import Mathlib.Tactic.Push
import CredentialSchema.Number.Decimal

/-!
What rounds to a binary64 number. A ratio that lies between the halfway points to the two
neighbours of a number is rounded to the number, and so is a halfway point itself if the
significand is even. The exponent is found first, from the binary order of the ratio; only just
below a power of two is it one less than that of the number.
-/
namespace CredentialSchema.Binary64

/-- The ends of the interval of a number, in its quarter units, and whether they belong to it. -/
structure Rounds (x : Binary64) (r : ℚ) : Prop where
  low : (Decimal.interval x).1 * (2 : ℚ) ^ (x.exponent - 2) ≤ r
  high : r ≤ (Decimal.interval x).2.2 * (2 : ℚ) ^ (x.exponent - 2)
  ends : x.significand % 2 = 1 → (Decimal.interval x).1 * (2 : ℚ) ^ (x.exponent - 2) ≠ r ∧
    r ≠ (Decimal.interval x).2.2 * (2 : ℚ) ^ (x.exponent - 2)

theorem cast_scaled {b : ℕ} (hb : 0 < b) (num den : ℕ) (e : ℤ) :
    ((num * Nat.pow b (-e).toNat : ℕ) : ℚ) / (den * Nat.pow b e.toNat : ℕ) =
      num / den / (b : ℚ) ^ e := by
  have positive : (b : ℚ) ≠ 0 := by exact_mod_cast hb.ne'
  rcases le_total 0 e with sign | sign
  · obtain ⟨n, rfl⟩ := Int.eq_ofNat_of_zero_le sign
    simp [div_div]
  · obtain ⟨n, rfl⟩ := Int.exists_eq_neg_ofNat sign
    simp [div_eq_mul_inv, mul_comm, mul_assoc]

theorem cast_shifted {b : ℕ} (hb : 0 < b) (n : ℕ) (e : ℤ) :
    ((n * Nat.pow b e.toNat : ℕ) : ℚ) / (Nat.pow b (-e).toNat : ℕ) = n * (b : ℚ) ^ e := by
  have scaled := cast_scaled hb n 1 (-e)
  rw [neg_neg, Nat.one_mul, zpow_neg, div_inv_eq_mul, Nat.cast_one, div_one] at scaled
  exact scaled

theorem log_eq_iff {b : ℕ} (hb : 1 < b) {r : ℚ} (hr : 0 < r) (k : ℤ) :
    Int.log b r = k ↔ (b : ℚ) ^ k ≤ r ∧ r < (b : ℚ) ^ (k + 1) := by
  rw [Int.zpow_le_iff_le_log hb hr, Int.lt_zpow_iff_log_lt hb hr]
  omega

theorem le_div_floor_iff {num den c : ℕ} (hden : 0 < den) :
    c ≤ num / den ↔ (c : ℚ) ≤ num / den := by
  have positive : (0 : ℚ) < den := by exact_mod_cast hden
  rw [Nat.le_div_iff_mul_le hden, le_div_iff₀ positive]
  exact_mod_cast Iff.rfl

theorem log_bracket {num den : ℕ} (hnum : 0 < num) (hden : 0 < den) :
    (2 : ℚ) ^ (num.log2 - den.log2 - 1 : ℤ) ≤ num / den ∧
      (num / den : ℚ) < (2 : ℚ) ^ (num.log2 - den.log2 + 1 : ℤ) := by
  have numLow : (2 : ℚ) ^ (num.log2 : ℤ) ≤ num := by
    exact_mod_cast Nat.log2_self_le hnum.ne'
  have numHigh : (num : ℚ) < (2 : ℚ) ^ (num.log2 + 1 : ℤ) := by
    exact_mod_cast Nat.lt_log2_self
  have denLow : (2 : ℚ) ^ (den.log2 : ℤ) ≤ den := by
    exact_mod_cast Nat.log2_self_le hden.ne'
  have denHigh : (den : ℚ) < (2 : ℚ) ^ (den.log2 + 1 : ℤ) := by
    exact_mod_cast Nat.lt_log2_self
  have positive : (0 : ℚ) < den := by exact_mod_cast hden
  rw [le_div_iff₀ positive, div_lt_iff₀ positive]
  constructor
  · calc (2 : ℚ) ^ (num.log2 - den.log2 - 1 : ℤ) * den
        ≤ (2 : ℚ) ^ (num.log2 - den.log2 - 1 : ℤ) * (2 : ℚ) ^ (den.log2 + 1 : ℤ) := by gcongr
      _ = (2 : ℚ) ^ (num.log2 : ℤ) := by
        rw [← zpow_add₀ two_ne_zero]
        congr 1
        omega
      _ ≤ num := numLow
  · calc (num : ℚ) < (2 : ℚ) ^ (num.log2 + 1 : ℤ) := numHigh
      _ = (2 : ℚ) ^ (num.log2 - den.log2 + 1 : ℤ) * (2 : ℚ) ^ (den.log2 : ℤ) := by
        rw [← zpow_add₀ two_ne_zero]
        congr 1
        omega
      _ ≤ (2 : ℚ) ^ (num.log2 - den.log2 + 1 : ℤ) * den := by gcongr

theorem exponentOf_eq {num den : ℕ} (hnum : 0 < num) (hden : 0 < den) :
    exponentOf num den = max (Int.log 2 (num / den : ℚ) - 52) (-1074) := by
  have positive : (0 : ℚ) < num / den := by positivity
  let guess : ℤ := num.log2 - den.log2 - 53
  have reaches : Nat.pow 2 53 ≤
      num * Nat.pow 2 (-guess).toNat / (den * Nat.pow 2 guess.toNat) ↔
        (2 : ℚ) ^ (guess + 53) ≤ num / den := by
    have unit : 0 < den * Nat.pow 2 guess.toNat := Nat.mul_pos hden (Nat.pow_pos two_pos)
    rw [le_div_floor_iff unit, cast_scaled two_pos, le_div_iff₀ (by positivity),
      zpow_add₀ two_ne_zero, mul_comm]
    norm_num
  have atLeast (k : ℤ) : (2 : ℚ) ^ k ≤ num / den ↔ k ≤ Int.log 2 (num / den : ℚ) :=
    Int.zpow_le_iff_le_log (b := 2) (by norm_num) positive
  have below (k : ℤ) : (num / den : ℚ) < (2 : ℚ) ^ k ↔ Int.log 2 (num / den : ℚ) < k :=
    Int.lt_zpow_iff_log_lt (b := 2) (by norm_num) positive
  obtain ⟨low, high⟩ := log_bracket hnum hden
  rw [atLeast] at low reaches
  rw [below] at high
  rw [exponentOf]
  congr 1
  split
  · next full =>
    have := reaches.1 full
    omega
  · next short =>
    have := mt reaches.2 short
    omega

theorem roundDiv_eq {n d q : ℕ} (hd : 0 < d) (low : 2 * (q * d) ≤ 2 * n + d)
    (high : 2 * n ≤ 2 * (q * d) + d)
    (ends : q % 2 = 1 → 2 * (q * d) ≠ 2 * n + d ∧ 2 * n ≠ 2 * (q * d) + d) :
    roundDiv n d = q := by
  have split : n / d * d + n % d = n := Nat.div_add_mod' n d
  have below : n % d < d := Nat.mod_lt n hd
  have near : q = n / d ∨ q = n / d + 1 := by
    have notLess : ¬ q + 1 ≤ n / d := by
      intro less
      have := Nat.mul_le_mul_right d less
      rw [Nat.add_mul, Nat.one_mul] at this
      omega
    have notMore : ¬ n / d + 2 ≤ q := by
      intro more
      have := Nat.mul_le_mul_right d more
      rw [Nat.add_mul] at this
      omega
    omega
  rw [roundDiv]
  rcases near with same | next
  · rw [← same] at split ⊢
    have half : 2 * (n % d) ≤ d := by omega
    rcases half.lt_or_eq with less | tie
    · simp [less]
    · have even : q % 2 = 0 := by
        by_contra odd
        exact (ends (by omega)).2 (by omega)
      simp [tie, even]
  · have step : q * d = n / d * d + d := by rw [next, Nat.add_mul, Nat.one_mul]
    have half : d ≤ 2 * (n % d) := by omega
    rcases half.lt_or_eq with more | tie
    · simp only [not_lt.2 more.le, if_false, more, if_true, next]
    · have odd : n / d % 2 = 1 := by
        by_contra even
        exact (ends (by omega)).1 (by omega)
      simp [← tie, odd, next]

theorem roundDiv_of_near {n d q : ℕ} (hd : 0 < d) (low : (q : ℚ) - 1 / 2 ≤ n / d)
    (high : (n / d : ℚ) ≤ q + 1 / 2)
    (ends : q % 2 = 1 → (q : ℚ) - 1 / 2 ≠ n / d ∧ (n / d : ℚ) ≠ q + 1 / 2) :
    roundDiv n d = q := by
  have positive : (0 : ℚ) < d := by exact_mod_cast hd
  have cancel : (n / d : ℚ) * d = n := div_mul_cancel₀ _ positive.ne'
  refine roundDiv_eq hd ?_ ?_ fun odd => ⟨fun same => (ends odd).1 ?_, fun same => (ends odd).2 ?_⟩
  · have := mul_le_mul_of_nonneg_right low positive.le
    rw [cancel] at this
    have : (2 * (q * d) : ℚ) ≤ 2 * n + d := by linarith
    exact_mod_cast this
  · have := mul_le_mul_of_nonneg_right high positive.le
    rw [cancel] at this
    have : (2 * n : ℚ) ≤ 2 * (q * d) + d := by linarith
    exact_mod_cast this
  · have : (2 * (q * d) : ℚ) = 2 * n + d := by exact_mod_cast same
    rw [eq_div_iff positive.ne']
    linarith
  · have : (2 * n : ℚ) = 2 * (q * d) + d := by exact_mod_cast same
    rw [div_eq_iff positive.ne']
    linarith

theorem ofParts?_self (x : Binary64) :
    ofParts? x.negative x.significand x.exponent = some x := dif_pos x.normal

theorem low_eq {x : Binary64} (positive : 0 < x.significand) :
    ((Decimal.interval x).1 : ℚ) =
      4 * x.significand - if x.significand = 2 ^ 52 ∧ -1074 < x.exponent then 1 else 2 := by
  simp only [Decimal.interval, Nat.pow_eq]
  split
  · rw [Nat.cast_sub (by omega)]
    norm_num
  · rw [Nat.cast_sub (by omega)]
    norm_num

theorem high_eq (x : Binary64) : ((Decimal.interval x).2.2 : ℚ) = 4 * x.significand + 2 := by
  simp [Decimal.interval]

variable {x : Binary64} {r : ℚ}

theorem Rounds.units (h : Rounds x r) (positive : 0 < x.significand) :
    (x.significand : ℚ) - 1 / 2 ≤ r / 2 ^ x.exponent ∧
      r / 2 ^ x.exponent ≤ x.significand + 1 / 2 ∧
      (x.significand % 2 = 1 → (x.significand : ℚ) - 1 / 2 ≠ r / 2 ^ x.exponent ∧
        r / 2 ^ x.exponent ≠ x.significand + 1 / 2) ∧
      (x.significand = 2 ^ 52 → -1074 < x.exponent →
        (x.significand : ℚ) - 1 / 4 ≤ r / 2 ^ x.exponent) := by
  obtain ⟨low, high, ends⟩ := h
  have unit : (0 : ℚ) < 2 ^ x.exponent := by positivity
  have quarter : (2 : ℚ) ^ (x.exponent - 2) = 2 ^ x.exponent / 4 := by
    rw [zpow_sub₀ two_ne_zero]
    norm_num
  rw [quarter] at low high ends
  rw [low_eq positive] at low ends
  rw [high_eq] at high ends
  simp only [le_div_iff₀ unit, div_le_iff₀ unit, ne_eq, eq_div_iff unit.ne', div_eq_iff unit.ne']
  by_cases isPower : x.significand = 2 ^ 52 ∧ -1074 < x.exponent
  · rw [if_pos isPower] at low
    have even : x.significand % 2 = 0 := by simp [isPower.1]
    refine ⟨by linarith, by linarith, fun odd => by omega, fun _ _ => by linarith⟩
  · rw [if_neg isPower] at low ends
    refine ⟨by linarith, by linarith, fun odd => ?_, fun full above => absurd ⟨full, above⟩ isPower⟩
    obtain ⟨notLow, notHigh⟩ := ends odd
    exact ⟨fun same => notLow (by linarith), fun same => notHigh (by linarith)⟩

theorem two_zpow_add (e : ℤ) (k : ℕ) : (2 : ℚ) ^ (e + k) = 2 ^ k * 2 ^ e := by
  rw [zpow_add₀ two_ne_zero, mul_comm, zpow_natCast]

variable {num den : ℕ} {e : ℤ}

theorem exponentOf_of_full (hnum : 0 < num) (hden : 0 < den) (least : -1074 ≤ e)
    (low : 2 ^ 52 ≤ (num / den : ℚ) / 2 ^ e) (high : (num / den : ℚ) / 2 ^ e < 2 ^ 53) :
    exponentOf num den = e := by
  have unit : (0 : ℚ) < 2 ^ e := by positivity
  have ratio : (0 : ℚ) < num / den := by positivity
  have log : Int.log 2 (num / den : ℚ) = e + 52 := by
    have down : (2 : ℚ) ^ (e + 52) = 2 ^ 52 * 2 ^ e := two_zpow_add e 52
    have up : (2 : ℚ) ^ (e + 53) = 2 ^ 53 * 2 ^ e := two_zpow_add e 53
    rw [log_eq_iff (by norm_num) ratio, add_assoc]
    norm_num only [Nat.cast_ofNat]
    rw [up, down, ← le_div_iff₀ unit, ← div_lt_iff₀ unit]
    exact ⟨low, high⟩
  rw [exponentOf_eq hnum hden, log]
  omega

theorem exponentOf_of_least (hnum : 0 < num) (hden : 0 < den)
    (high : (num / den : ℚ) / 2 ^ (-1074 : ℤ) < 2 ^ 52) : exponentOf num den = -1074 := by
  have unit : (0 : ℚ) < 2 ^ (-1074 : ℤ) := by positivity
  have ratio : (0 : ℚ) < num / den := by positivity
  have up : (2 : ℚ) ^ (-1074 + 52 : ℤ) = 2 ^ 52 * 2 ^ (-1074 : ℤ) := two_zpow_add (-1074) 52
  rw [div_lt_iff₀ unit, ← up] at high
  have log : Int.log 2 (num / den : ℚ) < -1074 + 52 :=
    (Int.lt_zpow_iff_log_lt (b := 2) (by norm_num) ratio).1 (by exact_mod_cast high)
  rw [exponentOf_eq hnum hden]
  omega

theorem pos_of_rounds (positive : 0 < x.significand) (h : Rounds x (num / den)) : 0 < num := by
  obtain ⟨low, -⟩ := h.units positive
  have one : (1 : ℚ) ≤ x.significand := by exact_mod_cast positive
  by_contra isZero
  obtain rfl : num = 0 := by omega
  norm_num at low
  linarith

/-- Below a power of two the interval reaches into numbers with half the unit. A ratio there is
rounded in that unit, and up to the power. -/
theorem ofRatio?_of_short (positive : 0 < x.significand) (hden : 0 < den)
    (h : Rounds x (num / den)) (short : (num / den : ℚ) / 2 ^ x.exponent < 2 ^ 52)
    (above : -1074 < x.exponent) : ofRatio? x.negative num den = some x := by
  obtain ⟨low, -, -, lowFull⟩ := h.units positive
  have some_num := pos_of_rounds positive h
  have isPower : x.significand = 2 ^ 52 := by
    have full := x.normal.2.2.2.resolve_right above.ne'
    have : (x.significand : ℚ) < 2 ^ 52 + 1 := by linarith
    have : x.significand < 2 ^ 52 + 1 := by exact_mod_cast this
    simp only [Nat.pow_eq] at full
    omega
  have close := lowFull isPower above
  rw [isPower] at close
  have doubled : (num / den : ℚ) / 2 ^ (x.exponent - 1) = 2 * (num / den / 2 ^ x.exponent) := by
    rw [zpow_sub₀ two_ne_zero]
    field_simp
  push_cast at close
  have exponent : exponentOf num den = x.exponent - 1 :=
    exponentOf_of_full some_num hden (by omega) (by linarith) (by linarith)
  have rounded : roundDiv (num * Nat.pow 2 (-(x.exponent - 1)).toNat)
      (den * Nat.pow 2 (x.exponent - 1).toNat) = 2 ^ 53 := by
    refine roundDiv_of_near (Nat.mul_pos hden (Nat.pow_pos two_pos)) ?_ ?_ (by norm_num)
    · rw [cast_scaled two_pos, Nat.cast_ofNat, doubled]
      push_cast
      linarith
    · rw [cast_scaled two_pos, Nat.cast_ofNat, doubled]
      push_cast
      linarith
  rw [ofRatio?, if_neg some_num.ne']
  simp only [exponent, rounded, sub_add_cancel]
  rw [if_pos (Nat.pow_eq).symm, Nat.pow_eq, ← isPower]
  exact ofParts?_self x

theorem ofRatio?_of_rounds (positive : 0 < x.significand) (hden : 0 < den)
    (h : Rounds x (num / den)) : ofRatio? x.negative num den = some x := by
  obtain ⟨low, high, ends, -⟩ := h.units positive
  have some_num := pos_of_rounds positive h
  have bound : x.significand < 2 ^ 53 := x.normal.1
  have least : -1074 ≤ x.exponent := x.normal.2.1
  by_cases reached : 2 ^ 52 ≤ (num / den : ℚ) / 2 ^ x.exponent ∨ x.exponent = -1074
  · have exponent : exponentOf num den = x.exponent := by
      have lessThan : (x.significand : ℚ) + 1 ≤ 2 ^ 53 := by exact_mod_cast bound
      rcases le_or_gt (2 ^ 52 : ℚ) ((num / den : ℚ) / 2 ^ x.exponent) with full | short
      · exact exponentOf_of_full some_num hden least full (by linarith)
      · have isLeast := reached.resolve_left (not_le.2 short)
        rw [isLeast] at short ⊢
        exact exponentOf_of_least some_num hden short
    have rounded : roundDiv (num * Nat.pow 2 (-x.exponent).toNat)
        (den * Nat.pow 2 x.exponent.toNat) = x.significand := by
      refine roundDiv_of_near (Nat.mul_pos hden (Nat.pow_pos two_pos)) ?_ ?_ ?_ <;>
        rw [cast_scaled two_pos]
      · exact_mod_cast low
      · exact_mod_cast high
      · exact_mod_cast ends
    rw [ofRatio?, if_neg some_num.ne']
    simp only [exponent, rounded]
    rw [if_neg x.normal.1.ne]
    exact ofParts?_self x
  · obtain ⟨short, above⟩ := not_or.1 reached
    exact ofRatio?_of_short positive hden h (not_le.1 short) (by omega)

end CredentialSchema.Binary64

import Mathlib.Tactic.FieldSimp
import CredentialSchema.Proofs.Number.Rounding

/-!
The shortest decimal of a binary64 number reads back as the number. Every decimal that is tried
is taken only from the interval of the number, and on the grid of seventeen digits one of the two
neighbours of the number lies there: its steps are too short to pass over the interval.
-/
namespace CredentialSchema.Decimal

open Binary64

def value (d : Decimal) : ℚ := d.digits * (10 : ℚ) ^ d.exponent

theorem value_succ (n : ℕ) (k : ℤ) : value ⟨n, k + 1⟩ = value ⟨n * 10, k⟩ := by
  simp only [value]
  rw [zpow_add₀ (by norm_num)]
  push_cast
  ring

theorem digitCount_le_iff {n k : ℕ} (positive : 0 < k) : digitCount n ≤ k ↔ n < 10 ^ k :=
  Nat.length_toDigits_le_iff (by norm_num) positive

theorem lt_pow_digitCount (n : ℕ) : n < 10 ^ digitCount n :=
  (digitCount_le_iff Nat.length_toDigits_pos).1 le_rfl

theorem pow_digitCount_le {n : ℕ} (positive : 0 < n) : 10 ^ (digitCount n - 1) ≤ n := by
  by_contra short
  rcases Nat.eq_zero_or_pos (digitCount n - 1) with isOne | more
  · rw [isOne] at short
    omega
  · have := (digitCount_le_iff more).2 (not_le.1 short)
    omega

theorem pow_pointOf_le {num den : ℕ} (hnum : 0 < num) (hden : 0 < den) :
    (10 : ℚ) ^ (pointOf num den - 1) ≤ num / den := by
  have positive : (0 : ℚ) < den := by exact_mod_cast hden
  rw [pointOf]
  split
  · next whole =>
    have least : 0 < num / den := Nat.div_pos whole hden
    have digits := (le_div_floor_iff hden).1 (pow_digitCount_le least)
    have count : ((digitCount (num / den) : ℤ) - 1) = ((digitCount (num / den) - 1 : ℕ) : ℤ) := by
      have : 0 < digitCount (num / den) := Nat.length_toDigits_pos
      omega
    rw [count, zpow_natCast]
    exact_mod_cast digits
  · next below =>
    have digits := lt_pow_digitCount ((den - 1) / num)
    rw [Nat.div_lt_iff_lt_mul hnum] at digits
    have reaches : den ≤ 10 ^ digitCount ((den - 1) / num) * num := by omega
    generalize digitCount ((den - 1) / num) = count at *
    rw [show (1 - (count : ℤ) - 1) = -(count : ℤ) by ring, zpow_neg, zpow_natCast,
      le_div_iff₀ positive, inv_mul_le_iff₀ (by positivity)]
    exact_mod_cast reaches

def inside (x : Binary64) (k : ℤ) (n : ℕ) : Bool :=
  let (low, _, high) := interval x
  let e := x.exponent - 2
  let unit := Nat.pow 2 e.toNat * Nat.pow 10 (-k).toNat
  let step := Nat.pow 2 (-e).toNat * Nat.pow 10 k.toNat
  if x.significand % 2 = 0 then low * unit ≤ n * step && n * step ≤ high * unit
  else low * unit < n * step && n * step < high * unit

def floor (x : Binary64) (k : ℤ) : ℕ :=
  let e := x.exponent - 2
  (interval x).2.1 * (Nat.pow 2 e.toNat * Nat.pow 10 (-k).toNat) /
    (Nat.pow 2 (-e).toNat * Nat.pow 10 k.toNat)

/-- The two neighbours of the number on a grid are all that is tried. -/
theorem onGrid?_eq (x : Binary64) (k : ℤ) : ∃ lower : Bool, onGrid? x k =
    if inside x k (floor x k) && (lower || !inside x k (floor x k + 1)) then
      some ⟨floor x k, k⟩
    else if inside x k (floor x k + 1) then some ⟨floor x k + 1, k⟩ else none := ⟨_, rfl⟩

theorem inside_of_onGrid? {x : Binary64} {k : ℤ} {d : Decimal} (h : onGrid? x k = some d) :
    d.exponent = k ∧ inside x k d.digits = true := by
  obtain ⟨lower, tried⟩ := onGrid?_eq x k
  rw [tried] at h
  split at h
  · next taken =>
    obtain rfl := Option.some.inj h
    exact ⟨rfl, (Bool.and_eq_true_iff.1 taken).1⟩
  · split at h
    · next taken =>
      obtain rfl := Option.some.inj h
      exact ⟨rfl, taken⟩
    · simp at h

theorem onGrid?_isSome {x : Binary64} {k : ℤ}
    (h : inside x k (floor x k) = true ∨ inside x k (floor x k + 1) = true) :
    (onGrid? x k).isSome := by
  obtain ⟨lower, tried⟩ := onGrid?_eq x k
  rw [tried]
  cases lowerInside : inside x k (floor x k) <;> cases upperInside : inside x k (floor x k + 1) <;>
    cases lower <;> simp_all

theorem cast_pow_toNat {b : ℕ} (hb : 0 < b) (e : ℤ) :
    (Nat.pow b e.toNat : ℚ) = (b : ℚ) ^ e * Nat.pow b (-e).toNat := by
  have positive : (b : ℚ) ≠ 0 := by exact_mod_cast hb.ne'
  rcases le_total 0 e with sign | sign
  · obtain ⟨n, rfl⟩ := Int.eq_ofNat_of_zero_le sign
    simp
  · obtain ⟨n, rfl⟩ := Int.exists_eq_neg_ofNat sign
    simp [positive]

theorem exists_common_unit (e k : ℤ) : ∃ c : ℚ, 0 < c ∧
    (Nat.pow 2 e.toNat * Nat.pow 10 (-k).toNat : ℕ) = (2 : ℚ) ^ e * c ∧
    (Nat.pow 2 (-e).toNat * Nat.pow 10 k.toNat : ℕ) = (10 : ℚ) ^ k * c := by
  have twos := cast_pow_toNat two_pos e
  have tens := cast_pow_toNat (b := 10) (by norm_num) k
  refine ⟨Nat.pow 2 (-e).toNat * Nat.pow 10 (-k).toNat, ?_, ?_, ?_⟩
  · simp only [Nat.pow_eq]
    positivity
  · rw [Nat.cast_mul, twos, Nat.cast_ofNat, mul_assoc]
  · rw [Nat.cast_mul, tens, Nat.cast_ofNat, mul_left_comm]

theorem inside_iff (x : Binary64) (k : ℤ) (n : ℕ) :
    inside x k n = true ↔ Rounds x (n * (10 : ℚ) ^ k) := by
  obtain ⟨c, positive, unit, step⟩ := exists_common_unit (x.exponent - 2) k
  simp only [inside]
  generalize Nat.pow 2 (x.exponent - 2).toNat * Nat.pow 10 (-k).toNat = u at unit ⊢
  generalize Nat.pow 2 (-(x.exponent - 2)).toNat * Nat.pow 10 k.toNat = s at step ⊢
  have le_left (a : ℕ) : a * u ≤ n * s ↔ a * (2 : ℚ) ^ (x.exponent - 2) ≤ n * (10 : ℚ) ^ k := by
    rw [← Nat.cast_le (α := ℚ), Nat.cast_mul, Nat.cast_mul, unit, step, ← mul_assoc, ← mul_assoc]
    exact mul_le_mul_iff_left₀ positive
  have le_right (a : ℕ) : n * s ≤ a * u ↔ n * (10 : ℚ) ^ k ≤ a * (2 : ℚ) ^ (x.exponent - 2) := by
    rw [← Nat.cast_le (α := ℚ), Nat.cast_mul, Nat.cast_mul, unit, step, ← mul_assoc, ← mul_assoc]
    exact mul_le_mul_iff_left₀ positive
  by_cases even : x.significand % 2 = 0
  · rw [if_pos even, Bool.and_eq_true, decide_eq_true_eq, decide_eq_true_eq, le_left, le_right]
    exact ⟨fun ⟨low, high⟩ => ⟨low, high, fun odd => by omega⟩, fun h => ⟨h.low, h.high⟩⟩
  · have odd : x.significand % 2 = 1 := by omega
    rw [if_neg even, Bool.and_eq_true, decide_eq_true_eq, decide_eq_true_eq, ← not_le, ← not_le,
      le_left, le_right, not_le, not_le]
    exact ⟨fun ⟨low, high⟩ => ⟨low.le, high.le, fun _ => ⟨low.ne, high.ne⟩⟩,
      fun h => ⟨lt_of_le_of_ne h.low (h.ends odd).1, lt_of_le_of_ne h.high (h.ends odd).2⟩⟩

theorem floor_bounds (x : Binary64) (k : ℤ) :
    floor x k * (10 : ℚ) ^ k ≤ x.significand * 2 ^ x.exponent ∧
      x.significand * 2 ^ x.exponent < (floor x k + 1 : ℕ) * (10 : ℚ) ^ k := by
  obtain ⟨c, positive, unit, step⟩ := exists_common_unit (x.exponent - 2) k
  have mid : (x.significand * 2 ^ x.exponent : ℚ) =
      (interval x).2.1 * (2 : ℚ) ^ (x.exponent - 2) := by
    rw [zpow_sub₀ two_ne_zero, interval]
    push_cast
    ring
  have stepPositive : 0 < Nat.pow 2 (-(x.exponent - 2)).toNat * Nat.pow 10 k.toNat :=
    Nat.mul_pos (Nat.pow_pos two_pos) (Nat.pow_pos (by norm_num))
  rw [mid, floor]
  generalize Nat.pow 2 (x.exponent - 2).toNat * Nat.pow 10 (-k).toNat = u at unit ⊢
  generalize Nat.pow 2 (-(x.exponent - 2)).toNat * Nat.pow 10 k.toNat = s at step stepPositive ⊢
  have below := Nat.div_mul_le_self ((interval x).2.1 * u) s
  have above := Nat.lt_mul_of_div_lt (Nat.lt_succ_self ((interval x).2.1 * u / s)) stepPositive
  rw [← Nat.cast_le (α := ℚ), Nat.cast_mul, Nat.cast_mul, unit, step, ← mul_assoc, ← mul_assoc]
    at below
  rw [← Nat.cast_lt (α := ℚ), Nat.cast_mul, Nat.cast_mul, unit, step, ← mul_assoc, ← mul_assoc]
    at above
  exact ⟨le_of_mul_le_mul_right below positive, lt_of_mul_lt_mul_right above positive.le⟩

theorem rounds_of_lt {r : ℚ} (low : (interval x).1 * (2 : ℚ) ^ (x.exponent - 2) < r)
    (high : r < (interval x).2.2 * (2 : ℚ) ^ (x.exponent - 2)) : Rounds x r :=
  ⟨low.le, high.le, fun _ => ⟨low.ne, high.ne⟩⟩

/-- The ends of the interval are a unit below the number and two above it at least, and together
far enough apart for a step of seventeen digits. -/
theorem interval_reaches (positive : 0 < x.significand) {g : ℚ}
    (fine : g * 10 ^ 16 ≤ x.significand * 2 ^ x.exponent) :
    (interval x).1 * (2 : ℚ) ^ (x.exponent - 2) < x.significand * 2 ^ x.exponent ∧
      x.significand * 2 ^ x.exponent < (interval x).2.2 * (2 : ℚ) ^ (x.exponent - 2) ∧
      (interval x).1 * (2 : ℚ) ^ (x.exponent - 2) + g <
        (interval x).2.2 * (2 : ℚ) ^ (x.exponent - 2) := by
  have unit : (0 : ℚ) < 2 ^ (x.exponent - 2) := by positivity
  have whole : (2 : ℚ) ^ x.exponent = 4 * 2 ^ (x.exponent - 2) := by
    rw [zpow_sub₀ two_ne_zero]
    field_simp
    norm_num
  rw [whole] at fine ⊢
  generalize (2 : ℚ) ^ (x.exponent - 2) = u at *
  have bound : (x.significand : ℚ) + 1 ≤ 2 ^ 53 := by exact_mod_cast x.normal.1
  have scaled : (x.significand : ℚ) * u + u ≤ 2 ^ 53 * u := by
    have := mul_le_mul_of_nonneg_right bound unit.le
    linarith
  rw [low_eq positive, high_eq]
  split
  · next isPower =>
    have equal : (x.significand : ℚ) = 2 ^ 52 := by exact_mod_cast isPower.1
    rw [equal] at fine ⊢
    exact ⟨by linarith, by linarith, by linarith⟩
  · exact ⟨by linarith, by linarith, by linarith⟩

theorem onGrid?_isSome_of_fine (positive : 0 < x.significand) {k : ℤ}
    (fine : (10 : ℚ) ^ k * 10 ^ 16 ≤ x.significand * 2 ^ x.exponent) : (onGrid? x k).isSome := by
  obtain ⟨floorLow, floorHigh⟩ := floor_bounds x k
  obtain ⟨below, above, wide⟩ := interval_reaches positive fine
  have step : ((floor x k + 1 : ℕ) : ℚ) * 10 ^ k = floor x k * 10 ^ k + 10 ^ k := by
    push_cast
    ring
  refine onGrid?_isSome ?_
  rw [inside_iff, inside_iff]
  by_cases reached : (interval x).1 * (2 : ℚ) ^ (x.exponent - 2) < floor x k * (10 : ℚ) ^ k
  · exact .inl (rounds_of_lt reached (by linarith))
  · exact .inr (rounds_of_lt (by linarith) (by linarith))

theorem two_pow_le_ten_pow (n : ℕ) : (2 : ℚ) ^ (3 * n) ≤ 10 ^ n := by
  rw [pow_mul]
  gcongr
  norm_num

theorem bounds_of_rounds (positive : 0 < x.significand) {r : ℚ} (h : Rounds x r) :
    (10 : ℚ) ^ (-401 : ℤ) < r ∧ r < 10 ^ (400 : ℤ) := by
  obtain ⟨bound, least, most, -⟩ := x.normal
  have bound : (x.significand : ℚ) ≤ 2 ^ 53 := by exact_mod_cast bound.le
  have one : (1 : ℚ) ≤ x.significand := by exact_mod_cast positive
  have low := h.low
  have high := h.high
  rw [low_eq positive] at low
  rw [high_eq] at high
  constructor
  · have unit : (2 : ℚ) ^ (-1076 : ℤ) ≤ 2 ^ (x.exponent - 2) :=
      zpow_le_zpow_right₀ (by norm_num) (by omega)
    calc (10 : ℚ) ^ (-401 : ℤ) < 10 ^ (-(359 : ℕ) : ℤ) :=
          zpow_lt_zpow_right₀ (by norm_num) (by norm_num)
      _ ≤ 2 ^ (-((3 * 359 : ℕ) : ℤ)) := by
        rw [zpow_neg, zpow_neg, zpow_natCast, zpow_natCast]
        gcongr
        exact two_pow_le_ten_pow 359
      _ ≤ 2 ^ (-1076 : ℤ) := zpow_le_zpow_right₀ (by norm_num) (by norm_num)
      _ ≤ 2 ^ (x.exponent - 2) := unit
      _ ≤ (4 * x.significand - if x.significand = 2 ^ 52 ∧ -1074 < x.exponent then 1 else 2) *
          2 ^ (x.exponent - 2) := by
        refine le_mul_of_one_le_left (by positivity) ?_
        split <;> linarith
      _ ≤ r := low
  · have unit : (2 : ℚ) ^ (x.exponent - 2) ≤ 2 ^ (969 : ℤ) :=
      zpow_le_zpow_right₀ (by norm_num) (by omega)
    calc r ≤ (4 * x.significand + 2) * 2 ^ (x.exponent - 2) := high
      _ ≤ 2 ^ 57 * 2 ^ (969 : ℤ) := by
        gcongr
        linarith
      _ = 2 ^ (3 * 342) := by
        rw [← zpow_natCast, ← zpow_natCast, ← zpow_add₀ two_ne_zero]
        norm_num
      _ ≤ 10 ^ 342 := two_pow_le_ten_pow 342
      _ < 10 ^ (400 : ℤ) := by
        rw [← zpow_natCast]
        exact zpow_lt_zpow_right₀ (by norm_num) (by norm_num)

theorem digits_pos_of_rounds (positive : 0 < x.significand) {d : Decimal}
    (h : Rounds x d.value) : 0 < d.digits := by
  have least := (bounds_of_rounds positive h).1
  by_contra isZero
  have isZero : d.digits = 0 := by omega
  rw [value, isZero, Nat.cast_zero, zero_mul] at least
  exact absurd least (not_lt.2 (by positivity))

theorem toBinary64?_of_rounds (positive : 0 < x.significand) {d : Decimal}
    (h : Rounds x d.value) : toBinary64? x.negative d = some x := by
  obtain ⟨least, most⟩ := bounds_of_rounds positive h
  have ratio : ((d.digits * Nat.pow 10 d.exponent.toNat : ℕ) : ℚ) /
      (Nat.pow 10 (-d.exponent).toNat : ℕ) = d.value :=
    cast_shifted (b := 10) (by norm_num) d.digits d.exponent
  have some_digits := digits_pos_of_rounds positive h
  have count : d.digits < 10 ^ digitCount d.digits := lt_pow_digitCount d.digits
  have notSmall : ¬ d.exponent + digitCount d.digits < -400 := by
    intro small
    have : d.value < (10 : ℚ) ^ (-401 : ℤ) := by
      calc d.value < (10 : ℚ) ^ digitCount d.digits * 10 ^ d.exponent := by
            rw [value]
            gcongr
            exact_mod_cast count
        _ = 10 ^ (d.exponent + digitCount d.digits) := by
            rw [zpow_add₀ (by norm_num), zpow_natCast, mul_comm]
        _ ≤ 10 ^ (-401 : ℤ) := zpow_le_zpow_right₀ (by norm_num) (by omega)
    linarith
  have notLarge : ¬ 400 < d.exponent + digitCount d.digits := by
    intro large
    have : (10 : ℚ) ^ (400 : ℤ) ≤ d.value := by
      calc (10 : ℚ) ^ (400 : ℤ) ≤ 10 ^ ((digitCount d.digits - 1 : ℕ) + d.exponent) :=
            zpow_le_zpow_right₀ (by norm_num) (by omega)
        _ = (10 : ℚ) ^ (digitCount d.digits - 1) * 10 ^ d.exponent := by
            rw [zpow_add₀ (by norm_num), zpow_natCast]
        _ ≤ d.value := by
            rw [value]
            gcongr
            exact_mod_cast pow_digitCount_le some_digits
    linarith
  simp only [toBinary64?, some_digits.ne', notSmall, notLarge, or_self, if_false]
  exact ofRatio?_of_rounds positive (Nat.pow_pos (by norm_num)) (ratio.symm ▸ h)

theorem rounds_shortest (positive : 0 < x.significand) : Rounds x (shortest x).value := by
  let point := pointOf (x.significand * Nat.pow 2 x.exponent.toNat) (Nat.pow 2 (-x.exponent).toNat)
  have ratio : ((x.significand * Nat.pow 2 x.exponent.toNat : ℕ) : ℚ) /
      (Nat.pow 2 (-x.exponent).toNat : ℕ) = x.significand * 2 ^ x.exponent :=
    cast_shifted two_pos x.significand x.exponent
  have order : (10 : ℚ) ^ (point - 1) ≤ x.significand * 2 ^ x.exponent := by
    rw [← ratio]
    exact pow_pointOf_le (Nat.mul_pos positive (Nat.pow_pos two_pos)) (Nat.pow_pos two_pos)
  have fine : (10 : ℚ) ^ (point - (16 + 1)) * 10 ^ 16 ≤ x.significand * 2 ^ x.exponent := by
    rw [← zpow_natCast, ← zpow_add₀ (by norm_num)]
    convert order using 2
    push_cast
    ring
  have found : ((List.range 17).findSome? fun (n : ℕ) => onGrid? x (point - (n + 1))).isSome := by
    rw [List.findSome?_isSome_iff]
    exact ⟨16, by simp, onGrid?_isSome_of_fine positive fine⟩
  obtain ⟨d, first⟩ := Option.isSome_iff_exists.1 found
  obtain ⟨n, -, taken⟩ := List.exists_of_findSome?_eq_some first
  obtain ⟨exponent, isInside⟩ := inside_of_onGrid? taken
  have rounds : Rounds x d.value := by
    rw [value, exponent]
    exact (inside_iff x _ _).1 isInside
  rw [shortest]
  simp only [point] at first
  simp only [first]
  split
  · next trailing =>
    have whole : d.digits / 10 * 10 = d.digits :=
      Nat.div_mul_cancel (Nat.dvd_of_mod_eq_zero trailing)
    rwa [value_succ, whole]
  · exact rounds

/-- The shortest decimal of a number is read as this number. -/
theorem toBinary64?_shortest (positive : 0 < x.significand) :
    toBinary64? x.negative (shortest x) = some x :=
  toBinary64?_of_rounds positive (rounds_shortest positive)

end CredentialSchema.Decimal

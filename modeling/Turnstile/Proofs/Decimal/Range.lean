import Mathlib.Algebra.Order.Field.Power
import Mathlib.Data.Rat.Cast.Order
import Mathlib.Tactic.Linarith
import Mathlib.Tactic.NormNum
import Mathlib.Tactic.Positivity
import Mathlib.Tactic.Ring
import Turnstile.Proofs.Decimal.Bounds

/-!
# Which numbers are doubles

A significand times a power of ten is computed one rounding at a time, so it may pass the greatest
double although the number does not.

* `Double.value`: the magnitude of a double.
* `Double.ofRatio_some_of_lt`: a ratio that is not rounded past the greatest double has a nearest one.
* `Double.ofNat_value_le`: **a natural number is rounded up by one part in 2^53 at most.**
* `Double.scale_some`: so **a significand times a power of ten is a double**, up to a few units below
  the greatest one.
-/

namespace Turnstile

namespace Double

variable {k num den m : Nat} {x y : Double}

/-- The magnitude of a double. -/
def value (x : Double) : ℚ :=
  x.ratio.1 / x.ratio.2

theorem value_eq (negative : Bool) (m : Nat) (e : Int) : value ⟨negative, m, e⟩ = m * 2 ^ e := by
  cases e with
  | ofNat j => simp [value, ratio]
  | negSucc j => simp [value, ratio, zpow_negSucc, div_eq_mul_inv]

theorem value_zero : value zero = 0 := by
  rw [zero, value_eq, Nat.cast_zero, zero_mul]

theorem value_nonneg (x : Double) : 0 ≤ x.value := by
  unfold value
  positivity

theorem value_le_iff (k : Nat) (x : Double) : x.value ≤ 2 ^ k ↔ x.ratio.1 ≤ 2 ^ k * x.ratio.2 := by
  have hpos : (0 : ℚ) < x.ratio.2 := by exact_mod_cast x.ratio_pos
  rw [value, div_le_iff₀ hpos]
  exact_mod_cast Iff.rfl

/-! ## Rounding -/

theorem two_mul_roundDiv_le (num den : Nat) : 2 * (roundDiv num den * den) ≤ 2 * num + den := by
  have hmod := Nat.div_add_mod' num den
  rw [roundDiv]
  split
  · omega
  split
  · rw [Nat.add_mul]; omega
  split
  · omega
  · rw [Nat.add_mul]; omega

/-- What is less than a half above an integer is rounded to no more than the integer. -/
theorem roundDiv_le (h : 2 * num < (2 * m + 1) * den) : roundDiv num den ≤ m := by
  have hround := two_mul_roundDiv_le num den
  have hlt : 2 * roundDiv num den * den < (2 * m + 2) * den := by
    calc 2 * roundDiv num den * den = 2 * (roundDiv num den * den) := Nat.mul_assoc ..
      _ ≤ 2 * num + den := hround
      _ < (2 * m + 1) * den + den := by omega
      _ = (2 * m + 2) * den := by ring
  have hlt' := Nat.lt_of_mul_lt_mul_right hlt
  omega

theorem roundDiv_le_of_le (hden : 0 < den) (h : num ≤ m * den) : roundDiv num den ≤ m := by
  refine roundDiv_le ?_
  calc 2 * num ≤ 2 * (m * den) := by omega
    _ < 2 * (m * den) + den := by omega
    _ = (2 * m + 1) * den := by ring

/-- The mantissa and the exponent that a ratio is rounded to, before it is known whether they fit. -/
theorem ofRatio_value (hnum : num ≠ 0) (hx : ofRatio? num den = some x) :
    x.value = roundDiv (unscaled num den (exponentOf num den)).1
      (unscaled num den (exponentOf num den)).2 * 2 ^ exponentOf num den := by
  rw [ofRatio?, if_neg hnum] at hx
  dsimp only at hx
  split at hx
  · rename_i hcarry
    split at hx
    · cases hx
      have hstep : (2 : ℚ) ^ (exponentOf num den + 1) = 2 ^ exponentOf num den * 2 :=
        zpow_add_one₀ (by norm_num) _
      rw [value_eq, hcarry, hstep]
      push_cast
      ring
    · cases hx
  · split at hx
    · cases hx
      exact value_eq ..
    · cases hx

theorem exponentOf_le_log (h : -1074 < exponentOf num den) :
    exponentOf num den ≤ (num.log2 : Int) - den.log2 - 52 := by
  rw [exponentOf] at h ⊢
  split at h <;> split <;> omega

/-- Half the unit of the greatest doubles: from `2 ^ 54 - 1` of them on numbers are rounded past the
greatest one, which is `2 ^ 54 - 2` of them. -/
@[irreducible]
def halfUnit : Nat := Nat.pow 2 970

theorem halfUnit_cast : (halfUnit : ℚ) = 2 ^ 970 := by
  have hcast : ∀ j, ((Nat.pow 2 j : Nat) : ℚ) = 2 ^ j := Nat.cast_pow 2
  unfold halfUnit
  exact hcast 970

theorem unscaled_of_pow {j unit : Nat} (h : Nat.pow 2 j = unit) (num den : Nat) :
    unscaled num den (j : Int) = (num, den * unit) := by
  rw [← h]
  rfl

theorem unscaled_greatest (num den : Nat) : unscaled num den 971 = (num, den * (2 * halfUnit)) :=
  unscaled_of_pow (by decide +kernel) num den

theorem unscaled_past (num den : Nat) : unscaled num den 972 = (num, den * (4 * halfUnit)) :=
  unscaled_of_pow (by decide +kernel) num den

/-- What is not rounded past the greatest double has no greater exponent. -/
theorem exponentOf_le_greatest (h : num < (2 ^ 54 - 1) * halfUnit * den) : exponentOf num den ≤ 971 := by
  have hlog : num.log2 < den.log2 + 1025 := by
    by_cases hnum : num = 0
    · rw [hnum, Nat.log2_zero]
      omega
    refine (Nat.log2_lt hnum).2 ?_
    calc num < (2 ^ 54 - 1) * halfUnit * den := h
      _ ≤ 2 ^ 1024 * 2 ^ (den.log2 + 1) := Nat.mul_le_mul (by decide +kernel) (Nat.le_of_lt Nat.lt_log2_self)
      _ = 2 ^ (den.log2 + 1025) := by rw [← Nat.pow_add]; congr 1; omega
  rw [exponentOf]
  split
  · omega
  · rename_i hfull
    by_contra hgreatest
    -- the quotient at the exponent 972 does not have its 53 bits
    have hexponent : (num.log2 : Int) - den.log2 - 52 = 972 := by omega
    rw [hexponent, unscaled_past] at hfull
    refine hfull (Nat.div_lt_of_lt_mul ?_)
    calc num < (2 ^ 54 - 1) * halfUnit * den := h
      _ ≤ 4 * leastFull * halfUnit * den :=
        Nat.mul_le_mul_right den (Nat.mul_le_mul_right halfUnit (by decide))
      _ = den * (4 * halfUnit) * leastFull := by ring

/-- **A ratio that is not rounded past the greatest double has a nearest double.** -/
theorem ofRatio_some_of_lt (h : num < (2 ^ 54 - 1) * halfUnit * den) : ∃ x, ofRatio? num den = some x := by
  by_cases hnum : num = 0
  · exact ⟨zero, by rw [ofRatio?, if_pos hnum]⟩
  have he := exponentOf_le_greatest h
  rw [ofRatio?, if_neg hnum]
  dsimp only
  split
  · rename_i hcarry
    refine ⟨_, if_pos (show exponentOf num den + 1 ≤ 971 from ?_)⟩
    -- at the greatest exponent the mantissa is not rounded up to the next power of two
    by_contra hgreatest
    have hexponent : exponentOf num den = 971 := by omega
    have hround : roundDiv num (den * (2 * halfUnit)) ≤ 2 ^ 53 - 1 := by
      refine roundDiv_le ?_
      calc 2 * num < 2 * ((2 ^ 54 - 1) * halfUnit * den) := by omega
        _ = (2 * (2 ^ 53 - 1) + 1) * (den * (2 * halfUnit)) := by ring
    rw [hexponent, unscaled_greatest] at hcarry
    rw [hcarry] at hround
    exact absurd hround (by decide)
  · exact ⟨_, rfl⟩

/-! ## Upper bounds -/

/-- **A natural number is rounded up by one part in 2^53 at most.** -/
theorem ofNat_value_le (n : Nat) : (ofNat n).value ≤ n * (1 + 1 / 2 ^ 53) := by
  have hbound : (0 : ℚ) ≤ n * (1 + 1 / 2 ^ 53) := by positivity
  rw [ofNat]
  cases hx : ofRatio? n 1 with
  | none => exact value_zero.le.trans hbound
  | some x =>
    by_cases hn : n = 0
    · rw [ofRatio?, if_pos hn] at hx
      cases hx
      exact value_zero.le.trans hbound
    rw [Option.getD_some, ofRatio_value hn hx]
    cases he : exponentOf n 1 with
    | ofNat j =>
      have hlog : exponentOf n 1 ≤ (n.log2 : Int) - Nat.log2 1 - 52 :=
        exponentOf_le_log (by rw [he, Int.ofNat_eq_natCast]; omega)
      rw [he, Int.ofNat_eq_natCast, show Nat.log2 1 = 0 from by decide] at hlog
      -- the half unit that is rounded up by is one part in 2^53 of the number
      have hunit : 2 ^ j * 2 ^ 52 ≤ n := by
        calc 2 ^ j * 2 ^ 52 = 2 ^ (j + 52) := (Nat.pow_add ..).symm
          _ ≤ 2 ^ n.log2 := Nat.pow_le_pow_right (by decide) (by omega)
          _ ≤ n := Nat.log2_self_le hn
      have hround : 2 * (roundDiv n (1 * 2 ^ j) * (1 * 2 ^ j)) ≤ 2 * n + 1 * 2 ^ j :=
        two_mul_roundDiv_le n (1 * 2 ^ j)
      have hunit' : (2 : ℚ) ^ j * 2 ^ 52 ≤ n := by exact_mod_cast hunit
      have hround' : 2 * ((roundDiv n (1 * 2 ^ j) : ℚ) * 2 ^ j) ≤ 2 * n + 2 ^ j := by
        exact_mod_cast (by simpa using hround)
      show (roundDiv n (1 * 2 ^ j) : ℚ) * 2 ^ (j : Int) ≤ _
      rw [zpow_natCast]
      linarith
    | negSucc j =>
      have hround : roundDiv (n * 2 ^ (j + 1)) 1 ≤ n * 2 ^ (j + 1) :=
        roundDiv_le_of_le Nat.one_pos (by omega)
      have hround' : (roundDiv (n * 2 ^ (j + 1)) 1 : ℚ) ≤ n * 2 ^ (j + 1) := by exact_mod_cast hround
      show (roundDiv (n * 2 ^ (j + 1)) 1 : ℚ) * 2 ^ Int.negSucc j ≤ _
      rw [zpow_negSucc, ← div_eq_mul_inv, div_le_iff₀ (by positivity)]
      nlinarith

/-- What is no more than a power of two is not rounded past it. -/
theorem ofRatio_value_le (hden : 0 < den) (h : num ≤ 2 ^ k * den) (hx : ofRatio? num den = some x) :
    x.value ≤ 2 ^ k := by
  by_cases hnum : num = 0
  · rw [ofRatio?, if_pos hnum] at hx
    cases hx
    exact value_zero.le.trans (by positivity)
  rw [ofRatio_value hnum hx]
  cases he : exponentOf num den with
  | ofNat j =>
    have hleast : den * 2 ^ j ≤ num := by
      have hle : den * 2 ^ (exponentOf num den).toNat ≤ num :=
        exponentOf_le hnum (by rw [he]; exact Int.natCast_nonneg j)
      rwa [he] at hle
    -- so the exponent is no greater than that of the power
    have hj : j ≤ k := by
      have hpow : den * 2 ^ j ≤ den * 2 ^ k := by rw [Nat.mul_comm den (2 ^ k)]; omega
      exact (Nat.pow_le_pow_iff_right (by decide)).1 (Nat.le_of_mul_le_mul_left hpow hden)
    obtain ⟨i, rfl⟩ := Nat.exists_eq_add_of_le hj
    have hround : roundDiv num (den * 2 ^ j) ≤ 2 ^ i := by
      refine roundDiv_le_of_le (Nat.mul_pos hden (Nat.pow_pos (by decide))) ?_
      calc num ≤ 2 ^ (j + i) * den := h
        _ = 2 ^ i * (den * 2 ^ j) := by rw [Nat.pow_add]; ac_rfl
    have hround' : (roundDiv num (den * 2 ^ j) : ℚ) ≤ 2 ^ i := by exact_mod_cast hround
    show (roundDiv num (den * 2 ^ j) : ℚ) * 2 ^ (j : Int) ≤ _
    rw [zpow_natCast, pow_add, mul_comm]
    exact mul_le_mul_of_nonneg_left hround' (by positivity)
  | negSucc j =>
    have hround : roundDiv (num * 2 ^ (j + 1)) den ≤ 2 ^ k * 2 ^ (j + 1) := by
      refine roundDiv_le_of_le hden ?_
      calc num * 2 ^ (j + 1) ≤ 2 ^ k * den * 2 ^ (j + 1) := Nat.mul_le_mul_right _ h
        _ = 2 ^ k * 2 ^ (j + 1) * den := by ac_rfl
    have hround' : (roundDiv (num * 2 ^ (j + 1)) den : ℚ) ≤ 2 ^ k * 2 ^ (j + 1) := by exact_mod_cast hround
    show (roundDiv (num * 2 ^ (j + 1)) den : ℚ) * 2 ^ Int.negSucc j ≤ _
    rwa [zpow_negSucc, ← div_eq_mul_inv, div_le_iff₀ (by positivity)]

theorem ofNat_value_le_pow {n : Nat} (h : n ≤ 2 ^ k) : (ofNat n).value ≤ 2 ^ k := by
  rw [ofNat]
  cases hx : ofRatio? n 1 with
  | none => exact value_zero.le.trans (by positivity)
  | some x => exact ofRatio_value_le Nat.one_pos (by rwa [Nat.mul_one]) hx

/-! ## Scaling -/

/-- A product that is not rounded past the greatest double is one. -/
theorem mul_some (h : x.value * y.value < (2 ^ 54 - 1) * halfUnit) : ∃ z, x.mul? y = some z := by
  have hx : (0 : ℚ) < x.ratio.2 := by exact_mod_cast x.ratio_pos
  have hy : (0 : ℚ) < y.ratio.2 := by exact_mod_cast y.ratio_pos
  refine ofRatio_some_of_lt ?_
  rw [value, value, div_mul_div_comm, div_lt_iff₀ (mul_pos hx hy)] at h
  have hlimit : ((2 ^ 54 - 1 : Nat) : ℚ) = 2 ^ 54 - 1 := by norm_num
  rw [← hlimit] at h
  exact_mod_cast h

/-- A number of 64 bits divided by a power of ten is one again. -/
theorem div_some {j : Nat} (hpos : 0 < j) (hj : j ≤ 308) (hx : x.value ≤ 2 ^ 64) :
    ∃ z, x.div? (powerOfTen j) = some z ∧ z.value ≤ 2 ^ 64 := by
  have hpower : 2 ^ 3 * (powerOfTen j).ratio.2 ≤ (powerOfTen j).ratio.1 := powerOfTen_atLeast hpos hj
  have hunit := (powerOfTen j).ratio_pos
  rw [value_le_iff] at hx
  have hquotient : x.ratio.1 * (powerOfTen j).ratio.2 ≤ 2 ^ 64 * (x.ratio.2 * (powerOfTen j).ratio.1) := by
    calc x.ratio.1 * (powerOfTen j).ratio.2 ≤ 2 ^ 64 * x.ratio.2 * (powerOfTen j).ratio.1 :=
          Nat.mul_le_mul hx (by omega)
      _ = 2 ^ 64 * (x.ratio.2 * (powerOfTen j).ratio.1) := Nat.mul_assoc ..
  have hden : 0 < x.ratio.2 * (powerOfTen j).ratio.1 := Nat.mul_pos x.ratio_pos (by omega)
  obtain ⟨z, hz⟩ : ∃ z, x.div? (powerOfTen j) = some z := by
    refine ofRatio_some_of_lt (Nat.lt_of_le_of_lt hquotient ?_)
    exact Nat.mul_lt_mul_of_pos_right (by decide +kernel) hden
  exact ⟨z, hz, ofRatio_value_le hden hquotient hz⟩

/-- A number of 64 bits times a negative power of ten is a double, however small. -/
theorem scaleFrom_negative {e : Int} (he : e < 0) (hx : x.value ≤ 2 ^ 64) :
    ∃ z, scaleFrom x e = some z := by
  obtain ⟨n, hn⟩ : ∃ n, (-e).toNat = n := ⟨_, rfl⟩
  induction n using Nat.strong_induction_on generalizing x e with
  | _ n ih =>
  rw [scaleFrom]
  by_cases hzero : x.mantissa = 0
  · exact ⟨x, if_pos hzero⟩
  rw [if_neg hzero, if_neg (by omega), if_neg (by omega)]
  by_cases hlow : -308 ≤ e
  · obtain ⟨z, hz, -⟩ := div_some (j := (-e).toNat) (by omega) (by omega) hx
    exact ⟨z, by rw [if_pos hlow, hz]⟩
  · obtain ⟨z, hz, hle⟩ := div_some (j := 308) (by decide) (Nat.le_refl _) hx
    obtain ⟨w, hw⟩ := ih (-(e + 308)).toNat (by omega) (show e + 308 < 0 by omega) hle rfl
    exact ⟨w, by rw [if_neg hlow, hz, Option.bind_some, hw]⟩

/-- The power of ten that a number is multiplied by to stay below the greatest double. -/
theorem exponent_le_of_pos {n j : Nat} (hn : 0 < n) (h : (n : ℚ) * 10 ^ j ≤ (2 ^ 54 - 7) * halfUnit) :
    j ≤ 308 := by
  refine Nat.le_of_lt_succ (Nat.lt_of_not_le fun hj => ?_)
  have hlimit : (2 ^ 54 - 7) * halfUnit < 10 ^ 309 := by decide +kernel
  have hpower : ∀ i, i ≤ j → 10 ^ i ≤ n * 10 ^ j := fun i hi =>
    Nat.le_trans (Nat.pow_le_pow_right (by decide) hi) (Nat.le_mul_of_pos_left _ hn)
  have hcast : (((2 ^ 54 - 7) * halfUnit : Nat) : ℚ) = (2 ^ 54 - 7) * halfUnit := by
    rw [Nat.cast_mul]
    norm_num
  rw [← hcast] at h
  have hle : n * 10 ^ j ≤ (2 ^ 54 - 7) * halfUnit := by exact_mod_cast h
  exact absurd (Nat.le_trans (hpower 309 hj) hle) (Nat.not_le.2 hlimit)

/-- **A significand of 64 bits times a power of ten is a double** up to three units below the greatest
one. -/
theorem scale_some {significand : Nat} {e : Int} (negative : Bool) (hsignificand : significand < 2 ^ 64)
    (h : (significand : ℚ) * 10 ^ e ≤ (2 ^ 54 - 7) * halfUnit) :
    ∃ z, scale? negative significand e = some z := by
  obtain ⟨z, hz⟩ : ∃ z, scaleFrom (ofNat significand) e = some z := by
    by_cases he : e < 0
    · exact scaleFrom_negative he (ofNat_value_le_pow (Nat.le_of_lt hsignificand))
    obtain ⟨j, rfl⟩ := Int.eq_ofNat_of_zero_le (Int.not_lt.1 he)
    rw [zpow_natCast] at h
    rw [scaleFrom]
    by_cases hzero : (ofNat significand).mantissa = 0
    · exact ⟨_, if_pos hzero⟩
    have hj : j ≤ 308 := exponent_le_of_pos (Nat.pos_of_ne_zero fun h => hzero (by rw [h]; rfl)) h
    rw [if_neg hzero, if_neg (by omega), if_pos (by omega), Int.toNat_natCast]
    refine mul_some ?_
    have hpower : (powerOfTen j).value ≤ 10 ^ j * (1 + 1 / 2 ^ 53) := by
      exact_mod_cast ofNat_value_le (10 ^ j)
    have hunit : (0 : ℚ) < halfUnit := by exact_mod_cast (by decide +kernel : 0 < halfUnit)
    calc (ofNat significand).value * (powerOfTen j).value
        ≤ significand * (1 + 1 / 2 ^ 53) * (10 ^ j * (1 + 1 / 2 ^ 53)) :=
          mul_le_mul (ofNat_value_le significand) hpower (value_nonneg _)
            (mul_nonneg (Nat.cast_nonneg significand) (by norm_num))
      _ = significand * 10 ^ j * (1 + 1 / 2 ^ 53) ^ 2 := by ring
      _ ≤ (2 ^ 54 - 7) * halfUnit * (1 + 1 / 2 ^ 53) ^ 2 := mul_le_mul_of_nonneg_right h (by norm_num)
      _ = (2 ^ 54 - 7) * (1 + 1 / 2 ^ 53) ^ 2 * halfUnit := by ring
      _ < (2 ^ 54 - 1) * halfUnit := mul_lt_mul_of_pos_right (by norm_num) hunit
  exact ⟨{ z with negative }, by rw [scale?, hz]; rfl⟩

end Double

end Turnstile

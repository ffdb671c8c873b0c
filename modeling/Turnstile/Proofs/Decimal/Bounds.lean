import Mathlib.Algebra.Order.Group.Nat
import Turnstile.Json.Basic

/-!
# Lower bounds of doubles

Powers of two are doubles, so rounding passes none of them.

* `Double.AtLeast`: a magnitude is not below a power of two.
* `Double.ofRatio_atLeast`: neither is the double nearest to a ratio that is not.
* `Double.scale_atLeast`: a significand of 60 bits times a power of ten leaves the range of 64 bits.
* `Number.toInt64_scale`: so such a number counts for the nearest end of that range.
-/

namespace Turnstile

namespace Double

/-- Whether the magnitude of a double is at least a power of two. -/
def AtLeast (k : Nat) (x : Double) : Prop :=
  2 ^ k * x.ratio.2 ≤ x.ratio.1

instance (k : Nat) (x : Double) : Decidable (x.AtLeast k) :=
  inferInstanceAs (Decidable (2 ^ k * x.ratio.2 ≤ x.ratio.1))

variable {k num den : Nat} {x y : Double}

theorem ratio_pos (x : Double) : 0 < x.ratio.2 := by
  rw [ratio]
  cases x.exponent with
  | ofNat j => exact Nat.one_pos
  | negSucc j => exact Nat.pow_pos (by decide)

theorem AtLeast.le_div (h : x.AtLeast k) : 2 ^ k ≤ x.ratio.1 / x.ratio.2 :=
  (Nat.le_div_iff_mul_le x.ratio_pos).2 h

theorem div_le_roundDiv (num den : Nat) : num / den ≤ roundDiv num den := by
  rw [roundDiv]
  split
  · exact Nat.le_refl _
  split
  · exact Nat.le_succ _
  split
  · exact Nat.le_refl _
  · exact Nat.le_succ _

/-- A mantissa that is rounded up to 2^53 is halved, at the next exponent. -/
theorem atLeast_carry {m : Nat} {e : Int} (h : AtLeast k ⟨false, 2 * m, e⟩) :
    AtLeast k ⟨false, m, e + 1⟩ := by
  cases e with
  | ofNat j =>
    have hbig : 2 ^ k * 1 ≤ 2 * m * 2 ^ j := h
    have hpow : m * 2 ^ (j + 1) = 2 * m * 2 ^ j := by rw [Nat.pow_succ]; ac_rfl
    show 2 ^ k * 1 ≤ m * 2 ^ (j + 1)
    omega
  | negSucc j =>
    have hbig : 2 ^ k * 2 ^ (j + 1) ≤ 2 * m := h
    have hpow : 2 ^ k * 2 ^ (j + 1) = 2 * (2 ^ k * 2 ^ j) := by rw [Nat.pow_succ]; ac_rfl
    cases j with
    | zero =>
      show 2 ^ k * 1 ≤ m * 2 ^ 0
      rw [Nat.pow_zero] at hpow
      omega
    | succ j =>
      show 2 ^ k * 2 ^ (j + 1) ≤ m
      omega

/-- Rounding at an exponent that leaves an integer part. -/
theorem atLeast_roundDiv {e : Int} (hden : 0 < den) (he : 0 ≤ e → den * 2 ^ e.toNat ≤ num)
    (h : 2 ^ k * den ≤ num) :
    AtLeast k ⟨false, roundDiv (unscaled num den e).1 (unscaled num den e).2, e⟩ := by
  have hround := div_le_roundDiv (unscaled num den e).1 (unscaled num den e).2
  cases e with
  | ofNat j =>
    have hscaled : 0 < den * 2 ^ j := Nat.mul_pos hden (Nat.pow_pos (by decide))
    have hone : 1 ≤ num / (den * 2 ^ j) := Nat.div_pos (he (Int.natCast_nonneg j)) hscaled
    show 2 ^ k * 1 ≤ _ * 2 ^ j
    rw [Nat.mul_one]
    rcases Nat.le_total k j with hk | hk
    · -- a lower power of two than the unit of the mantissa
      calc 2 ^ k ≤ 1 * 2 ^ j := by rw [Nat.one_mul]; exact Nat.pow_le_pow_right (by decide) hk
        _ ≤ _ := Nat.mul_le_mul_right _ (Nat.le_trans hone hround)
    · obtain ⟨i, rfl⟩ := Nat.exists_eq_add_of_le hk
      have hfits : 2 ^ i ≤ num / (den * 2 ^ j) := by
        rw [Nat.le_div_iff_mul_le hscaled]
        calc 2 ^ i * (den * 2 ^ j) = 2 ^ (j + i) * den := by rw [Nat.pow_add]; ac_rfl
          _ ≤ num := h
      calc 2 ^ (j + i) = 2 ^ i * 2 ^ j := by rw [Nat.pow_add, Nat.mul_comm]
        _ ≤ _ := Nat.mul_le_mul_right _ (Nat.le_trans hfits hround)
  | negSucc j =>
    show 2 ^ k * 2 ^ (j + 1) ≤ _
    refine Nat.le_trans ?_ hround
    show 2 ^ k * 2 ^ (j + 1) ≤ num * 2 ^ (j + 1) / den
    rw [Nat.le_div_iff_mul_le hden]
    calc 2 ^ k * 2 ^ (j + 1) * den = 2 ^ k * den * 2 ^ (j + 1) := by ac_rfl
      _ ≤ num * 2 ^ (j + 1) := Nat.mul_le_mul_right _ h

/-- The exponent of a ratio leaves an integer part. -/
theorem exponentOf_le (hnum : num ≠ 0) (h : 0 ≤ exponentOf num den) :
    den * 2 ^ (exponentOf num den).toNat ≤ num := by
  have hle : exponentOf num den ≤ (num.log2 : Int) - den.log2 - 52 := by
    rw [exponentOf] at h ⊢
    split at h <;> split <;> omega
  have hlog : den.log2 + 1 + (exponentOf num den).toNat ≤ num.log2 := by omega
  have hden : den ≤ 2 ^ (den.log2 + 1) := Nat.le_of_lt Nat.lt_log2_self
  calc den * 2 ^ (exponentOf num den).toNat
      ≤ 2 ^ (den.log2 + 1) * 2 ^ (exponentOf num den).toNat := Nat.mul_le_mul_right _ hden
    _ = 2 ^ (den.log2 + 1 + (exponentOf num den).toNat) := (Nat.pow_add ..).symm
    _ ≤ 2 ^ num.log2 := Nat.pow_le_pow_right (by decide) hlog
    _ ≤ num := Nat.log2_self_le hnum

/-- **Rounding a ratio passes no power of two.** -/
theorem ofRatio_atLeast (hden : 0 < den) (h : 2 ^ k * den ≤ num) (hx : ofRatio? num den = some x) :
    x.AtLeast k := by
  have hpow : 0 < 2 ^ k * den := Nat.mul_pos (Nat.pow_pos (by decide)) hden
  have hnum : num ≠ 0 := by omega
  have hround := atLeast_roundDiv hden (exponentOf_le hnum) h
  rw [ofRatio?, if_neg hnum] at hx
  dsimp only at hx
  split at hx
  · split at hx
    · rename_i hcarry _
      cases hx
      rw [hcarry] at hround
      exact atLeast_carry hround
    · cases hx
  · split at hx
    · cases hx
      exact hround
    · cases hx

/-- A number below 2^1023 has a nearest double, carried or not. -/
theorem ofRatio_some {n i : Nat} (hi : i ≤ 1023) (hn : n < 2 ^ i) : ∃ x, ofRatio? n 1 = some x := by
  rw [ofRatio?]
  split
  · exact ⟨zero, rfl⟩
  · rename_i hzero
    have hlog : n.log2 < i := (Nat.log2_lt hzero).2 hn
    have hone : Nat.log2 1 = 0 := by decide
    have hexponent : exponentOf n 1 ≤ 970 := by
      rw [exponentOf]
      split <;> omega
    dsimp only
    split
    · exact ⟨_, if_pos (show exponentOf n 1 + 1 ≤ 971 by omega)⟩
    · exact ⟨_, if_pos (show exponentOf n 1 ≤ 971 by omega)⟩

theorem ofNat_atLeast {n i : Nat} (h : 2 ^ k ≤ n) (hi : i ≤ 1023) (hn : n < 2 ^ i) :
    (ofNat n).AtLeast k := by
  obtain ⟨x, hx⟩ := ofRatio_some hi hn
  rw [ofNat, hx]
  exact ofRatio_atLeast Nat.one_pos (by rwa [Nat.mul_one]) hx

theorem powerOfTen_atLeast {e : Nat} (hpos : 0 < e) (he : e ≤ 308) : (powerOfTen e).AtLeast 3 := by
  rcases Nat.lt_or_eq_of_le he with hlt | rfl
  · have hlow : 2 ^ 3 ≤ 10 ^ e :=
      Nat.le_trans (by decide) (Nat.pow_le_pow_right (by decide) hpos : 10 ^ 1 ≤ 10 ^ e)
    have hhigh : 10 ^ e < 2 ^ 1023 :=
      Nat.lt_of_le_of_lt (Nat.pow_le_pow_right (by decide) (by omega : e ≤ 307)) (by decide +kernel)
    exact ofNat_atLeast hlow (Nat.le_refl 1023) hhigh
  · -- 10^308 is past 2^1023, so its exponent is the greatest one
    decide +kernel

theorem AtLeast.mantissa (h : x.AtLeast k) : x.mantissa ≠ 0 := by
  intro hzero
  have hpos : 0 < 2 ^ k * x.ratio.2 := Nat.mul_pos (Nat.pow_pos (by decide)) x.ratio_pos
  have hratio : x.ratio.1 = 0 := by
    rw [ratio, hzero]
    cases x.exponent with
    | ofNat j => exact Nat.zero_mul _
    | negSucc j => rfl
  rw [AtLeast, hratio] at h
  omega

theorem AtLeast.mul {i : Nat} {z : Double} (hx : x.AtLeast k) (hy : y.AtLeast i)
    (h : x.mul? y = some z) : z.AtLeast (k + i) := by
  refine ofRatio_atLeast (Nat.mul_pos x.ratio_pos y.ratio_pos) ?_ h
  calc 2 ^ (k + i) * (x.ratio.2 * y.ratio.2) = 2 ^ k * x.ratio.2 * (2 ^ i * y.ratio.2) := by
        rw [Nat.pow_add]; ac_rfl
    _ ≤ x.ratio.1 * y.ratio.1 := Nat.mul_le_mul hx hy

/-- **A significand of 60 bits times a power of ten passes 2^63.** -/
theorem scale_atLeast {negative : Bool} {significand e : Nat} (hlow : 2 ^ 60 ≤ significand)
    (hhigh : significand < 2 ^ 64) (he : 0 < e) (h : scale? negative significand e = some x) :
    x.AtLeast 63 ∧ x.negative = negative := by
  have hbase := ofNat_atLeast hlow (by decide) hhigh
  rw [scale?, scaleFrom, if_neg hbase.mantissa] at h
  split at h
  · cases h
  · rename_i hfits
    rw [if_pos (Int.natCast_nonneg e), Option.map_eq_some_iff] at h
    obtain ⟨y, hy, rfl⟩ := h
    have hproduct : y.AtLeast (60 + 3) := hbase.mul (powerOfTen_atLeast he (by omega)) hy
    exact ⟨hproduct, rfl⟩

end Double

namespace Number

/-- A double from 2^63 on counts for the end of the range of 64 bits on its side. -/
theorem toInt64_real {x : Double} (h : x.AtLeast 63) :
    (Number.real x).toInt64 = if x.negative then -9223372036854775808 else 9223372036854775807 := by
  have hle := h.le_div
  rw [toInt64, Double.truncate]
  split <;> omega

end Number

end Turnstile

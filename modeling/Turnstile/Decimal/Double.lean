/-!
# Doubles

Finite numbers of 53 significant bits, as exact integers: what decimal numbers
outside the integer range are stored as.

* `Double.ofRatio?`: the double nearest to a ratio, ties to the even mantissa,
  `none` past the greatest double.
* `Double.scale?`: a mantissa times a power of ten, as a reader of decimal numbers
  computes it: the mantissa is rounded first, then multiplied or divided by
  rounded powers of ten.
* `Double.truncate`: the integer part.
-/

namespace Turnstile

/-- A finite double: `mantissa * 2 ^ exponent`, with a sign that zero has too. The
mantissa is below 2^53, and at least 2^52 unless the exponent is -1074. -/
structure Double where
  negative : Bool
  mantissa : Nat
  exponent : Int
deriving DecidableEq, Repr

namespace Double

/-- Zero. -/
def zero : Double := ⟨false, 0, -1074⟩

/-- The least mantissa of 53 bits, 2^52. -/
def leastFull : Nat := 4503599627370496

/-- The quotient rounded to the nearest integer, a tie to the even one. -/
def roundDiv (num den : Nat) : Nat :=
  let q := num / den
  let twice := 2 * (num % den)
  if twice < den then q
  else if den < twice then q + 1
  else if q % 2 = 0 then q else q + 1

/-- `num / den` divided by a power of two, as a ratio of integers. -/
def unscaled (num den : Nat) (e : Int) : Nat × Nat :=
  match e with
  | .ofNat k => (num, den * Nat.pow 2 k)
  | .negSucc k => (num * Nat.pow 2 (k + 1), den)

/-- The exponent at which a ratio has a 53-bit integer part, not below -1074. -/
def exponentOf (num den : Nat) : Int :=
  let e : Int := (num.log2 : Int) - (den.log2 : Int) - 52
  let r := unscaled num den e
  max (-1074) (if r.1 / r.2 < leastFull then e - 1 else e)

/-- The double nearest to `num / den`; `none` if that is past the greatest one. -/
def ofRatio? (num den : Nat) : Option Double :=
  if num = 0 then some zero
  else
    let e := exponentOf num den
    let r := unscaled num den e
    let m := roundDiv r.1 r.2
    let x : Double := if m = 2 * leastFull then ⟨false, leastFull, e + 1⟩ else ⟨false, m, e⟩
    if x.exponent ≤ 971 then some x else none

/-- The magnitude as a ratio of integers. -/
def ratio (x : Double) : Nat × Nat :=
  match x.exponent with
  | .ofNat k => (x.mantissa * Nat.pow 2 k, 1)
  | .negSucc k => (x.mantissa, Nat.pow 2 (k + 1))

/-- The double nearest to a natural number; those that occur are below 2^64. -/
def ofNat (n : Nat) : Double :=
  (ofRatio? n 1).getD zero

/-- The product of two magnitudes. -/
def mul? (x y : Double) : Option Double :=
  ofRatio? (x.ratio.1 * y.ratio.1) (x.ratio.2 * y.ratio.2)

/-- The quotient of two magnitudes, for a divisor that is not zero. -/
def div? (x y : Double) : Option Double :=
  ofRatio? (x.ratio.1 * y.ratio.2) (x.ratio.2 * y.ratio.1)

/-- The double nearest to a power of ten. -/
def powerOfTen (k : Nat) : Double :=
  ofNat (Nat.pow 10 k)

/-- A magnitude times a power of ten, one rounding at a time: powers past 10^308 are
no doubles, so such a divisor is applied in steps of 10^308. -/
def scaleFrom (x : Double) (e : Int) : Option Double :=
  if x.mantissa = 0 then some x
  else if 308 < e then none
  else if 0 ≤ e then x.mul? (powerOfTen e.toNat)
  else if -308 ≤ e then x.div? (powerOfTen (-e).toNat)
  else (x.div? (powerOfTen 308)).bind fun y => scaleFrom y (e + 308)
termination_by (-e).toNat

/-- `significand * 10 ^ e`; `none` past the greatest double. -/
def scale? (negative : Bool) (significand : Nat) (e : Int) : Option Double :=
  (scaleFrom (ofNat significand) e).map fun x => { x with negative }

/-- The integer part, toward zero. -/
def truncate (x : Double) : Int :=
  let n : Int := (x.ratio.1 / x.ratio.2 : Nat)
  if x.negative then -n else n

end Double

end Turnstile

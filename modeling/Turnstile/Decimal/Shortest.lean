import Turnstile.Decimal.Double

/-!
# The shortest decimal of a double

* `Double.digits`: the fewest digits that read back as the double, and of those the
  nearest to it.
* `Double.text`: those digits, positional for leading exponents from -5 to 15 and
  with a signed exponent otherwise.
-/

namespace Turnstile.Double

/-- The decimal digits of a number. -/
def decimal (n : Nat) : List Char :=
  Nat.toDigits 10 n

/-- The exponent of the leading decimal digit of a positive ratio. -/
def leadingExponent (num den : Nat) : Int :=
  if den ≤ num then (decimal (num / den)).length - 1
  else
    let k := (decimal (den / num)).length - 1
    if den ≤ num * Nat.pow 10 k then -k else -(k + 1)

/-- The numbers that round to a positive double, in quarters of its last place: the
two ends, and whether they belong to it. -/
def interval (x : Double) : Nat × Nat × Bool :=
  let whole := 4 * x.mantissa
  let low := if x.mantissa = leastFull ∧ -1074 < x.exponent then whole - 1 else whole - 2
  (low, whole + 2, x.mantissa % 2 = 0)

/-- `n` quarters of the last place of a double, in units of `10 ^ k`, as a ratio. -/
def quarters (x : Double) (n : Nat) (k : Int) : Nat × Nat :=
  let two := x.exponent - 2
  (n * Nat.pow 2 two.toNat * Nat.pow 10 (-k).toNat, Nat.pow 2 (-two).toNat * Nat.pow 10 k.toNat)

/-- Whether `d` units of `10 ^ k` round to a positive double. -/
def readsBack (x : Double) (d : Nat) (k : Int) : Bool :=
  let (low, high, closed) := x.interval
  let l := x.quarters low k
  let h := x.quarters high k
  if closed then l.1 ≤ d * l.2 && d * h.2 ≤ h.1 else l.1 < d * l.2 && d * h.2 < h.1

/-- The neighbour of a positive double on the grid of multiples of `10 ^ k` that
reads back as it, the nearer if both do and the even one of a tie. -/
def onGrid? (x : Double) (k : Int) : Option Nat :=
  let v := x.quarters (4 * x.mantissa) k
  let d := v.1 / v.2
  match x.readsBack d k, x.readsBack (d + 1) k with
  | false, false => none
  | true, false => some d
  | false, true => some (d + 1)
  | true, true => some (roundDiv v.1 v.2)

/-- The first grid, from the coarsest of `fuel` ones down, with such a neighbour. -/
def firstGrid (x : Double) : Nat → Int → Nat × Int
  | 0, k => (roundDiv (x.quarters (4 * x.mantissa) k).1 (x.quarters (4 * x.mantissa) k).2, k)
  | fuel + 1, k =>
    match x.onGrid? k with
    | some d => (d, k)
    | none => firstGrid x fuel (k - 1)

/-- The shortest digits of a positive double, without closing zeros, and the exponent
of the last of them. Seventeen digits always suffice. -/
def digits (x : Double) : List Char × Int :=
  let (d, k) := x.firstGrid 16 (leadingExponent x.ratio.1 x.ratio.2)
  let all := decimal d
  let kept := (all.reverse.dropWhile (· = '0')).reverse
  (kept, k + ((all.length - kept.length : Nat) : Int))

/-- Digits with a point, for a leading exponent from -5 to 15. -/
def positional (ds : List Char) (lead : Int) : List Char :=
  if lead < 0 then '0' :: '.' :: (List.replicate (-lead - 1).toNat '0' ++ ds)
  else
    let whole := lead.toNat + 1
    if ds.length ≤ whole then ds ++ List.replicate (whole - ds.length) '0' ++ ['.', '0']
    else ds.take whole ++ '.' :: ds.drop whole

/-- Digits with a signed exponent. -/
def scientific (ds : List Char) (lead : Int) : List Char :=
  let fraction := match ds.drop 1 with
    | [] => []
    | more => '.' :: more
  ds.take 1 ++ fraction ++ 'e' :: (if lead < 0 then '-' else '+') :: decimal lead.natAbs

/-- The text of a double. -/
def text (x : Double) : List Char :=
  let sign := if x.negative then ['-'] else []
  if x.mantissa = 0 then sign ++ ['0', '.', '0']
  else
    let (ds, last) := x.digits
    let lead := last + (ds.length : Int) - 1
    sign ++ if -5 ≤ lead ∧ lead ≤ 15 then positional ds lead else scientific ds lead

end Turnstile.Double

import Turnstile.Proofs.Decimal.Range
import Turnstile.Proofs.Json.Integers

/-!
# Numbers as they are written

* `Literal`: a number by its sign, its digits before and behind the point, and its power of ten.
* `Literal.magnitude`: what it stands for.
* `Literal.number_followed`: **a number is read alike whatever follows it**, if that does not continue it.
* `Literal.number_some`: **a number is read if its magnitude is not past three units below the greatest
  double**; one nearer to it may be refused.
-/

namespace Turnstile.Json

open Octet Lexeme

/-- The sign of a written exponent. -/
inductive Sign where
  | none
  | plus
  | minus
deriving DecidableEq, Repr

def Sign.octets : Sign → Bytes
  | .none => []
  | .plus => [Octet.plus]
  | .minus => [Octet.minus]

/-- A written power of ten: its letter, its sign and its digits. -/
structure Power where
  letter : UInt8
  sign : Sign
  digits : List Char
  isLetter : isExponent letter = true
  areDigits : ∀ c ∈ digits, c.isDigit = true
  nonempty : digits ≠ []

/-- A written number. Without digits behind the point there is no point. -/
structure Literal where
  negative : Bool
  whole : List Char
  fraction : List Char
  power : Option Power
  wholeDigits : ∀ c ∈ whole, c.isDigit = true
  fractionDigits : ∀ c ∈ fraction, c.isDigit = true
  nonempty : whole ≠ []
  /-- Only zero starts with a zero. -/
  leading : whole.head? = some '0' → whole = ['0']

namespace Power

def octets (p : Power) : Bytes :=
  p.letter :: (p.sign.octets ++ octetsOf p.digits)

/-- The exponent without its sign. -/
def size (p : Power) : Nat :=
  Nat.ofDigitChars 10 p.digits 0

def exponent (p : Power) : Int :=
  if p.sign = .minus then -(p.size : Int) else p.size

end Power

/-- The octets of the digits behind the point, and of the point. -/
def pointed : List Char → Bytes
  | [] => []
  | c :: cs => point :: octetsOf (c :: cs)

/-- The octets of a power of ten, if there is one. -/
def powerOctets : Option Power → Bytes
  | none => []
  | some p => p.octets

/-- The exponent of a power of ten, if there is one. -/
def powerExponent : Option Power → Int
  | none => 0
  | some p => p.exponent

namespace Literal

def octets (l : Literal) : Bytes :=
  (if l.negative then [minus] else []) ++ (octetsOf l.whole ++ (pointed l.fraction ++ powerOctets l.power))

/-- The digits of a number without its point. -/
def significand (l : Literal) : Nat :=
  Nat.ofDigitChars 10 (l.whole ++ l.fraction) 0

/-- What a number stands for, without its sign. -/
def magnitude (l : Literal) : ℚ :=
  l.significand * 10 ^ (powerExponent l.power - l.fraction.length)

/-- Whether a number is no greater than three units below the greatest double, which is
`2 ^ 1024 - 2 ^ 971`, and has fewer digits behind the point than exponents can make up for. -/
structure InRange (l : Literal) : Prop where
  magnitude_le : l.magnitude ≤ 2 ^ 1024 - 2 ^ 973
  fraction_le : l.fraction.length + 308 ≤ maxExponent

end Literal

/-! ## Digits -/

section Digits

variable {cs : List Char} {limit v : Nat}

theorem ofDigitChars_append (cs ds : List Char) : Nat.ofDigitChars 10 (cs ++ ds) v =
    10 ^ ds.length * Nat.ofDigitChars 10 cs v + Nat.ofDigitChars 10 ds 0 := by
  rw [Nat.ofDigitChars_append, Nat.ofDigitChars_eq_ofDigitChars_zero]

theorem ofDigitChars_lt (hcs : ∀ c ∈ cs, c.isDigit = true) : Nat.ofDigitChars 10 cs 0 < 10 ^ cs.length := by
  induction cs with
  | nil => exact Nat.one_pos
  | cons c cs ih =>
    have hrest := ih fun d hd => hcs d (List.mem_cons_of_mem c hd)
    have hrange := digit_range (hcs c List.mem_cons_self)
    have hzero : '0'.toNat = 48 := rfl
    rw [Nat.ofDigitChars_cons, Nat.ofDigitChars_eq_ofDigitChars_zero, List.length_cons, Nat.pow_succ]
    have hhead : 10 ^ cs.length * (10 * 0 + (c.toNat - '0'.toNat)) ≤ 10 ^ cs.length * 9 :=
      Nat.mul_le_mul_left _ (by omega)
    omega

/-- **Digits are taken from the front** as long as their value fits, whatever is behind them. -/
theorem takeDigits_front (hcs : ∀ c ∈ cs, c.isDigit = true) (hv : v ≤ limit) :
    ∃ front back, cs = front ++ back ∧ Nat.ofDigitChars 10 front v ≤ limit ∧
      (back = [] ∨ limit < 10 * Nat.ofDigitChars 10 front v + 10) ∧
      ∀ count bs, NoDigit bs → takeDigits limit v count (octetsOf cs ++ bs) =
        (Nat.ofDigitChars 10 front v, count + front.length, octetsOf back ++ bs) := by
  induction cs generalizing v with
  | nil => exact ⟨[], [], rfl, hv, .inl rfl, fun count bs hbs => takeDigits_stop hbs count⟩
  | cons c cs ih =>
    obtain ⟨hdigit, hvalue⟩ := isDigit_octet (hcs c List.mem_cons_self)
    by_cases hfits : 10 * v + (c.toNat - '0'.toNat) ≤ limit
    · obtain ⟨front, back, rfl, hle, hrest, htake⟩ :=
        ih (fun d hd => hcs d (List.mem_cons_of_mem c hd)) hfits
      refine ⟨c :: front, back, rfl, hle, hrest, fun count bs hbs => ?_⟩
      show takeDigits limit v count (UInt8.ofNat c.toNat :: (octetsOf (front ++ back) ++ bs)) = _
      rw [takeDigits, hvalue, Nat.mul_comm v 10, if_pos ⟨hdigit, hfits⟩, htake (count + 1) bs hbs,
        Nat.ofDigitChars_cons, List.length_cons, Nat.add_right_comm, Nat.add_assoc]
    · have hrange := digit_range (hcs c List.mem_cons_self)
      have hzero : '0'.toNat = 48 := rfl
      refine ⟨[], c :: cs, rfl, hv, .inr ?_, fun count bs hbs => ?_⟩
      · rw [Nat.ofDigitChars_nil]
        omega
      show takeDigits limit v count (UInt8.ofNat c.toNat :: (octetsOf cs ++ bs)) = _
      rw [takeDigits, hvalue, Nat.mul_comm v 10, if_neg fun h => hfits h.2]
      rfl

end Digits

/-! ## Parts of a number -/

/-- What was read, and what follows it. -/
def followedBy (back : Bytes) (r : Except Fault Number) : Except Fault (Number × Bytes) :=
  r.map (·, back)

/-- The double that a significand and an exponent make. -/
def realOf (negative : Bool) (significand : Nat) (e : Int) : Except Fault Number :=
  match Double.scale? negative significand e with
  | some x => .ok (.real x)
  | none => .error .malformed

/-- What a significand with an exponent is read as, when a power of ten is behind it. -/
def powerReading (negative : Bool) (significand : Nat) (e : Int) : Option Power → Except Fault Number
  | none => realOf negative significand e
  | some p =>
    if p.size ≤ maxExponent then realOf negative significand (e + p.exponent)
    else if significand ≠ 0 ∧ p.sign ≠ .minus then .error .malformed
    else .ok (.real { Double.zero with negative })

theorem real_followed (negative : Bool) (significand : Nat) (e : Int) (back : Bytes) :
    real negative significand e back = followedBy back (realOf negative significand e) := by
  rw [real, realOf]
  cases Double.scale? negative significand e <;> rfl

/-- A sign in front of a digit. -/
theorem exponentSign_octets (sign : Sign) {c : Char} (hc : c.isDigit = true) (bs : Bytes) :
    exponentSign (sign.octets ++ UInt8.ofNat c.toNat :: bs) =
      (decide (sign = .minus), UInt8.ofNat c.toNat :: bs) := by
  have hrange := digit_range hc
  have hvalue := toNat_digit hc
  have hminus : UInt8.ofNat c.toNat ≠ minus := ne_of_toNat (by rw [hvalue, show minus.toNat = 45 from rfl]; omega)
  have hplus : UInt8.ofNat c.toNat ≠ plus := ne_of_toNat (by rw [hvalue, show plus.toNat = 43 from rfl]; omega)
  cases sign with
  | none =>
    show exponentSign (UInt8.ofNat c.toNat :: bs) = _
    rw [exponentSign, if_neg hminus, if_neg hplus]
    rfl
  | plus => rfl
  | minus => rfl

theorem exponent_power (negative : Bool) (significand : Nat) (e : Int) (p : Power) {back : Bytes}
    (hback : NoDigit back) :
    exponent negative significand e (p.sign.octets ++ octetsOf p.digits ++ back) =
      followedBy back (powerReading negative significand e (some p)) := by
  obtain ⟨c, cs, hdigits⟩ := List.exists_cons_of_ne_nil p.nonempty
  have hall := p.areDigits
  have hsize : p.size = Nat.ofDigitChars 10 cs (c.toNat - '0'.toNat) := by
    rw [Power.size, hdigits, Nat.ofDigitChars_cons, Nat.mul_zero, Nat.zero_add]
  rw [hdigits] at hall ⊢
  have hc := hall c List.mem_cons_self
  have hcs := fun d hd => hall d (List.mem_cons_of_mem c hd)
  obtain ⟨hdigit, hvalue⟩ := isDigit_octet hc
  have hsign := exponentSign_octets p.sign hc (octetsOf cs ++ back)
  rw [List.append_assoc, exponent, show octetsOf (c :: cs) ++ back =
    UInt8.ofNat c.toNat :: (octetsOf cs ++ back) from rfl, hsign]
  dsimp only
  rw [if_pos hdigit, hvalue, powerReading]
  by_cases hfits : p.size ≤ maxExponent
  · rw [takeDigits_fits hcs hback (hsize ▸ hfits)]
    dsimp only
    rw [countDigits_stop hback, if_pos hfits, if_pos rfl, ← hsize, real_followed, Power.exponent]
    by_cases hminus : p.sign = .minus
    · simp only [hminus, decide_true, if_true, Int.sub_eq_add_neg]
    · simp only [hminus, decide_false, if_false, Bool.false_eq_true]
  · -- the digits that do not fit are counted, and only their number matters
    have hrange := digit_range hc
    have hzero : '0'.toNat = 48 := rfl
    have hlimit : maxExponent = 2147483647 := rfl
    obtain ⟨v, count, ds, htake, hds, hleft, -, -⟩ :=
      takeDigits_excess hcs (show c.toNat - '0'.toNat ≤ maxExponent by omega) (by omega) 0 back
    rw [htake]
    dsimp only
    rw [countDigits_octets hleft hback]
    dsimp only
    rw [if_neg (List.length_pos_iff.2 hds).ne', if_neg hfits]
    by_cases hminus : p.sign = .minus
    · simp [hminus, followedBy, Except.map]
    · by_cases hsignificand : significand = 0
      · simp [hminus, hsignificand, followedBy, Except.map]
      · simp [hminus, hsignificand, followedBy, Except.map]

theorem Power.letter_kind (p : Power) : ¬ isDigit p.letter = true ∧ p.letter ≠ point := by
  rcases isExponent_iff.1 p.isLetter with hletter | hletter
  · rw [hletter]
    decide
  · rw [hletter]
    decide

theorem noDigit_power (power : Option Power) {back : Bytes} (hback : NoDigit back) :
    NoDigit (powerOctets power ++ back) := by
  cases power with
  | none => exact hback
  | some p =>
    intro b hb
    cases hb
    exact p.letter_kind.1

/-- **The digits behind the point are taken onto the significand** as long as it fits. -/
theorem fraction_octets {fs : List Char} (hfs : ∀ c ∈ fs, c.isDigit = true) (hsome : fs ≠ [])
    {significand : Nat} (hsignificand : significand ≤ maxSignificand) :
    ∃ front back, fs = front ++ back ∧ Nat.ofDigitChars 10 front significand ≤ maxSignificand ∧
      ∀ negative start power bs, Ends bs →
        fraction negative significand start (octetsOf fs ++ (powerOctets power ++ bs)) =
          followedBy bs (powerReading negative (Nat.ofDigitChars 10 front significand)
            (start - front.length) power) := by
  obtain ⟨front, back, rfl, hle, -, htake⟩ := takeDigits_front hfs hsignificand
  refine ⟨front, back, rfl, hle, fun negative start power bs hbs => ?_⟩
  have hnoDigit := noDigit_power power hbs.noDigit
  have hcount := countDigits_octets (fun c hc => hfs c (List.mem_append_right front hc)) hnoDigit
  have hdigits : ¬ (0 + front.length = 0 ∧ back.length = 0) := by
    rintro ⟨hfront, hback⟩
    rw [Nat.zero_add] at hfront
    rw [List.length_eq_zero_iff.1 hfront, List.length_eq_zero_iff.1 hback] at hsome
    exact hsome rfl
  rw [fraction, htake 0 _ hnoDigit]
  dsimp only
  rw [hcount]
  dsimp only
  rw [if_neg hdigits, Nat.zero_add]
  cases power with
  | none =>
    rw [powerReading, ← real_followed]
    cases bs with
    | nil => rfl
    | cons b bs => exact if_neg (hbs b rfl).2.2
  | some p =>
    rw [← exponent_power negative _ _ p hbs.noDigit]
    exact if_pos p.isLetter

/-- What the digits in front of the point are read as, when no point is behind them. -/
def wholeReading (negative : Bool) (significand excess : Nat) : Option Power → Except Fault Number
  | none => if excess = 0 then .ok (integer negative significand) else realOf negative significand excess
  | some p => powerReading negative significand excess (some p)

theorem afterInteger_power (negative : Bool) (significand excess : Nat) (power : Option Power) {back : Bytes}
    (hback : Ends back) : afterInteger negative significand excess (powerOctets power ++ back) =
      followedBy back (wholeReading negative significand excess power) := by
  cases power with
  | none =>
    rw [wholeReading]
    refine (afterInteger_end hback negative significand excess).trans ?_
    by_cases hexcess : excess = 0
    · rw [if_pos hexcess, if_pos hexcess]
      rfl
    · rw [if_neg hexcess, if_neg hexcess, real_followed]
  | some p =>
    rw [wholeReading, ← exponent_power negative _ _ p hback.noDigit]
    show afterInteger negative significand excess (p.letter :: (p.sign.octets ++ octetsOf p.digits ++ back)) = _
    rw [afterInteger, if_neg p.letter_kind.2, if_pos p.isLetter]

/-- **The digits in front of the point are taken for the significand** as long as it fits. -/
theorem magnitude_octets (l : Literal) : ∃ front back, l.whole = front ++ back ∧
    Nat.ofDigitChars 10 front 0 ≤ maxSignificand ∧
    (back = [] ∨ maxSignificand < 10 * Nat.ofDigitChars 10 front 0 + 10) ∧
    ∀ bs, NoDigit bs → magnitude l.negative (octetsOf l.whole ++ bs) =
      afterInteger l.negative (Nat.ofDigitChars 10 front 0) back.length bs := by
  obtain ⟨c, cs, hwhole⟩ := List.exists_cons_of_ne_nil l.nonempty
  have hall := l.wholeDigits
  by_cases hzero : c = '0'
  · -- zero is its only digit
    have hdigit : l.whole = ['0'] := l.leading (by rw [hwhole, hzero]; rfl)
    refine ⟨['0'], [], hdigit, Nat.zero_le _, .inl rfl, fun bs hbs => ?_⟩
    have hnone : ¬ bs.head?.any isDigit = true := by
      intro hany
      obtain ⟨b, hb, hisDigit⟩ := (Option.any_eq_true _ _).1 hany
      exact hbs b hb hisDigit
    rw [hdigit]
    show magnitude l.negative (zero :: bs) = _
    rw [magnitude, if_pos rfl, if_neg hnone]
    rfl
  · rw [hwhole] at hall
    have hrange := digit_range (hall c List.mem_cons_self)
    have hfirst : '0'.toNat = 48 := rfl
    have hlimit : maxSignificand = 18446744073709551615 := rfl
    obtain ⟨front, back, rfl, hle, hrest, htake⟩ := takeDigits_front
      (fun d hd => hall d (List.mem_cons_of_mem c hd)) (show c.toNat - '0'.toNat ≤ maxSignificand by omega)
    have hvalue : Nat.ofDigitChars 10 (c :: front) 0 = Nat.ofDigitChars 10 front (c.toNat - '0'.toNat) := by
      rw [Nat.ofDigitChars_cons, Nat.mul_zero, Nat.zero_add]
    refine ⟨c :: front, back, hwhole, hvalue ▸ hle, hvalue ▸ hrest, fun bs hbs => ?_⟩
    have hback : ∀ d ∈ back, d.isDigit = true :=
      fun d hd => hall d (List.mem_cons_of_mem c (List.mem_append_right front hd))
    rw [hwhole, magnitude_digits hall hzero, htake 0 bs hbs]
    dsimp only
    rw [countDigits_octets hback hbs, hvalue]

/-! ## Numbers in range -/

/-- The significand that is read, scaled as it is read, is close to the one that is written: what is
dropped before the point makes up for what is taken behind it, but for one part in 2^60. -/
theorem significand_le {front back : List Char} (front' back' : List Char)
    (hrest : back = [] ∨ maxSignificand < 10 * Nat.ofDigitChars 10 front 0 + 10)
    (hdigits : ∀ c ∈ front', c.isDigit = true) :
    2 ^ 60 * (Nat.ofDigitChars 10 front' (Nat.ofDigitChars 10 front 0) * 10 ^ back.length * 10 ^ back'.length) ≤
      (2 ^ 60 + 1) * Nat.ofDigitChars 10 ((front ++ back) ++ (front' ++ back')) 0 := by
  have hlimit : maxSignificand = 18446744073709551615 := rfl
  have hsmall := ofDigitChars_lt hdigits
  rw [ofDigitChars_append (front ++ back), ofDigitChars_append front back, ofDigitChars_append front' back',
    Nat.ofDigitChars_eq_ofDigitChars_zero, List.length_append, Nat.pow_add]
  generalize Nat.ofDigitChars 10 front 0 = p at hrest ⊢
  generalize Nat.ofDigitChars 10 front' 0 = q at hsmall ⊢
  generalize Nat.ofDigitChars 10 back 0 = dropped
  generalize Nat.ofDigitChars 10 back' 0 = dropped'
  generalize 10 ^ front'.length = taken at hsmall ⊢
  generalize 10 ^ back'.length = left
  rcases hrest with rfl | hgreat
  · rw [List.length_nil, Nat.pow_zero]
    calc 2 ^ 60 * ((taken * p + q) * 1 * left)
        = 2 ^ 60 * (taken * left * p + left * q) := by ring
      _ ≤ (2 ^ 60 + 1) * (taken * left * p + left * q) := Nat.mul_le_mul_right _ (by omega)
      _ ≤ (2 ^ 60 + 1) * (taken * left * (1 * p + dropped) + (left * q + dropped')) := by
        refine Nat.mul_le_mul_left _ ?_
        rw [Nat.mul_add, Nat.one_mul]
        omega
  · generalize 10 ^ back.length = excess
    -- the digits behind the point count for less than one unit of the significand
    have hunit : 2 ^ 60 * (p + 1) ≤ (2 ^ 60 + 1) * p := by omega
    calc 2 ^ 60 * ((taken * p + q) * excess * left)
        ≤ 2 ^ 60 * (taken * (p + 1) * excess * left) := by
          refine Nat.mul_le_mul_left _ (Nat.mul_le_mul_right _ (Nat.mul_le_mul_right _ ?_))
          rw [Nat.mul_succ]
          omega
      _ = 2 ^ 60 * (p + 1) * (taken * excess * left) := by ring
      _ ≤ (2 ^ 60 + 1) * p * (taken * excess * left) := Nat.mul_le_mul_right _ hunit
      _ = (2 ^ 60 + 1) * (taken * left * (excess * p)) := by ring
      _ ≤ (2 ^ 60 + 1) * (taken * left * (excess * p + dropped) + (left * q + dropped')) := by
        refine Nat.mul_le_mul_left _ ?_
        rw [Nat.mul_add]
        omega

/-- A number up to three units below the greatest double stays below it, even one part in 2^60 off. -/
theorem Literal.InRange.bound {l : Literal} (h : l.InRange) :
    l.magnitude * (1 + 1 / 2 ^ 60) ≤ (2 ^ 54 - 7) * Double.halfUnit := by
  have hle := h.magnitude_le
  have hgreatest : (2 : ℚ) ^ 1024 - 2 ^ 973 = (2 ^ 54 - 8) * Double.halfUnit := by
    rw [Double.halfUnit_cast, show 1024 = 54 + 970 from rfl, show 973 = 3 + 970 from rfl, pow_add, pow_add]
    generalize (2 : ℚ) ^ 970 = unit
    ring
  rw [hgreatest] at hle
  calc l.magnitude * (1 + 1 / 2 ^ 60) ≤ (2 ^ 54 - 8) * Double.halfUnit * (1 + 1 / 2 ^ 60) :=
        mul_le_mul_of_nonneg_right hle (by norm_num)
    _ = (2 ^ 54 - 8) * (1 + 1 / 2 ^ 60) * Double.halfUnit := by ring
    _ ≤ (2 ^ 54 - 7) * Double.halfUnit := mul_le_mul_of_nonneg_right (by norm_num) (Nat.cast_nonneg _)

/-- A significand in range is read, whatever power of ten is behind it. -/
theorem powerReading_some (negative : Bool) {significand : Nat} {e : Int} {power : Option Power}
    (hsignificand : significand ≤ maxSignificand) (hlow : 308 - (maxExponent : Int) ≤ e)
    (h : (significand : ℚ) * 10 ^ (e + powerExponent power) ≤ (2 ^ 54 - 7) * Double.halfUnit) :
    ∃ n, powerReading negative significand e power = .ok n := by
  have hlimit : maxSignificand = 18446744073709551615 := rfl
  have hreal : ∃ n, realOf negative significand (e + powerExponent power) = .ok n := by
    obtain ⟨x, hx⟩ := Double.scale_some negative (by omega) h
    exact ⟨.real x, by rw [realOf, hx]⟩
  cases power with
  | none => rwa [powerExponent, Int.add_zero] at hreal
  | some p =>
    rw [powerReading]
    by_cases hfits : p.size ≤ maxExponent
    · rw [if_pos hfits]
      exact hreal
    rw [if_neg hfits]
    by_cases hvoid : significand ≠ 0 ∧ p.sign ≠ .minus
    · -- an exponent past its greatest value would take the number out of range
      exfalso
      have hexponent : powerExponent (some p) = p.size := by rw [powerExponent, Power.exponent, if_neg hvoid.2]
      obtain ⟨j, hj⟩ := Int.eq_ofNat_of_zero_le (show 0 ≤ e + p.size by omega)
      rw [hexponent, hj, zpow_natCast] at h
      have hle := Double.exponent_le_of_pos (Nat.pos_of_ne_zero hvoid.1) h
      omega
    · exact ⟨_, if_neg hvoid⟩

theorem wholeReading_some {negative : Bool} {significand excess : Nat} {power : Option Power}
    (h : ∃ n, powerReading negative significand excess power = .ok n) :
    ∃ n, wholeReading negative significand excess power = .ok n := by
  cases power with
  | none =>
    rw [wholeReading]
    by_cases hexcess : excess = 0
    · exact ⟨_, if_pos hexcess⟩
    · rw [if_neg hexcess]
      exact h
  | some p => exact h

namespace Literal

variable (l : Literal)

/-- What is close to the written significand is as close to the magnitude. -/
theorem scaled_le {significand excess : Nat} (taken left : Nat)
    (h : 2 ^ 60 * (significand * 10 ^ excess * 10 ^ left) ≤ (2 ^ 60 + 1) * l.significand)
    (hlength : l.fraction.length = taken + left) :
    (significand : ℚ) * 10 ^ ((excess : Int) - taken + powerExponent l.power) ≤
      l.magnitude * (1 + 1 / 2 ^ 60) := by
  have hcast : (2 : ℚ) ^ 60 * (significand * 10 ^ excess * 10 ^ left) ≤ (2 ^ 60 + 1) * l.significand := by
    exact_mod_cast h
  have hle : (significand : ℚ) * 10 ^ excess * 10 ^ left ≤ l.significand * (1 + 1 / 2 ^ 60) := by linarith
  have hsplit : (excess : Int) - taken + powerExponent l.power =
      excess + left + (powerExponent l.power - l.fraction.length) := by omega
  have hten : (10 : ℚ) ≠ 0 := by norm_num
  rw [hsplit, zpow_add₀ hten, zpow_add₀ hten, zpow_natCast, zpow_natCast, magnitude]
  calc (significand : ℚ) * (10 ^ excess * 10 ^ left * 10 ^ (powerExponent l.power - l.fraction.length))
      = significand * 10 ^ excess * 10 ^ left * 10 ^ (powerExponent l.power - l.fraction.length) := by ring
    _ ≤ l.significand * (1 + 1 / 2 ^ 60) * 10 ^ (powerExponent l.power - l.fraction.length) :=
        mul_le_mul_of_nonneg_right hle (zpow_nonneg (by norm_num) _)
    _ = _ := by ring

theorem number_octets (bs : Bytes) : Lexeme.number (l.octets ++ bs) =
    Lexeme.magnitude l.negative (octetsOf l.whole ++ (pointed l.fraction ++ (powerOctets l.power ++ bs))) := by
  rw [octets]
  by_cases hnegative : l.negative = true
  · rw [if_pos hnegative, hnegative]
    simp only [List.append_assoc, List.cons_append, List.nil_append]
    rw [Lexeme.number, if_pos rfl]
  · rw [if_neg hnegative, Bool.eq_false_iff.2 hnegative]
    simp only [List.append_assoc, List.nil_append]
    obtain ⟨c, cs, hwhole⟩ := List.exists_cons_of_ne_nil l.nonempty
    have hc := l.wholeDigits c (hwhole ▸ List.mem_cons_self)
    have hrange := digit_range hc
    have hminus : UInt8.ofNat c.toNat ≠ minus :=
      ne_of_toNat (by rw [toNat_digit hc, show minus.toNat = 45 from rfl]; omega)
    rw [hwhole]
    exact if_neg hminus

/-- **A number is read alike whatever follows it**, and it is read if it is in range. -/
theorem number_reading : ∃ r, (∀ bs, Ends bs → Lexeme.number (l.octets ++ bs) = followedBy bs r) ∧
    (l.InRange → ∃ n, r = .ok n) := by
  obtain ⟨front, back, hwhole, hle, hrest, hread⟩ := magnitude_octets l
  have hlimit : maxExponent = 2147483647 := rfl
  cases hfraction : l.fraction with
  | nil =>
    refine ⟨wholeReading l.negative (Nat.ofDigitChars 10 front 0) back.length l.power, fun bs hbs => ?_,
      fun hrange => ?_⟩
    · rw [number_octets, hfraction]
      exact (hread _ (noDigit_power l.power hbs.noDigit)).trans (afterInteger_power _ _ _ l.power hbs)
    · have hclose := significand_le [] [] hrest fun c hc => nomatch hc
      rw [List.append_nil, ← hwhole, ← hfraction] at hclose
      have hscaled := l.scaled_le 0 0 (by simpa [significand, hfraction] using hclose) (by rw [hfraction]; rfl)
      rw [Nat.cast_zero, Int.sub_zero] at hscaled
      exact wholeReading_some (powerReading_some _ hle (by omega) (hscaled.trans hrange.bound))
  | cons c fs =>
    have hdigits := l.fractionDigits
    rw [hfraction] at hdigits
    obtain ⟨front', back', hsplit, hle', hfractionRead⟩ :=
      fraction_octets hdigits (List.cons_ne_nil c fs) hle
    refine ⟨powerReading l.negative (Nat.ofDigitChars 10 front' (Nat.ofDigitChars 10 front 0))
      (back.length - front'.length) l.power, fun bs hbs => ?_, fun hrange => ?_⟩
    · rw [number_octets, hfraction]
      refine (hread _ ?_).trans ?_
      · intro b hb
        cases hb
        decide
      · show afterInteger _ _ _ (point :: (octetsOf (c :: fs) ++ (powerOctets l.power ++ bs))) = _
        rw [afterInteger, if_pos rfl, hfractionRead l.negative back.length l.power bs hbs]
    · have hfew := hrange.fraction_le
      rw [hfraction, hsplit, List.length_append] at hfew
      have hclose := significand_le front' back' hrest fun c hc => hdigits c (hsplit ▸ List.mem_append_left back' hc)
      rw [← hwhole, ← hsplit, ← hfraction] at hclose
      have hscaled := l.scaled_le front'.length back'.length hclose
        (by rw [hfraction, hsplit, List.length_append])
      exact powerReading_some _ hle' (by omega) (hscaled.trans hrange.bound)

variable {l}

/-- What is read of a number alone is read of it wherever it stands. -/
theorem number_followed {n : Number} (h : Lexeme.number l.octets = .ok (n, [])) {back : Bytes} (hback : Ends back) :
    Lexeme.number (l.octets ++ back) = .ok (n, back) := by
  obtain ⟨r, hread, -⟩ := l.number_reading
  have halone := hread [] ends_nil
  rw [List.append_nil, h] at halone
  rw [hread back hback]
  cases r with
  | ok m =>
    cases halone
    rfl
  | error e => cases halone

/-- **A number in range is read.** -/
theorem number_some (h : l.InRange) : ∃ n, Lexeme.number l.octets = .ok (n, []) := by
  obtain ⟨r, hread, hsome⟩ := l.number_reading
  have halone := hread [] ends_nil
  obtain ⟨n, rfl⟩ := hsome h
  rw [List.append_nil] at halone
  exact ⟨n, halone⟩

end Literal

end Turnstile.Json

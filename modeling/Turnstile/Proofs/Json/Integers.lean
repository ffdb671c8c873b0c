import Turnstile.Proofs.Decimal.Bounds
import Turnstile.Proofs.Json.Numbers
import Turnstile.Proofs.Json.Strings
import Turnstile.Proofs.Text.LeadingInt

/-!
# Integers, as numbers and as strings

* `integerOctets`: an integer in decimal.
* `Number.clamp64`: the nearest integer in the range of 64 bits.
* `number_integer`: **the number that an integer is read as counts for the nearest 64-bit integer**,
  and one in the range of 64 bits is read.
* `leadingInt_integer`: **the string counts for the nearest 32-bit integer.**
-/

namespace Turnstile

/-- The nearest integer in the range of 64 bits. -/
def Number.clamp64 (n : Int) : Int :=
  max (-9223372036854775808) (min n 9223372036854775807)

/-- The octets of an integer in decimal. -/
def integerOctets (n : Int) : Bytes :=
  Utf8.encode (Number.ofInt n).text

/-- The octets of characters below 128. -/
def octetsOf (cs : List Char) : Bytes :=
  cs.map fun c => UInt8.ofNat c.toNat

section Digits

variable {c : Char} {cs : List Char} {v : Nat}

theorem digit_range (h : c.isDigit = true) : 48 ≤ c.toNat ∧ c.toNat ≤ 57 := by
  simp only [Char.isDigit, Bool.and_eq_true, decide_eq_true_eq] at h
  exact ⟨UInt32.le_iff_toNat_le.1 h.1, UInt32.le_iff_toNat_le.1 h.2⟩

theorem toNat_digit (h : c.isDigit = true) : (UInt8.ofNat c.toNat).toNat = c.toNat := by
  have hrange := digit_range h
  exact Utf8.toNat_octet (by omega)

theorem isDigit_octet (h : c.isDigit = true) : Json.Octet.isDigit (UInt8.ofNat c.toNat) = true ∧
    Json.Octet.digitValue (UInt8.ofNat c.toNat) = c.toNat - '0'.toNat := by
  rw [Json.Octet.isDigit_iff, Json.Octet.digitValue, toNat_digit h]
  exact ⟨digit_range h, rfl⟩

theorem encode_ofList (hcs : ∀ c ∈ cs, c.toNat < 0x80) :
    Utf8.encode (String.ofList cs) = octetsOf cs := by
  rw [Utf8.encode, String.toList_ofList]
  induction cs with
  | nil => rfl
  | cons c cs ih =>
    rw [List.flatMap_cons, Utf8.encodeChar_ascii (hcs c List.mem_cons_self),
      ih fun d hd => hcs d (List.mem_cons_of_mem c hd)]
    rfl

theorem decimal_digits (m : Nat) : ∀ c ∈ Double.decimal m, c.isDigit = true :=
  fun _ hc => Nat.isDigit_of_mem_toDigits (by decide) (by decide) hc

theorem decimal_value (m : Nat) : Nat.ofDigitChars 10 (Double.decimal m) 0 = m :=
  Nat.ofDigitChars_ten_toDigits

/-- No other integer starts with a zero. -/
theorem decimal_head {m : Nat} (hm : m ≠ 0) :
    ∃ c cs, Double.decimal m = c :: cs ∧ c ≠ '0' := by
  induction m using Nat.strong_induction_on with
  | _ m ih =>
    rw [Double.decimal, Nat.toDigits_eq_if (by decide)]
    split
    · rename_i hlt
      have hall : ∀ d < 10, d ≠ 0 → d.digitChar ≠ '0' := by decide
      exact ⟨m.digitChar, [], rfl, hall m hlt hm⟩
    · rename_i hge
      obtain ⟨c, cs, hdecimal, hc⟩ := ih (m / 10) (by omega) (by omega)
      exact ⟨c, cs ++ [(m % 10).digitChar], by rw [← Double.decimal, hdecimal]; rfl, hc⟩

theorem le_ofDigitChars (cs : List Char) (v : Nat) : v ≤ Nat.ofDigitChars 10 cs v := by
  induction cs generalizing v with
  | nil => exact Nat.le_refl v
  | cons c cs ih =>
    rw [Nat.ofDigitChars_cons]
    have hstep := ih (10 * v + (c.toNat - '0'.toNat))
    omega

end Digits

namespace Json.Lexeme

open Octet

/-! ## As a number -/

/-- Whether what follows digits is no digit. -/
def NoDigit (back : Bytes) : Prop :=
  ∀ b ∈ back.head?, ¬ isDigit b = true

/-- Whether what follows a number does not continue it. -/
def Ends (back : Bytes) : Prop :=
  ∀ b ∈ back.head?, ¬ isDigit b = true ∧ b ≠ point ∧ ¬ isExponent b = true

variable {cs : List Char} {back : Bytes} {limit v : Nat}

theorem ends_nil : Ends [] :=
  fun _ hb => nomatch hb

theorem ends_cons {b : UInt8} (h : ¬ isDigit b = true ∧ b ≠ point ∧ ¬ isExponent b = true) :
    Ends (b :: back) := by
  intro c hc
  cases hc
  exact h

theorem Ends.noDigit (h : Ends back) : NoDigit back :=
  fun b hb => (h b hb).1

theorem takeDigits_stop (hback : NoDigit back) (count : Nat) :
    takeDigits limit v count back = (v, count, back) := by
  cases back with
  | nil => rfl
  | cons b back =>
    rw [takeDigits, if_neg fun h => hback b rfl h.1]

/-- Digits whose value fits are taken. -/
theorem takeDigits_fits (hcs : ∀ c ∈ cs, c.isDigit = true) (hback : NoDigit back)
    (h : Nat.ofDigitChars 10 cs v ≤ limit) (count : Nat) :
    takeDigits limit v count (octetsOf cs ++ back) =
      (Nat.ofDigitChars 10 cs v, count + cs.length, back) := by
  induction cs generalizing v count with
  | nil => exact takeDigits_stop hback count
  | cons c cs ih =>
    obtain ⟨hdigit, hvalue⟩ := isDigit_octet (hcs c List.mem_cons_self)
    rw [Nat.ofDigitChars_cons] at h
    have hle := le_ofDigitChars cs (10 * v + (c.toNat - '0'.toNat))
    show takeDigits limit v count (UInt8.ofNat c.toNat :: (octetsOf cs ++ back)) = _
    rw [takeDigits, hvalue, Nat.mul_comm v 10, if_pos ⟨hdigit, Nat.le_trans hle h⟩,
      ih (fun d hd => hcs d (List.mem_cons_of_mem c hd)) h, Nat.ofDigitChars_cons, List.length_cons,
      Nat.add_right_comm, Nat.add_assoc]

/-- Of digits whose value does not fit, some are left, and what is taken is close to the limit. -/
theorem takeDigits_excess (hcs : ∀ c ∈ cs, c.isDigit = true) (hv : v ≤ limit)
    (h : limit < Nat.ofDigitChars 10 cs v) (count : Nat) (back : Bytes) :
    ∃ v' count' ds, takeDigits limit v count (octetsOf cs ++ back) = (v', count', octetsOf ds ++ back) ∧
      ds ≠ [] ∧ (∀ d ∈ ds, d.isDigit = true) ∧ v' ≤ limit ∧ limit < 10 * v' + 10 := by
  induction cs generalizing v count with
  | nil => exact absurd h (Nat.not_lt.2 hv)
  | cons c cs ih =>
    have hc := hcs c List.mem_cons_self
    obtain ⟨hdigit, hvalue⟩ := isDigit_octet hc
    rw [Nat.ofDigitChars_cons] at h
    show ∃ v' count' ds, takeDigits limit v count (UInt8.ofNat c.toNat :: (octetsOf cs ++ back)) = _ ∧ _
    rw [takeDigits, hvalue, Nat.mul_comm v 10]
    by_cases hfits : 10 * v + (c.toNat - '0'.toNat) ≤ limit
    · rw [if_pos ⟨hdigit, hfits⟩]
      exact ih (fun d hd => hcs d (List.mem_cons_of_mem c hd)) hfits h (count + 1)
    · rw [if_neg fun h => hfits h.2]
      have hrange := digit_range hc
      have hzero : '0'.toNat = 48 := rfl
      exact ⟨v, count, c :: cs, rfl, List.cons_ne_nil c cs, hcs, hv, by omega⟩

theorem countDigits_stop (hback : NoDigit back) : countDigits back = (0, back) := by
  cases back with
  | nil => rfl
  | cons b back =>
    have hb := hback b rfl
    rw [countDigits, List.takeWhile_cons_of_neg hb, List.dropWhile_cons_of_neg hb]
    rfl

theorem countDigits_octets (hcs : ∀ c ∈ cs, c.isDigit = true) (hback : NoDigit back) :
    countDigits (octetsOf cs ++ back) = (cs.length, back) := by
  have hall : ∀ b ∈ octetsOf cs, isDigit b = true := by
    intro b hb
    obtain ⟨c, hc, rfl⟩ := List.mem_map.1 hb
    exact (isDigit_octet (hcs c hc)).1
  have hstop := countDigits_stop hback
  rw [countDigits, Prod.mk.injEq, List.length_eq_zero_iff] at hstop
  rw [countDigits, List.takeWhile_append_of_pos hall, List.dropWhile_append_of_pos hall, hstop.1,
    hstop.2, List.append_nil, octetsOf, List.length_map]

theorem afterInteger_end (hback : Ends back) (negative : Bool) (m excess : Nat) :
    afterInteger negative m excess back =
      if excess = 0 then .ok (integer negative m, back) else real negative m excess back := by
  cases back with
  | nil => rfl
  | cons b back =>
    obtain ⟨-, hpoint, hexponent⟩ := hback b rfl
    rw [afterInteger, if_neg hpoint, if_neg hexponent]

/-- Digits without a zero in front. -/
theorem magnitude_digits {c : Char} (hcs : ∀ d ∈ c :: cs, d.isDigit = true) (hc : c ≠ '0')
    (negative : Bool) (bs : Bytes) :
    magnitude negative (octetsOf (c :: cs) ++ bs) =
      afterInteger negative (takeDigits maxSignificand (c.toNat - '0'.toNat) 0 (octetsOf cs ++ bs)).1
        (countDigits (takeDigits maxSignificand (c.toNat - '0'.toNat) 0 (octetsOf cs ++ bs)).2.2).1
        (countDigits (takeDigits maxSignificand (c.toNat - '0'.toNat) 0 (octetsOf cs ++ bs)).2.2).2 := by
  obtain ⟨hdigit, hvalue⟩ := isDigit_octet (hcs c List.mem_cons_self)
  have hzero : UInt8.ofNat c.toNat ≠ zero := by
    refine ne_of_toNat fun heq => hc (Char.toNat_inj.1 ?_)
    rwa [toNat_digit (hcs c List.mem_cons_self)] at heq
  show magnitude negative (UInt8.ofNat c.toNat :: (octetsOf cs ++ bs)) = _
  rw [magnitude, if_neg hzero, if_pos hdigit, hvalue]

/-- **An integer up to the greatest significand is read as it is.** -/
theorem magnitude_fits {m : Nat} (hm : m ≤ maxSignificand) (hback : Ends back) (negative : Bool) :
    magnitude negative (octetsOf (Double.decimal m) ++ back) = .ok (integer negative m, back) := by
  by_cases hzero : m = 0
  · subst hzero
    have hnone : ¬ back.head?.any isDigit = true := by
      intro hany
      obtain ⟨b, hb, hdigit⟩ := (Option.any_eq_true _ _).1 hany
      exact (hback b hb).1 hdigit
    show magnitude negative (zero :: back) = _
    rw [magnitude, if_pos rfl, if_neg hnone, afterInteger_end hback, if_pos rfl]
  · obtain ⟨c, cs, hdecimal, hc⟩ := decimal_head hzero
    have hdigits := decimal_digits m
    have hvalue := decimal_value m
    rw [hdecimal] at hdigits hvalue ⊢
    rw [Nat.ofDigitChars_cons, Nat.mul_zero, Nat.zero_add] at hvalue
    rw [magnitude_digits hdigits hc,
      takeDigits_fits (fun d hd => hdigits d (List.mem_cons_of_mem c hd)) hback.noDigit (by omega), hvalue]
    dsimp only
    rw [countDigits_stop hback.noDigit]
    dsimp only
    rw [afterInteger_end hback, if_pos rfl]

/-- **A greater one is read as a significand of 60 bits or more**, with the digits that are left for
the exponent. -/
theorem magnitude_excess {m : Nat} (hm : maxSignificand < m) (hback : Ends back) (negative : Bool) :
    ∃ significand e, 2 ^ 60 ≤ significand ∧ significand < 2 ^ 64 ∧ 0 < e ∧
      magnitude negative (octetsOf (Double.decimal m) ++ back) = real negative significand (e : Nat) back := by
  obtain ⟨c, cs, hdecimal, hc⟩ := decimal_head (show m ≠ 0 by omega)
  have hdigits := decimal_digits m
  have hvalue := decimal_value m
  rw [hdecimal] at hdigits hvalue ⊢
  rw [Nat.ofDigitChars_cons, Nat.mul_zero, Nat.zero_add] at hvalue
  have hrange := digit_range (hdigits c List.mem_cons_self)
  have hlimit : maxSignificand = 18446744073709551615 := rfl
  have hzero : '0'.toNat = 48 := rfl
  obtain ⟨v, count, ds, htake, hds, hleft, hv, hclose⟩ :=
    takeDigits_excess (fun d hd => hdigits d (List.mem_cons_of_mem c hd))
      (show c.toNat - '0'.toNat ≤ maxSignificand by omega) (by omega) 0 back
  refine ⟨v, ds.length, by omega, by omega, List.length_pos_iff.2 hds, ?_⟩
  rw [magnitude_digits hdigits hc, htake]
  dsimp only
  rw [countDigits_octets hleft hback.noDigit]
  dsimp only
  rw [afterInteger_end hback, if_neg (List.length_pos_iff.2 hds).ne']

theorem integerOctets_ofNat (m : Nat) : integerOctets (Int.ofNat m) = octetsOf (Double.decimal m) := by
  refine encode_ofList fun c hc => ?_
  have hrange := digit_range (decimal_digits m c hc)
  omega

theorem integerOctets_negSucc (m : Nat) :
    integerOctets (Int.negSucc m) = minus :: octetsOf (Double.decimal (m + 1)) := by
  refine encode_ofList fun c hc => ?_
  rcases List.mem_cons.1 hc with rfl | hc
  · decide
  · have hrange := digit_range (decimal_digits (m + 1) c hc)
    omega

/-- An integer starts with a minus or a digit. -/
theorem integerOctets_head (n : Int) :
    ∃ b bs, integerOctets n = b :: bs ∧ (decide (b = minus) || isDigit b) = true := by
  cases n with
  | ofNat m =>
    rw [integerOctets_ofNat]
    cases hdecimal : Double.decimal m with
    | nil => exact absurd hdecimal Nat.toDigits_ne_nil
    | cons c cs =>
      have hdigit := isDigit_octet (decimal_digits m c (hdecimal ▸ List.mem_cons_self))
      exact ⟨UInt8.ofNat c.toNat, octetsOf cs, rfl, by rw [hdigit.1, Bool.or_true]⟩
  | negSucc m =>
    rw [integerOctets_negSucc]
    exact ⟨minus, _, rfl, rfl⟩

theorem number_ofNat (m : Nat) (back : Bytes) :
    number (integerOctets (Int.ofNat m) ++ back) = magnitude false (octetsOf (Double.decimal m) ++ back) := by
  rw [integerOctets_ofNat]
  cases hdecimal : Double.decimal m with
  | nil => exact absurd hdecimal Nat.toDigits_ne_nil
  | cons c cs =>
    have hdigit := decimal_digits m c (hdecimal ▸ List.mem_cons_self)
    have hrange := digit_range hdigit
    have hne : UInt8.ofNat c.toNat ≠ minus := by
      refine ne_of_toNat ?_
      rw [toNat_digit hdigit, show minus.toNat = 45 from rfl]
      omega
    exact if_neg hne

theorem number_negSucc (m : Nat) (back : Bytes) :
    number (integerOctets (Int.negSucc m) ++ back) =
      magnitude true (octetsOf (Double.decimal (m + 1)) ++ back) := by
  rw [integerOctets_negSucc, List.cons_append, number, if_pos rfl]

theorem real_ok {negative : Bool} {significand : Nat} {e : Int} {rest : Bytes} {x : Number}
    (h : real negative significand e back = .ok (x, rest)) :
    rest = back ∧ ∃ y, Double.scale? negative significand e = some y ∧ x = .real y := by
  rw [real] at h
  cases hscale : Double.scale? negative significand e with
  | none => rw [hscale] at h; cases h
  | some y =>
    rw [hscale] at h
    cases h
    exact ⟨rfl, y, rfl, rfl⟩

/-- An integer that is kept counts for the nearest 64-bit integer. -/
theorem toInt64_integer {m : Nat} {negative : Bool} (hm : m ≤ maxSignificand)
    (hpos : negative = true → 0 < m) :
    (integer negative m).toInt64 = Number.clamp64 (if negative then -(m : Int) else m) := by
  have hlimit : maxSignificand = 18446744073709551615 := rfl
  cases negative with
  | false =>
    show min (m : Int) 9223372036854775807 = Number.clamp64 m
    rw [Number.clamp64]
    omega
  | true =>
    have hleast := hpos rfl
    rw [integer, if_neg (by decide), if_pos rfl, Number.clamp64]
    split
    · show (-(m : Nat) : Int) = _
      omega
    · -- past the range of 64 bits, though not past that of the significand
      have hbase : (Double.ofNat m).AtLeast 63 :=
        Double.ofNat_atLeast (i := 64) (by omega) (by decide) (by omega)
      have hreal : ({ Double.ofNat m with negative := true } : Double).AtLeast 63 := hbase
      rw [Number.toInt64_real hreal, if_pos rfl]
      omega

/-- Digits count for the nearest 64-bit integer, however many there are. -/
theorem magnitude_integer {m : Nat} {negative : Bool} {x : Number} {rest : Bytes}
    (hpos : negative = true → 0 < m) (hback : Ends back)
    (h : magnitude negative (octetsOf (Double.decimal m) ++ back) = .ok (x, rest)) :
    rest = back ∧ x.toInt64 = Number.clamp64 (if negative then -(m : Int) else m) := by
  rcases Nat.lt_or_ge maxSignificand m with hm | hm
  · have hlimit : maxSignificand = 18446744073709551615 := rfl
    obtain ⟨significand, e, hlow, hhigh, he, hreal⟩ := magnitude_excess hm hback negative
    rw [hreal] at h
    obtain ⟨rfl, y, hy, rfl⟩ := real_ok h
    obtain ⟨hleast, hsign⟩ := Double.scale_atLeast hlow hhigh he hy
    refine ⟨rfl, ?_⟩
    rw [Number.toInt64_real hleast, hsign, Number.clamp64]
    split <;> omega
  · rw [magnitude_fits hm hback] at h
    cases h
    exact ⟨rfl, toInt64_integer hm hpos⟩

/-- **The number that an integer is read as counts for the nearest 64-bit integer.** -/
theorem number_integer {n : Int} {x : Number} {rest : Bytes} (hback : Ends back)
    (h : number (integerOctets n ++ back) = .ok (x, rest)) : rest = back ∧ x.toInt64 = Number.clamp64 n := by
  cases n with
  | ofNat m =>
    rw [number_ofNat] at h
    have hplain : false = true → 0 < m := fun hsign => nomatch hsign
    exact magnitude_integer hplain hback h
  | negSucc m =>
    rw [number_negSucc] at h
    have hvalue : -((m + 1 : Nat) : Int) = Int.negSucc m := rfl
    have hread := magnitude_integer (fun _ => Nat.succ_pos m) hback h
    rwa [if_pos rfl, hvalue] at hread

/-- An integer in the range of 64 bits is read. -/
theorem number_integer_some {n : Int} (hback : Ends back) (hlow : -9223372036854775808 ≤ n)
    (hhigh : n ≤ 9223372036854775807) : ∃ x, number (integerOctets n ++ back) = .ok (x, back) := by
  have hlimit : maxSignificand = 18446744073709551615 := rfl
  cases n with
  | ofNat m =>
    rw [Int.ofNat_eq_natCast] at hhigh
    rw [number_ofNat]
    exact ⟨_, magnitude_fits (show m ≤ maxSignificand by omega) hback false⟩
  | negSucc m =>
    rw [number_negSucc]
    exact ⟨_, magnitude_fits (show m + 1 ≤ maxSignificand by omega) hback true⟩

/-! ## As a string -/

theorem plain_of_digit {c : Char} (h : c.isDigit = true) :
    UInt8.ofNat c.toNat ≠ quote ∧ UInt8.ofNat c.toNat ≠ backslash ∧ ¬ UInt8.ofNat c.toNat < 0x20 := by
  have hrange := digit_range h
  rw [← toNat_digit h] at hrange
  exact plain_of_toNat (by omega) (by omega) (by omega)

theorem plain_integer (n : Int) :
    ∀ b ∈ integerOctets n, b ≠ quote ∧ b ≠ backslash ∧ ¬ b < 0x20 := by
  have hdigits : ∀ m, ∀ b ∈ octetsOf (Double.decimal m), b ≠ quote ∧ b ≠ backslash ∧ ¬ b < 0x20 := by
    intro m b hb
    obtain ⟨c, hc, rfl⟩ := List.mem_map.1 hb
    exact plain_of_digit (decimal_digits m c hc)
  cases n with
  | ofNat m =>
    rw [integerOctets_ofNat]
    exact hdigits m
  | negSucc m =>
    rw [integerOctets_negSucc]
    exact List.forall_mem_cons.2 ⟨by decide, hdigits (m + 1)⟩

/-- An integer in quotes is read as its text. -/
theorem string_integer (n : Int) (back : Bytes) :
    string (integerOctets n ++ quote :: back) = .ok ((Number.ofInt n).text, back) :=
  string_plain (plain_integer n) back

end Json.Lexeme

namespace Text

/-- The numeral that an integer is written as. -/
def Numeral.ofInt : Int → Numeral
  | .ofNat m => ⟨.unsigned, Double.decimal m, decimal_digits m⟩
  | .negSucc m => ⟨.minus, Double.decimal (m + 1), decimal_digits (m + 1)⟩

theorem Numeral.chars_ofInt (n : Int) : (Numeral.ofInt n).chars = (Number.ofInt n).chars := by
  cases n <;> rfl

theorem Numeral.value_ofInt (n : Int) : (Numeral.ofInt n).value = n := by
  cases n with
  | ofNat m => exact congrArg Int.ofNat (decimal_value m)
  | negSucc m => exact congrArg (fun k : Nat => -(k : Int)) (decimal_value (m + 1))

/-- **The text of an integer counts for the nearest 32-bit integer.** -/
theorem leadingInt_integer (n : Int) : leadingInt (Number.ofInt n).text = clamp32 n := by
  rw [Number.text, ← Numeral.chars_ofInt, leadingInt_numeral, Numeral.value_ofInt]

end Text

end Turnstile

import Turnstile.Proofs.Text.Numeral
import Turnstile.Text.LeadingInt

/-!
# The integer that a text counts for

The digits at the start of a text are added up one by one. The sum is cut to 2^31 after each, so it
never grows past 64 bits, and the sign is applied to what is left of it.

* `leadingDigits_eq`: what is added up is the value of the digits, cut to 2^31 once.
* `leadingInt_eq`: a text counts for the nearest 32-bit integer to the numeral it starts with.
* `checkedInt`: the same steps on integers that must fit in 64 bits.
* `checkedInt_eq`: they always do.
* `leadingInt_longest_numeral`: **a text counts for its longest numeral, and no step to that leaves the
  range of 64 bits**, however many digits there are.
-/

namespace Turnstile.Text

/-! ## The nearest integer -/

/-- Digits count for their value up to 2^31, and for 2^31 from there on. What stands behind them does
not count. -/
theorem leadingDigits_eq (v : Nat) (cs : List Char) :
    leadingDigits (min v 2147483648) cs =
      min (Nat.ofDigitChars 10 (cs.takeWhile Char.isDigit) v) 2147483648 := by
  induction cs generalizing v with
  | nil => rfl
  | cons c cs ih =>
    by_cases hc : c.isDigit = true
    · have hzero : '0'.toNat = 48 := rfl
      -- a value that was cut stays past the limit when the next digit is put behind it
      have hstep : min (min v 2147483648 * 10 + (c.toNat - 48)) 2147483648 =
          min (10 * v + (c.toNat - '0'.toNat)) 2147483648 := by omega
      rw [leadingDigits, if_pos hc, hstep, ih, List.takeWhile_cons_of_pos hc, Nat.ofDigitChars_cons]
    · rw [leadingDigits, if_neg hc, List.takeWhile_cons_of_neg hc, Nat.ofDigitChars_nil]

theorem leadingDigits_zero (cs : List Char) :
    leadingDigits 0 cs = min (Nat.ofDigitChars 10 (cs.takeWhile Char.isDigit) 0) 2147483648 :=
  leadingDigits_eq 0 cs

/-- Cutting to 2^31 before the sign is applied makes no difference in the range of 32 bits. -/
theorem clamp32_min (m : Nat) :
    clamp32 (min m 2147483648 : Nat) = clamp32 m ∧ clamp32 (-(min m 2147483648 : Nat)) = clamp32 (-m) := by
  unfold clamp32 int32Min int32Max
  omega

/-- **A text counts for the nearest 32-bit integer to the numeral it starts with.** -/
theorem leadingInt_eq (s : String) :
    leadingInt s = clamp32 (Numeral.leading (trimStart isBlank s.toList)).value := by
  unfold leadingInt
  generalize trimStart isBlank s.toList = text
  split
  · rw [leadingDigits_zero]
    exact (clamp32_min _).2
  · rw [leadingDigits_zero]
    exact (clamp32_min _).1
  · next hminus hplus =>
    rw [leadingDigits_zero, Numeral.leading_of_no_sign (not_sign_of_ne hminus hplus)]
    exact (clamp32_min _).1

/-- The text of a numeral counts for what it denotes. -/
theorem leadingInt_numeral (n : Numeral) : leadingInt (String.ofList n.chars) = clamp32 n.value := by
  have hblank : ∀ c ∈ n.chars.head?, ¬ isBlank c = true := by
    intro c hc
    obtain ⟨after, hafter⟩ := List.head?_eq_some_iff.1 (Option.mem_def.1 hc)
    have hchars : n.chars = [] ++ c :: after := hafter
    rcases Numeral.isDigit_of_chars hchars with hdigit | ⟨-, rfl | rfl⟩
    · have hrange := Char.isDigit_iff_toNat.1 hdigit
      have hall : ∀ m < 58, 48 ≤ m → ¬ (blankRanges.any fun r => r.1 ≤ m && m ≤ r.2) = true := by decide
      exact hall c.toNat (Nat.lt_succ_of_le hrange.2) hrange.1
    · decide
    · decide
  have htrim : trimStart isBlank n.chars = n.chars := by
    cases hchars : n.chars with
    | nil => rfl
    | cons c after => exact List.dropWhile_cons_of_neg (hblank c (by rw [hchars]; rfl))
  have hleading : Numeral.leading n.chars = n := by
    have hstops : n.Stops [] := ⟨nofun, fun _ => nofun⟩
    have happend := Numeral.leading_append hstops
    rwa [List.append_nil] at happend
  rw [leadingInt_eq, String.toList_ofList, htrim, hleading]

/-! ## Sixty-four bits are enough -/

/-- An integer, if it fits in 64 bits with a sign. -/
def int64? (n : Int) : Option Int :=
  if -9223372036854775808 ≤ n ∧ n ≤ 9223372036854775807 then some n else none

/-- What one more digit makes of a value. -/
def checkedStep (value : Int) (c : Char) : Option Int := do
  let shifted ← int64? (value * 10)
  let digit ← int64? (c.toNat - '0'.toNat)
  let sum ← int64? (shifted + digit)
  return min sum 2147483648

/-- The value of the digits at the start, where every step must fit in 64 bits. -/
def checkedDigits (value : Int) : List Char → Option Int
  | [] => some value
  | c :: cs => if c.isDigit then (checkedStep value c).bind (checkedDigits · cs) else some value

/-- The digits at the start with a sign, where every step must fit in 64 bits. -/
def checkedSigned (sign : Int) (cs : List Char) : Option Int := do
  let value ← checkedDigits 0 cs
  let signed ← int64? (sign * value)
  return clamp32 signed

/-- The integer at the start of a text; none if a step to it does not fit in 64 bits. -/
def checkedInt (s : String) : Option Int :=
  match trimStart isBlank s.toList with
  | '-' :: cs => checkedSigned (-1) cs
  | '+' :: cs => checkedSigned 1 cs
  | cs => checkedSigned 1 cs

theorem int64?_of_range {n : Int} (hlow : -9223372036854775808 ≤ n) (hhigh : n ≤ 9223372036854775807) :
    int64? n = some n :=
  if_pos ⟨hlow, hhigh⟩

/-- From a value up to 2^31 a step does not leave the range: its sum is below eleven times 2^31. -/
theorem checkedStep_eq {v : Nat} {c : Char} (hv : v ≤ 2147483648) (hc : c.isDigit = true) :
    checkedStep v c = some ((min (v * 10 + (c.toNat - 48)) 2147483648 : Nat) : Int) := by
  have hzero : '0'.toNat = 48 := rfl
  have hnine : '9'.toNat = 57 := rfl
  obtain ⟨hlow, hhigh⟩ := Char.isDigit_iff_toNat.1 hc
  have hshifted : int64? ((v : Int) * 10) = some ((v : Int) * 10) :=
    int64?_of_range (by omega) (by omega)
  have hdigit : int64? ((c.toNat : Int) - '0'.toNat) = some ((c.toNat : Int) - '0'.toNat) :=
    int64?_of_range (by omega) (by omega)
  have hsum : int64? ((v : Int) * 10 + (c.toNat - '0'.toNat)) =
      some ((v : Int) * 10 + (c.toNat - '0'.toNat)) :=
    int64?_of_range (by omega) (by omega)
  simp only [checkedStep, hshifted, hdigit, hsum, Option.bind_eq_bind, Option.bind_some, Option.pure_def,
    Option.some.injEq]
  omega

/-- No step leaves the range, whatever digits follow: each starts from a value up to 2^31 again. -/
theorem checkedDigits_eq {v : Nat} (hv : v ≤ 2147483648) (cs : List Char) :
    checkedDigits v cs = some (leadingDigits v cs : Int) := by
  induction cs generalizing v with
  | nil => rfl
  | cons c cs ih =>
    by_cases hc : c.isDigit = true
    · rw [checkedDigits, if_pos hc, checkedStep_eq hv hc, Option.bind_some, ih (Nat.min_le_right _ _),
        leadingDigits, if_pos hc]
    · rw [checkedDigits, leadingDigits, if_neg hc, if_neg hc]

theorem checkedSigned_eq {sign : Int} (hsign : sign = 1 ∨ sign = -1) (cs : List Char) :
    checkedSigned sign cs = some (clamp32 (sign * leadingDigits 0 cs)) := by
  have hvalue : checkedDigits 0 cs = some (leadingDigits 0 cs : Int) := checkedDigits_eq (Nat.zero_le _) cs
  have hbound : leadingDigits 0 cs ≤ 2147483648 := by
    rw [leadingDigits_zero]
    exact Nat.min_le_right _ _
  have hsigned : int64? (sign * leadingDigits 0 cs) = some (sign * leadingDigits 0 cs) := by
    rcases hsign with rfl | rfl
    · exact int64?_of_range (by omega) (by omega)
    · exact int64?_of_range (by omega) (by omega)
  rw [checkedSigned, hvalue, Option.bind_eq_bind, Option.bind_some, hsigned]
  rfl

/-- **No step leaves the range of 64 bits.** -/
theorem checkedInt_eq (s : String) : checkedInt s = some (leadingInt s) := by
  have hplus : ∀ cs, checkedSigned 1 cs =
      some (clamp32 (Nat.ofDigitChars 10 (cs.takeWhile Char.isDigit) 0)) := by
    intro cs
    rw [checkedSigned_eq (.inl rfl), Int.one_mul, leadingDigits_zero, (clamp32_min _).1]
  have hminus : ∀ cs, checkedSigned (-1) cs =
      some (clamp32 (-(Nat.ofDigitChars 10 (cs.takeWhile Char.isDigit) 0))) := by
    intro cs
    rw [checkedSigned_eq (.inr rfl), Int.neg_one_mul, leadingDigits_zero, (clamp32_min _).2]
  rw [leadingInt_eq]
  unfold checkedInt
  generalize trimStart isBlank s.toList = text
  split
  · exact hminus _
  · exact hplus _
  · next hnoMinus hnoPlus =>
    rw [Numeral.leading_of_no_sign (not_sign_of_ne hnoMinus hnoPlus)]
    exact hplus _

/-! ## Main result -/

/-- **A text counts for its longest numeral.** Behind the blanks at its start every text has exactly one
longest beginning that is a numeral. The text counts for the nearest 32-bit integer to what that denotes,
and the steps to it, each of which must fit in 64 bits, give it whatever the text is. -/
theorem leadingInt_longest_numeral (s : String) :
    ∃ n : Numeral, (∀ other, LongestNumeral (trimStart isBlank s.toList) other ↔ other = n) ∧
      leadingInt s = clamp32 n.value ∧ checkedInt s = some (leadingInt s) :=
  ⟨_, fun _ => longestNumeral_iff, leadingInt_eq s, checkedInt_eq s⟩

/-- With a minus 2^31 is the least 32-bit integer, without one it is past the greatest. -/
example : leadingInt "\u00A0-2147483648.5" = -2147483648 ∧ leadingInt "+2147483648" = 2147483647 ∧
    leadingInt "-+1" = 0 := by
  decide +kernel

end Turnstile.Text

import Turnstile.Text.Blank

/-!
# The integer a text starts with

Texts stand for numbers in commands. A text counts for the integer at its start,
zero if there is none, and integers outside the 32-bit range count for the nearest
end of it.
-/

namespace Turnstile.Text

/-- The least 32-bit integer. -/
def int32Min : Int := -2147483648

/-- The greatest 32-bit integer. -/
def int32Max : Int := 2147483647

/-- The nearest integer in the 32-bit range. -/
def clamp32 (n : Int) : Int :=
  max int32Min (min n int32Max)

/-- The integer in the 32-bit range that differs by a multiple of 2^32. -/
def wrap32 (n : Int) : Int :=
  n.bmod 4294967296

/-- The value of the digits at the start, not let past 2^31. -/
def leadingDigits (value : Nat) : List Char → Nat
  | [] => value
  | c :: cs => if c.isDigit then leadingDigits (min (value * 10 + (c.toNat - 48)) 2147483648) cs else value

/-- The integer at the start of a text: blanks, a sign, digits. -/
def leadingInt (s : String) : Int :=
  match trimStart isBlank s.toList with
  | '-' :: cs => clamp32 (-(leadingDigits 0 cs))
  | '+' :: cs => clamp32 (leadingDigits 0 cs)
  | cs => clamp32 (leadingDigits 0 cs)

end Turnstile.Text

import Mathlib.Data.List.DropRight
import Turnstile.Json.Octet

/-!
# Kinds of octets

* `ascii_of_isSpace`, `ascii_of_isDigit`, `ascii_of_hexValue`: what has a meaning in a document is one
  of the first 128 octets.
* `foreign_of_high`, `plain_of_high`: so the others are part of no number, and stand for themselves in
  a string.
* `start_of_number`: what starts a number is no white space and starts no word.
* `Blank`: white space, which is passed over.
-/

namespace Turnstile.Json.Octet

variable {b c : UInt8}

theorem ne_of_toNat (h : b.toNat ≠ c.toNat) : b ≠ c :=
  fun heq => h (congrArg UInt8.toNat heq)

theorem isSpace_iff : isSpace b = true ↔ b = 0x20 ∨ b = 0x0A ∨ b = 0x0D ∨ b = 0x09 := by
  simp [isSpace, or_assoc]

theorem isDigit_iff : isDigit b = true ↔ 0x30 ≤ b.toNat ∧ b.toNat ≤ 0x39 := by
  simp [isDigit, UInt8.le_iff_toNat_le]

theorem isExponent_iff : isExponent b = true ↔ b = 0x65 ∨ b = 0x45 := by
  simp [isExponent]

/-! ## The first 128 -/

theorem ascii_of_isSpace (h : isSpace b = true) : b.toNat < 0x80 := by
  rcases isSpace_iff.1 h with rfl | rfl | rfl | rfl <;> decide

theorem ascii_of_isDigit (h : isDigit b = true) : b.toNat < 0x80 := by
  have hrange := isDigit_iff.1 h
  omega

theorem ascii_of_hexValue (h : (hexValue? b).isSome = true) : b.toNat < 0x80 := by
  refine Nat.lt_of_not_le fun hhigh => ?_
  simp only [hexValue?, UInt8.le_iff_toNat_le, UInt8.reduceToNat] at h
  rw [if_neg (by omega), if_neg (by omega), if_neg (by omega)] at h
  cases h

/-! ## The others -/

theorem ne_of_high (h : 0x80 ≤ b.toNat) (hc : c.toNat < 0x80) : b ≠ c :=
  ne_of_toNat (by omega)

/-- An octet that is part of no number. -/
structure Foreign (b : UInt8) : Prop where
  minus : b ≠ minus
  plus : b ≠ plus
  point : b ≠ point
  zero : b ≠ zero
  digit : ¬ isDigit b = true
  exponent : ¬ isExponent b = true

theorem foreign_of_high (h : 0x80 ≤ b.toNat) : Foreign b where
  minus := ne_of_high h (by decide)
  plus := ne_of_high h (by decide)
  point := ne_of_high h (by decide)
  zero := ne_of_high h (by decide)
  digit := fun hdigit => absurd (ascii_of_isDigit hdigit) (Nat.not_lt.2 h)
  exponent := by
    intro hexponent
    rcases isExponent_iff.1 hexponent with hb | hb
    · exact ne_of_high h (by decide) hb
    · exact ne_of_high h (by decide) hb

/-- Octets that are no quote, no backslash and no control stand for themselves in a string. -/
theorem plain_of_toNat (hcontrol : 0x20 ≤ b.toNat) (hquote : b.toNat ≠ 0x22)
    (hbackslash : b.toNat ≠ 0x5C) : b ≠ quote ∧ b ≠ backslash ∧ ¬ b < 0x20 :=
  ⟨ne_of_toNat hquote, ne_of_toNat hbackslash,
    fun hlt => absurd (UInt8.lt_iff_toNat_lt.1 hlt) (Nat.not_lt.2 hcontrol)⟩

theorem plain_of_high (h : 0x80 ≤ b.toNat) : b ≠ quote ∧ b ≠ backslash ∧ ¬ b < 0x20 :=
  plain_of_toNat (by omega) (by omega) (by omega)

/-- What starts a number is no white space, and starts none of `null`, `true` and `false`. -/
theorem start_of_number (h : (decide (b = minus) || isDigit b) = true) :
    b ≠ 0x6E ∧ b ≠ 0x74 ∧ b ≠ 0x66 ∧ ¬ isSpace b = true := by
  rcases (Bool.or_eq_true _ _).mp h with hminus | hdigit
  · rw [of_decide_eq_true hminus]
    decide
  · have hrange := isDigit_iff.1 hdigit
    refine ⟨?_, ?_, ?_, fun hspace => ?_⟩
    · rintro rfl
      exact absurd hrange (by decide)
    · rintro rfl
      exact absurd hrange (by decide)
    · rintro rfl
      exact absurd hrange (by decide)
    · rcases isSpace_iff.1 hspace with rfl | rfl | rfl | rfl <;> exact absurd hrange (by decide)

end Turnstile.Json.Octet

/-! ## White space -/

namespace Turnstile.Json

open Octet

/-- Whether octets are white space between the parts of a document. -/
def Blank (bs : Bytes) : Prop :=
  ∀ b ∈ bs, isSpace b = true

variable {blank : Bytes}

theorem blank_nil : Blank [] :=
  fun _ hb => nomatch hb

theorem skipSpace_blank (h : Blank blank) (bs : Bytes) : skipSpace (blank ++ bs) = skipSpace bs := by
  induction blank with
  | nil => rfl
  | cons b blank ih =>
    rw [List.cons_append, skipSpace, List.dropWhile_cons_of_pos (h b List.mem_cons_self)]
    exact ih fun x hx => h x (List.mem_cons_of_mem b hx)

/-- White space is passed over, and what is behind it is found. -/
theorem skipSpace_found (h : Blank blank) {b : UInt8} (hb : ¬ isSpace b = true) (bs : Bytes) :
    skipSpace (blank ++ b :: bs) = b :: bs := by
  rw [skipSpace_blank h, skipSpace, List.dropWhile_cons_of_neg hb]

theorem skipSpace_twice (bs : Bytes) : skipSpace (skipSpace bs) = skipSpace bs := by
  rw [skipSpace, skipSpace, List.dropWhile_idempotent]

end Turnstile.Json

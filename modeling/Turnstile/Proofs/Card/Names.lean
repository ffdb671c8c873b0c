import Mathlib.Data.String.Basic
import Turnstile.Card.Uid

/-!
# Names of cards

A card is named by its identifier in hexadecimal.

* `Uid.utf8ByteSize_hex`: a name takes eight octets.
* `Uid.hex_injective`: **different cards have different names.**
-/

namespace Turnstile

theorem Hex.digit_inj {m n : Nat} (hm : m < 16) (hn : n < 16) (h : Hex.digit m = Hex.digit n) : m = n := by
  have hall : ∀ m < 16, ∀ n < 16, Hex.digit m = Hex.digit n → m = n := by decide
  exact hall m hm n hn h

/-- An octet is told by its two digits. -/
theorem Hex.chars_inj {b c : UInt8} (h : Hex.chars b = Hex.chars c) : b = c := by
  have hb := b.toNat_lt
  have hc := c.toNat_lt
  simp only [Hex.chars, List.cons.injEq, and_true] at h
  have hhigh := Hex.digit_inj (by omega) (by omega) h.1
  have hlow := Hex.digit_inj (by omega) (by omega) h.2
  exact UInt8.toNat_inj.1 (by omega)

theorem Hex.utf8Size_digit {n : Nat} (h : n < 16) : (Hex.digit n).utf8Size = 1 := by
  have hall : ∀ n < 16, (Hex.digit n).utf8Size = 1 := by decide
  exact hall n h

theorem Hex.utf8Len_chars (b : UInt8) : String.utf8Len (Hex.chars b) = 2 := by
  have hb := b.toNat_lt
  simp only [Hex.chars, String.utf8Len_cons, String.utf8Len_nil]
  rw [Hex.utf8Size_digit (by omega), Hex.utf8Size_digit (by omega)]

namespace Uid

/-- A name takes eight octets. -/
theorem utf8ByteSize_hex (u : Uid) : u.hex.utf8ByteSize = 8 := by
  rw [hex, String.utf8ByteSize_ofList, bytes]
  simp only [List.flatMap_cons, List.flatMap_nil, String.utf8Len_append, Hex.utf8Len_chars,
    String.utf8Len_nil]

/-- **Different cards have different names.** -/
theorem hex_injective {u v : Uid} (h : u.hex = v.hex) : u = v := by
  obtain ⟨u0, u1, u2, u3⟩ := u
  obtain ⟨v0, v1, v2, v3⟩ := v
  have hdigits := String.ofList_inj.1 h
  simp only [bytes, List.flatMap_cons, List.flatMap_nil] at hdigits
  -- two digits for each octet, so the octets are compared one by one
  obtain ⟨h0, hdigits⟩ := List.append_inj hdigits rfl
  obtain ⟨h1, hdigits⟩ := List.append_inj hdigits rfl
  obtain ⟨h2, hdigits⟩ := List.append_inj hdigits rfl
  obtain ⟨h3, -⟩ := List.append_inj hdigits rfl
  rw [Hex.chars_inj h0, Hex.chars_inj h1, Hex.chars_inj h2, Hex.chars_inj h3]

end Uid

end Turnstile

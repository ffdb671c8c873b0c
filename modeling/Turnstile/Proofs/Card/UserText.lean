import Mathlib.Data.List.TakeWhile
import Turnstile.Card.Uid
import Turnstile.Card.UserText
import Turnstile.Proofs.Text.Trimming
import Turnstile.Proofs.Text.Utf8

/-!
# Texts on cards

* `UserText.FitsCard`: the texts that a card can hold as they are.
* `UserText.decode_filled`: a text that is filled up with spaces is read without its padding.
* `UserText.decode_encode`: **such a text is read as it was written.**
* `Uid.spelledBy_hex`: an identifier is named by eight upper-case hexadecimal digits.
-/

namespace Turnstile

namespace UserText

/-- Whether a card can hold a text as it is: it is short enough, has no zero and no padding at its
ends. -/
structure FitsCard (text : String) : Prop where
  short : (Utf8.encode text).length ≤ blockSize
  no_zero : '\x00' ∉ text.toList
  first : ∀ c ∈ text.toList.head?, ¬ isPadding c = true
  last : ∀ c ∈ text.toList.getLast?, ¬ isPadding c = true

variable {text : String} {cs : List Char}

theorem length_encode (text : String) : (encode text).length = blockSize := by
  unfold encode
  simp only [List.length_append, List.length_replicate, List.length_take]
  omega

/-- A text that is short enough is filled up with spaces. -/
theorem encode_of_short (h : (Utf8.encode text).length ≤ blockSize) :
    ∃ n, encode text = Utf8.encode (String.ofList (text.toList ++ List.replicate n ' ')) := by
  have hspaces : ∀ n, List.replicate n 0x20 = (List.replicate n ' ').flatMap String.utf8EncodeChar := by
    intro n
    induction n with
    | zero => rfl
    | succ n ih =>
      rw [List.replicate_succ, List.replicate_succ, List.flatMap_cons, ← ih]
      rfl
  refine ⟨blockSize - (Utf8.encode text).length, ?_⟩
  simp only [encode, List.take_of_length_le h, hspaces]
  rw [Utf8.encode, Utf8.encode, String.toList_ofList, List.flatMap_append]

/-- Only the zero character is encoded with a zero octet. -/
theorem zero_not_mem_encode (h : '\x00' ∉ cs) : (0 : UInt8) ∉ Utf8.encode (String.ofList cs) := by
  intro hzero
  rw [Utf8.encode, String.toList_ofList] at hzero
  obtain ⟨c, hc, hmem⟩ := List.mem_flatMap.1 hzero
  by_cases hascii : c.toNat < 0x80
  · rw [Utf8.encodeChar_ascii hascii, List.mem_singleton] at hmem
    have hvalue : c.toNat = 0 := by
      rw [← Utf8.toNat_octet (n := c.toNat) (by omega), ← hmem]
      rfl
    have hnull : c = '\x00' := Char.toNat_inj.1 hvalue
    exact h (hnull ▸ hc)
  · obtain ⟨b, bs, henc, hhigh⟩ := Utf8.encodeChar_high (c := c) (by omega)
    rw [henc] at hmem
    exact absurd (hhigh 0 hmem) (by decide)

/-- A block without a zero is read to its end. -/
theorem decode_of_no_zero {block : Bytes} (h : (0 : UInt8) ∉ block) :
    decode block = String.ofList (Text.trim isPadding (Utf8.decodeLossy block).toList) := by
  have hwhole : block.takeWhile (· ≠ 0) = block := by
    refine List.takeWhile_eq_self_iff.2 fun b hb => ?_
    rw [decide_eq_true_eq]
    rintro rfl
    exact h hb
  rw [decode, hwhole]

/-- A text that is filled up with spaces is read without the padding at its ends. -/
theorem decode_filled (h : '\x00' ∉ cs) (n : Nat) :
    decode (Utf8.encode (String.ofList (cs ++ List.replicate n ' '))) =
      String.ofList (Text.trim isPadding cs) := by
  have hzero : '\x00' ∉ cs ++ List.replicate n ' ' := by
    intro hmem
    rcases List.mem_append.1 hmem with hmem | hmem
    · exact h hmem
    · exact absurd (List.eq_of_mem_replicate hmem) (by decide)
  have hspaces : ∀ c ∈ List.replicate n ' ', isPadding c = true := by
    intro c hc
    rw [List.eq_of_mem_replicate hc]
    rfl
  rw [decode_of_no_zero (zero_not_mem_encode hzero), Utf8.decodeLossy_of_decode? (Utf8.decode?_encode _),
    String.toList_ofList, Text.trim_append hspaces]

/-- **A text is read as it was written**, if a card can hold it. -/
theorem decode_encode (h : FitsCard text) : decode (encode text) = text := by
  obtain ⟨n, hencode⟩ := encode_of_short h.short
  rw [hencode, decode_filled h.no_zero, Text.trim_eq_self h.first h.last, String.ofList_toList]

end UserText

namespace Uid

/-- The sixteen digits. -/
def upperDigits : List Char :=
  "0123456789ABCDEF".toList

/-- Whether a text is an identifier in eight upper-case hexadecimal digits, two for each octet. -/
def SpelledBy (u : Uid) (s : String) : Prop :=
  s.toList.length = 8 ∧
    s.toList.map some = u.bytes.flatMap fun b => [upperDigits[b.toNat / 16]?, upperDigits[b.toNat % 16]?]

/-- **An identifier is named by eight upper-case hexadecimal digits.** -/
theorem spelledBy_hex (u : Uid) : u.SpelledBy u.hex := by
  have hdigits : ∀ b : UInt8, (Hex.chars b).map some =
      [upperDigits[b.toNat / 16]?, upperDigits[b.toNat % 16]?] :=
    octet_forall (p := fun b => (Hex.chars b).map some =
      [upperDigits[b.toNat / 16]?, upperDigits[b.toNat % 16]?]) (by decide +kernel)
  have hhex : u.hex.toList = u.bytes.flatMap Hex.chars := String.toList_ofList
  constructor
  · rw [hhex]
    rfl
  · rw [hhex, List.map_flatMap]
    simp only [hdigits]

end Uid

end Turnstile

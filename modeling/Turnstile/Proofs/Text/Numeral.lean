import Mathlib.Data.List.TakeWhile
import Turnstile.Proofs.Text.Trimming

/-!
# The numeral that a text starts with

A numeral is a sign or none, and digits or none. Every text starts with one, if only with that of no
characters.

* `Numeral.value`: the integer that a numeral denotes.
* `Numeral.Stops`: it cannot be made longer by what follows it.
* `LongestNumeral`: the longest beginning of a text that is a numeral.
* `longestNumeral_iff`: **there is one such beginning**: a sign, and the digits up to the first
  character that is none.
-/

namespace Turnstile.Text

/-! ## Numerals -/

/-- What stands in front of the digits. -/
inductive Sign where
  | unsigned
  | plus
  | minus
deriving DecidableEq, Repr

/-- The characters of a sign. -/
def Sign.chars : Sign → List Char
  | .unsigned => []
  | .plus => ['+']
  | .minus => ['-']

/-- A sign or none, and decimal digits or none. -/
@[ext]
structure Numeral where
  sign : Sign
  digits : List Char
  isDigit : ∀ c ∈ digits, c.isDigit = true

namespace Numeral

/-- The text of a numeral. -/
def chars (n : Numeral) : List Char :=
  n.sign.chars ++ n.digits

/-- The integer that a numeral denotes; without digits, zero. -/
def value (n : Numeral) : Int :=
  match n.sign with
  | .minus => -(Nat.ofDigitChars 10 n.digits 0)
  | _ => Nat.ofDigitChars 10 n.digits 0

/-- Whether a numeral ends in front of a text: it cannot be made longer by the next character. -/
structure Stops (n : Numeral) (rest : List Char) : Prop where
  digit : ∀ c ∈ rest.head?, ¬ c.isDigit = true
  sign : n.chars = [] → ∀ c ∈ rest.head?, c ≠ '+' ∧ c ≠ '-'

/-- The sign at the start of a text and the digits behind it. -/
def leading : List Char → Numeral
  | '-' :: cs => ⟨.minus, cs.takeWhile Char.isDigit, fun _ => List.mem_takeWhile_imp⟩
  | '+' :: cs => ⟨.plus, cs.takeWhile Char.isDigit, fun _ => List.mem_takeWhile_imp⟩
  | cs => ⟨.unsigned, cs.takeWhile Char.isDigit, fun _ => List.mem_takeWhile_imp⟩

end Numeral

/-- Whether a numeral is the longest one that a text starts with. -/
structure LongestNumeral (text : List Char) (n : Numeral) : Prop where
  starts : n.chars <+: text
  longest : ∀ other : Numeral, other.chars <+: text → other.chars.length ≤ n.chars.length

variable {n : Numeral} {c : Char} {cs rest text : List Char}

/-! ## The longest numeral -/

theorem not_sign_of_isDigit (h : c.isDigit = true) : c ≠ '+' ∧ c ≠ '-' := by
  constructor
  · rintro rfl
    exact absurd h (by decide)
  · rintro rfl
    exact absurd h (by decide)

theorem takeWhile_digits (hcs : ∀ c ∈ cs, c.isDigit = true) (hrest : ∀ c ∈ rest.head?, ¬ c.isDigit = true) :
    (cs ++ rest).takeWhile Char.isDigit = cs := by
  rw [List.takeWhile_append_of_pos hcs]
  cases rest with
  | nil => exact List.append_nil cs
  | cons c rest => rw [List.takeWhile_cons_of_neg (hrest c rfl), List.append_nil]

/-- A text that is neither a minus and what follows nor a plus and what follows starts with no sign. -/
theorem not_sign_of_ne (hminus : ∀ tail, cs = '-' :: tail → False)
    (hplus : ∀ tail, cs = '+' :: tail → False) : ∀ c ∈ cs.head?, c ≠ '+' ∧ c ≠ '-' := by
  intro c hc
  obtain ⟨tail, rfl⟩ := List.head?_eq_some_iff.1 (Option.mem_def.1 hc)
  constructor
  · rintro rfl
    exact hplus tail rfl
  · rintro rfl
    exact hminus tail rfl

theorem Numeral.leading_of_no_sign (h : ∀ c ∈ cs.head?, c ≠ '+' ∧ c ≠ '-') :
    leading cs = ⟨.unsigned, cs.takeWhile Char.isDigit, fun _ => List.mem_takeWhile_imp⟩ := by
  unfold leading
  split
  · exact absurd rfl (h '-' rfl).2
  · exact absurd rfl (h '+' rfl).1
  · rfl

/-- A numeral is found in front of whatever it ends at. -/
theorem Numeral.leading_append (h : n.Stops rest) : leading (n.chars ++ rest) = n := by
  obtain ⟨sign, digits, hdigits⟩ := n
  have htake := takeWhile_digits hdigits h.digit
  cases sign with
  | minus => exact Numeral.ext rfl htake
  | plus => exact Numeral.ext rfl htake
  | unsigned =>
    have hplain : ∀ c ∈ (digits ++ rest).head?, c ≠ '+' ∧ c ≠ '-' := by
      cases digits with
      | nil => exact h.sign rfl
      | cons d digits =>
        rintro c ⟨⟩
        exact not_sign_of_isDigit (hdigits d List.mem_cons_self)
    have hleading : leading (digits ++ rest) = _ := leading_of_no_sign hplain
    exact hleading.trans (Numeral.ext rfl htake)

/-- Every text starts with a numeral that ends in front of the rest. -/
theorem Numeral.leading_stops (text : List Char) :
    ∃ rest, text = (leading text).chars ++ rest ∧ (leading text).Stops rest := by
  have hparts : ∀ cs : List Char, cs = cs.takeWhile Char.isDigit ++ cs.dropWhile Char.isDigit :=
    fun _ => List.takeWhile_append_dropWhile.symm
  have hstop : ∀ cs : List Char, ∀ c ∈ (cs.dropWhile Char.isDigit).head?, ¬ c.isDigit = true :=
    head?_trimStart Char.isDigit
  unfold leading
  split
  · next cs => exact ⟨_, congrArg ('-' :: ·) (hparts cs), hstop cs, nofun⟩
  · next cs => exact ⟨_, congrArg ('+' :: ·) (hparts cs), hstop cs, nofun⟩
  · next hminus hplus =>
    refine ⟨_, hparts text, hstop text, ?_⟩
    -- a numeral without a character has passed nothing over, so what follows is the whole text
    intro hnone c hc
    have hwhole : text.dropWhile Char.isDigit = text := by
      have hall := hparts text
      rw [show text.takeWhile Char.isDigit = [] from hnone, List.nil_append] at hall
      exact hall.symm
    rw [hwhole] at hc
    exact not_sign_of_ne hminus hplus c hc

/-- Only the first character of a numeral can be a sign. -/
theorem Numeral.isDigit_of_chars {before after : List Char} (h : n.chars = before ++ c :: after) :
    c.isDigit = true ∨ before = [] ∧ (c = '+' ∨ c = '-') := by
  obtain ⟨sign, digits, hdigits⟩ := n
  have hmem : ∀ {cs}, digits = cs ++ c :: after → c.isDigit = true := by
    rintro cs rfl
    exact hdigits c (List.mem_append_right _ List.mem_cons_self)
  cases sign with
  | unsigned => exact .inl (hmem h)
  | plus =>
    cases before with
    | nil => exact .inr ⟨rfl, .inl (List.cons.inj h).1.symm⟩
    | cons b before => exact .inl (hmem (List.cons.inj h).2)
  | minus =>
    cases before with
    | nil => exact .inr ⟨rfl, .inr (List.cons.inj h).1.symm⟩
    | cons b before => exact .inl (hmem (List.cons.inj h).2)

/-- A numeral that ends in front of what follows is the longest one. -/
theorem longestNumeral_of_stops (h : n.Stops rest) : LongestNumeral (n.chars ++ rest) n where
  starts := List.prefix_append _ _
  longest := by
    intro other hother
    by_contra hlonger
    rw [Nat.not_le] at hlonger
    -- a longer one would go on with the next character
    obtain ⟨more, hmore⟩ := List.prefix_of_prefix_length_le (List.prefix_append _ _) hother hlonger.le
    obtain ⟨after, hafter⟩ := hother
    rw [← hmore, List.append_assoc, List.append_cancel_left_eq] at hafter
    cases more with
    | nil =>
      rw [← hmore, List.append_nil] at hlonger
      exact lt_irrefl _ hlonger
    | cons c more =>
      have hnext : c ∈ rest.head? := by rw [← hafter]; rfl
      rcases Numeral.isDigit_of_chars hmore.symm with hdigit | ⟨hnone, hsign⟩
      · exact h.digit c hnext hdigit
      · obtain ⟨hplus, hminus⟩ := h.sign hnone c hnext
        exact hsign.elim hplus hminus

/-- The longest numeral with the next character behind it is no numeral. -/
theorem LongestNumeral.not_longer (h : LongestNumeral (n.chars ++ rest) n) (hc : c ∈ rest.head?)
    (other : Numeral) : other.chars ≠ n.chars ++ [c] := by
  intro hother
  obtain ⟨after, rfl⟩ := List.head?_eq_some_iff.1 (Option.mem_def.1 hc)
  have hstarts : other.chars <+: n.chars ++ c :: after := by
    rw [hother]
    exact ⟨after, List.append_assoc _ _ _⟩
  have hlength := h.longest other hstarts
  rw [hother, List.length_append, List.length_singleton] at hlength
  omega

/-- The longest numeral that a text starts with ends in front of the rest. -/
theorem LongestNumeral.stops (h : LongestNumeral (n.chars ++ rest) n) : n.Stops rest where
  digit := by
    intro c hc hdigit
    have hall : ∀ d ∈ n.digits ++ [c], d.isDigit = true := by
      intro d hd
      rcases List.mem_append.1 hd with hd | hd
      · exact n.isDigit d hd
      · rwa [List.mem_singleton.1 hd]
    exact h.not_longer hc ⟨n.sign, n.digits ++ [c], hall⟩ (List.append_assoc _ _ _).symm
  sign := by
    intro hnone c hc
    have hlonger := h.not_longer hc
    rw [hnone] at hlonger
    constructor
    · rintro rfl
      exact hlonger ⟨.plus, [], nofun⟩ rfl
    · rintro rfl
      exact hlonger ⟨.minus, [], nofun⟩ rfl

/-- **A text starts with one longest numeral**: its sign, and the digits up to the first character
that is none. -/
theorem longestNumeral_iff : LongestNumeral text n ↔ n = Numeral.leading text := by
  constructor
  · intro h
    obtain ⟨rest, rfl⟩ := h.starts
    exact (Numeral.leading_append h.stops).symm
  · rintro rfl
    obtain ⟨rest, htext, hstops⟩ := Numeral.leading_stops text
    have hlongest := longestNumeral_of_stops hstops
    rwa [← htext] at hlongest

end Turnstile.Text

import Mathlib.Data.String.Basic
import Turnstile.Text.Utf8

/-!
# As much of a text as there is room for

A text that is too long is cut between two characters.

* `LongestFit`: the longest beginning of a text that takes at most so many octets.
* `longestFit_iff`: **what is kept of a text is that beginning**, and there is only one.
* `fit_eq_self_iff`: a text is kept whole if and only if there is room for it.
-/

namespace Turnstile.Utf8

open String (utf8Len)

/-- Whether a text is the longest beginning of another, made of whole characters, that takes at most
`room` octets. -/
structure LongestFit (room : Nat) (text kept : String) : Prop where
  starts : kept.toList <+: text.toList
  fits : kept.utf8ByteSize ≤ room
  longest : ∀ other : String, other.toList <+: text.toList → other.utf8ByteSize ≤ room →
    other.toList <+: kept.toList

variable {room : Nat} {c : Char} {cs other : List Char} {text kept : String}

theorem fit_cons_of_le (h : width c ≤ room) (cs : List Char) :
    fit room (c :: cs) = c :: fit (room - width c) cs :=
  if_pos h

theorem fit_cons_of_lt (h : room < width c) (cs : List Char) : fit room (c :: cs) = [] :=
  if_neg (Nat.not_le.2 h)

theorem fit_starts (room : Nat) (cs : List Char) : fit room cs <+: cs := by
  induction cs generalizing room with
  | nil => exact List.nil_prefix
  | cons c cs ih =>
    by_cases hc : width c ≤ room
    · rw [fit_cons_of_le hc]
      exact List.cons_prefix_cons.2 ⟨rfl, ih _⟩
    · rw [fit_cons_of_lt (Nat.not_le.1 hc)]
      exact List.nil_prefix

theorem utf8Len_fit (room : Nat) (cs : List Char) : utf8Len (fit room cs) ≤ room := by
  induction cs generalizing room with
  | nil => exact Nat.zero_le _
  | cons c cs ih =>
    by_cases hc : width c ≤ room
    · have htail := ih (room - width c)
      rw [fit_cons_of_le hc, String.utf8Len_cons]
      unfold width at hc htail ⊢
      omega
    · rw [fit_cons_of_lt (Nat.not_le.1 hc)]
      exact Nat.zero_le _

/-- Every beginning that there is room for is part of what is kept. -/
theorem prefix_fit (hother : other <+: cs) (hroom : utf8Len other ≤ room) : other <+: fit room cs := by
  induction cs generalizing room other with
  | nil => exact hother
  | cons c cs ih =>
    cases other with
    | nil => exact List.nil_prefix
    | cons d other =>
      obtain ⟨rfl, hrest⟩ := List.cons_prefix_cons.1 hother
      rw [String.utf8Len_cons] at hroom
      have hd : width d ≤ room := by unfold width; omega
      rw [fit_cons_of_le hd]
      refine List.cons_prefix_cons.2 ⟨rfl, ih hrest ?_⟩
      unfold width
      omega

/-- **What is kept of a text is its longest beginning that there is room for.** -/
theorem longestFit_fit (room : Nat) (text : String) :
    LongestFit room text (String.ofList (fit room text.toList)) where
  starts := by
    rw [String.toList_ofList]
    exact fit_starts room text.toList
  fits := by
    rw [String.utf8ByteSize_ofList]
    exact utf8Len_fit room text.toList
  longest := by
    intro other hother hroom
    rw [← String.utf8Len_toList] at hroom
    rw [String.toList_ofList]
    exact prefix_fit hother hroom

/-- There is one longest beginning, and it is what is kept. -/
theorem longestFit_iff : LongestFit room text kept ↔ kept = String.ofList (fit room text.toList) := by
  constructor
  · intro h
    have hfit := longestFit_fit room text
    have hle := hfit.longest kept h.starts h.fits
    have hge := h.longest _ hfit.starts hfit.fits
    exact String.toList_inj.1 (hle.eq_of_length (Nat.le_antisymm hle.length_le hge.length_le))
  · rintro rfl
    exact longestFit_fit room text

/-- A text is kept whole if and only if there is room for it. -/
theorem fit_eq_self_iff : fit room cs = cs ↔ utf8Len cs ≤ room := by
  constructor
  · intro h
    rw [← h]
    exact utf8Len_fit room cs
  · intro h
    exact (fit_starts room cs).eq_of_length_le (prefix_fit List.prefix_rfl h).length_le

end Turnstile.Utf8

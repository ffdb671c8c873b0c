import Mathlib.Data.List.DropRight
import Turnstile.Text.Blank

/-!
# Trimmed texts

* `Trims`: a text without what is to be dropped at its ends.
* `trims_iff`: **that is what trimming leaves**, and there is only one.
* `trim_around`: a text comes back when what was put around it is dropped.
* `trim_append`: it does not matter how much there is to be dropped at the end.
* `trim_concat`: nothing is dropped in front of a character at the end that stays.
-/

namespace Turnstile.Text

/-- Whether a text is another one without the characters at its ends that satisfy `p`. -/
structure Trims (p : Char → Bool) (text kept : List Char) : Prop where
  around : ∃ before after, text = before ++ kept ++ after ∧ (∀ c ∈ before, p c = true) ∧
    ∀ c ∈ after, p c = true
  first : ∀ c ∈ kept.head?, ¬ p c = true
  last : ∀ c ∈ kept.getLast?, ¬ p c = true

variable {p : Char → Bool} {text kept cs after : List Char} {c : Char}

theorem trimEnd_append (hafter : ∀ c ∈ after, p c = true) (cs : List Char) :
    trimEnd p (cs ++ after) = trimEnd p cs := by
  have hreverse : ∀ c ∈ after.reverse, p c = true := fun c hc => hafter c (List.mem_reverse.1 hc)
  rw [trimEnd, List.reverse_append, List.dropWhile_append_of_pos hreverse, trimEnd]

theorem trimEnd_eq_self (h : ∀ c ∈ cs.getLast?, ¬ p c = true) : trimEnd p cs = cs :=
  List.rdropWhile_eq_self_iff.2 fun hne => h _ (List.getLast?_eq_some_getLast hne)

/-- What is left at the start does not start with what is to be dropped. -/
theorem head?_trimStart (p : Char → Bool) (cs : List Char) : ∀ c ∈ (trimStart p cs).head?, ¬ p c = true := by
  intro c hc
  have hfirst := List.head?_dropWhile_not p cs
  rw [← trimStart, Option.mem_def.1 hc] at hfirst
  simpa using hfirst

/-- What trimming leaves is what is between what it drops. -/
theorem trims_trim (p : Char → Bool) (text : List Char) : Trims p text (trim p text) where
  around := by
    refine ⟨text.takeWhile p, (trimStart p text).rtakeWhile p, ?_, fun c => List.mem_takeWhile_imp,
      fun c => List.mem_rtakeWhile_imp⟩
    have hend : trim p text ++ (trimStart p text).rtakeWhile p = trimStart p text :=
      List.rdropWhile_append_rtakeWhile
    rw [List.append_assoc, hend]
    exact List.takeWhile_append_dropWhile.symm
  first := by
    intro c hc
    -- the beginning of what is left is that of what is left at the start
    obtain ⟨rest, hrest⟩ : trim p text <+: trimStart p text := List.rdropWhile_prefix p _
    have hstart : (trimStart p text).head? = some c := by
      rw [← hrest, List.head?_append, Option.mem_def.1 hc]
      rfl
    exact head?_trimStart p text c hstart
  last := by
    intro c hc
    obtain ⟨hne, rfl⟩ := List.mem_getLast?_eq_getLast hc
    exact List.rdropWhile_last_not p _ hne

/-- **What trimming leaves** is the one text without the characters to be dropped at its ends. -/
theorem trims_iff : Trims p text kept ↔ kept = trim p text := by
  constructor
  · rintro ⟨⟨before, after, rfl, hbefore, hafter⟩, hfirst, hlast⟩
    rw [trim, trimStart, List.append_assoc, List.dropWhile_append_of_pos hbefore]
    cases kept with
    | nil =>
      rw [List.nil_append, List.dropWhile_eq_nil_iff.2 hafter]
      rfl
    | cons c kept =>
      have hstays : ¬ p c = true := hfirst c rfl
      rw [List.cons_append, List.dropWhile_cons_of_neg hstays, ← List.cons_append,
        trimEnd_append hafter, trimEnd_eq_self hlast]
  · rintro rfl
    exact trims_trim p text

/-- A text comes back when what was put around it is dropped. -/
theorem trim_around {before : List Char} (hbefore : ∀ c ∈ before, p c = true)
    (hafter : ∀ c ∈ after, p c = true) (hfirst : ∀ c ∈ cs.head?, ¬ p c = true)
    (hlast : ∀ c ∈ cs.getLast?, ¬ p c = true) : trim p (before ++ cs ++ after) = cs :=
  (trims_iff.1 ⟨⟨before, after, rfl, hbefore, hafter⟩, hfirst, hlast⟩).symm

/-- It does not matter how much there is to be dropped at the end. -/
theorem trim_append (hafter : ∀ c ∈ after, p c = true) (text : List Char) :
    trim p (text ++ after) = trim p text := by
  obtain ⟨⟨before, rest, htext, hbefore, hrest⟩, hfirst, hlast⟩ := trims_trim p text
  have hall : text ++ after = before ++ trim p text ++ (rest ++ after) := by
    rw [← List.append_assoc, ← htext]
  have hdropped : ∀ c ∈ rest ++ after, p c = true := fun c hc =>
    (List.mem_append.1 hc).elim (hrest c) (hafter c)
  exact (trims_iff.1 ⟨⟨before, rest ++ after, hall, hbefore, hdropped⟩, hfirst, hlast⟩).symm

/-- A text with nothing to be dropped at its ends is left as it is. -/
theorem trim_eq_self (hfirst : ∀ c ∈ cs.head?, ¬ p c = true) (hlast : ∀ c ∈ cs.getLast?, ¬ p c = true) :
    trim p cs = cs := by
  have hall : trim p ([] ++ cs ++ []) = cs := trim_around nofun nofun hfirst hlast
  rwa [List.nil_append, List.append_nil] at hall

theorem trim_subset (p : Char → Bool) (cs : List Char) : trim p cs ⊆ cs :=
  fun _ hc => List.dropWhile_subset p ((List.rdropWhile_prefix p _).subset hc)

/-- What trimming leaves starts with the first character that stays. -/
theorem head?_trim {before : List Char} (hbefore : ∀ c ∈ before, p c = true) (hc : ¬ p c = true)
    (rest : List Char) : (trim p (before ++ c :: rest)).head? = some c := by
  have hstart : trimStart p (before ++ c :: rest) = c :: rest := by
    rw [trimStart, List.dropWhile_append_of_pos hbefore, List.dropWhile_cons_of_neg hc]
  have hkept : trim p (before ++ c :: rest) ≠ [] := by
    rw [trim, hstart]
    exact fun hnone => hc (List.rdropWhile_eq_nil_iff.1 hnone c List.mem_cons_self)
  have hprefix : trim p (before ++ c :: rest) <+: c :: rest := by
    rw [trim, hstart]
    exact List.rdropWhile_prefix p _
  obtain ⟨d, kept, heq⟩ := List.exists_cons_of_ne_nil hkept
  rw [heq] at hprefix ⊢
  exact congrArg some (List.cons_prefix_cons.1 hprefix).1

/-- Nothing is dropped in front of a character at the end that stays. -/
theorem trim_concat (h : ¬ p c = true) (text : List Char) :
    trim p (text ++ [c]) = trimStart p text ++ [c] := by
  have hstart : trimStart p (text ++ [c]) = trimStart p text ++ [c] := by
    rw [trimStart, List.dropWhile_append, trimStart]
    split
    · next hall =>
      rw [List.isEmpty_iff.1 hall, List.dropWhile_cons_of_neg h]
      rfl
    · rfl
  rw [trim, hstart]
  exact List.rdropWhile_concat_neg p _ _ h

end Turnstile.Text

import Turnstile.Proofs.Json.Integers

/-!
# Parts with commas between them

* `enclosed`: parts with commas between them, up to a closing octet.
* `array_taken`, `object_taken`: **a loop takes the parts, one after another, if its steps do**, with
  the fuel that the octets give.
-/

namespace Turnstile.Json

open Octet Lexeme

section Blank

variable {blank back : Bytes}

theorem ends_blank (h : Blank blank) (hback : Ends back) : Ends (blank ++ back) := by
  cases blank with
  | nil => exact hback
  | cons b blank =>
    refine ends_cons ?_
    rcases isSpace_iff.1 (h b List.mem_cons_self) with rfl | rfl | rfl | rfl <;> decide

/-- Whether a text starts with an octet that is no white space and does not close an array. -/
def Starts (text : Bytes) : Prop :=
  ∃ b tail, text = b :: tail ∧ ¬ isSpace b = true ∧ b ≠ closeBracket

theorem Starts.skipSpace {text : Bytes} (h : Starts text) (back : Bytes) :
    Octet.skipSpace (text ++ back) = text ++ back ∧ ∃ b tail, text ++ back = b :: tail ∧ b ≠ closeBracket := by
  obtain ⟨b, tail, rfl, hspace, hb⟩ := h
  rw [List.cons_append]
  exact ⟨List.dropWhile_cons_of_neg hspace, b, _, rfl, hb⟩

end Blank

/-! ## Parts -/

/-- What follows a part: a comma and the next part, or the closing octet. -/
def follow (close : UInt8) : List Bytes → Bytes
  | [] => [close]
  | part :: parts => comma :: (part ++ follow close parts)

/-- Parts with a comma between them, up to the closing octet. -/
def enclosed (close : UInt8) : List Bytes → Bytes
  | [] => [close]
  | part :: parts => part ++ follow close parts

section Parts

variable {close : UInt8}

theorem enclosed_append (part : Bytes) (parts : List Bytes) (back : Bytes) :
    enclosed close (part :: parts) ++ back = part ++ (follow close parts ++ back) := by
  rw [enclosed, List.append_assoc]

theorem follow_append (part : Bytes) (parts : List Bytes) (back : Bytes) :
    follow close (part :: parts) ++ back = comma :: (enclosed close (part :: parts) ++ back) := by
  rw [follow, enclosed, List.cons_append]

theorem ends_follow (hclose : close = closeBracket ∨ close = closeBrace) (parts : List Bytes) (back : Bytes) :
    Ends (follow close parts ++ back) := by
  cases parts with
  | nil =>
    rcases hclose with rfl | rfl
    · exact ends_cons (by decide)
    · exact ends_cons (by decide)
  | cons part parts => exact ends_cons (by decide)

/-- As many octets as parts: a comma or the closing octet behind each of them. -/
theorem length_enclosed (close : UInt8) (parts : List Bytes) : parts.length ≤ (enclosed close parts).length := by
  have hfollow : ∀ parts : List Bytes, parts.length < (follow close parts).length := by
    intro parts
    induction parts with
    | nil => exact Nat.one_pos
    | cons part parts ih =>
      rw [follow, List.length_cons, List.length_cons, List.length_append]
      omega
  cases parts with
  | nil => exact Nat.zero_le _
  | cons part parts =>
    have hrest := hfollow parts
    rw [enclosed, List.length_append, List.length_cons]
    omega

end Parts

/-! ## Loops -/

section Loops

variable {σ : Type} {step : σ → Bytes → Except Fault (σ × Bytes)} {s s' : σ} {blank : Bytes} {parts : List Bytes}

/-- Whether the steps of a loop over items take parts one after another, each up to the white space
behind it. -/
inductive TakesParts (step : σ → Bytes → Except Fault (σ × Bytes)) : σ → List Bytes → σ → Prop where
  | nil (s : σ) : TakesParts step s [] s
  | cons {s s₁ s' : σ} {part after : Bytes} {parts : List Bytes} (hafter : Blank after)
      (h : ∀ back, Ends back → step s (part ++ back) = .ok (s₁, after ++ back))
      (hmore : TakesParts step s₁ parts s') : TakesParts step s (part :: parts) s'

/-- Whether the steps of a loop over members take parts one after another, each from behind the
quote that it starts with. -/
inductive TakesEntries (step : σ → Bytes → Except Fault (σ × Bytes)) : σ → List Bytes → σ → Prop where
  | nil (s : σ) : TakesEntries step s [] s
  | cons {s s₁ s' : σ} {part body after : Bytes} {parts : List Bytes}
      (hopen : ∀ back, skipSpace (part ++ back) = quote :: (body ++ back)) (hafter : Blank after)
      (h : ∀ back, Ends back → step s (body ++ back) = .ok (s₁, after ++ back))
      (hmore : TakesEntries step s₁ parts s') : TakesEntries step s (part :: parts) s'

/-- Items are taken up to the closing bracket, with as much fuel as there are items. -/
theorem items_taken (h : TakesParts step s parts s') (hsome : parts ≠ []) (back : Bytes) :
    ∀ n, parts.length ≤ n → Reader.items step n s (enclosed closeBracket parts ++ back) = .ok (s', back) := by
  induction h with
  | nil => exact absurd rfl hsome
  | @cons s s₁ s' part after parts hafter h hmore ih =>
    intro n hn
    obtain ⟨n, rfl⟩ : ∃ k, n = k + 1 := ⟨n - 1, by rw [List.length_cons] at hn; omega⟩
    have hpart := h _ (ends_follow (.inl rfl) parts back)
    rw [enclosed_append]
    refine items_succ_ok.2 ⟨s₁, _, hpart, ?_⟩
    cases parts with
    | nil =>
      cases hmore
      exact .inl ⟨skipSpace_found hafter (by decide) back, rfl⟩
    | cons next parts =>
      have hrest := ih (List.cons_ne_nil _ _) n (Nat.le_of_succ_le_succ hn)
      rw [follow_append]
      exact .inr ⟨_, skipSpace_found hafter (by decide) _, hrest⟩

/-- Members are taken up to the closing brace, with as much fuel as there are members. -/
theorem entries_taken (h : TakesEntries step s parts s') (hsome : parts ≠ []) (back : Bytes) :
    ∀ n, parts.length ≤ n → Reader.entries step n s (enclosed closeBrace parts ++ back) = .ok (s', back) := by
  induction h with
  | nil => exact absurd rfl hsome
  | @cons s s₁ s' part body after parts hopen hafter h hmore ih =>
    intro n hn
    obtain ⟨n, rfl⟩ : ∃ k, n = k + 1 := ⟨n - 1, by rw [List.length_cons] at hn; omega⟩
    have hpart := h _ (ends_follow (.inr rfl) parts back)
    rw [enclosed_append]
    refine entries_succ_ok.2 ⟨_, s₁, _, hopen _, hpart, ?_⟩
    cases parts with
    | nil =>
      cases hmore
      exact .inl ⟨skipSpace_found hafter (by decide) back, rfl⟩
    | cons next parts =>
      have hrest := ih (List.cons_ne_nil _ _) n (Nat.le_of_succ_le_succ hn)
      rw [follow_append]
      exact .inr ⟨_, skipSpace_found hafter (by decide) _, hrest⟩

/-- Only the first step sees where a loop starts. -/
theorem items_congr {bs bs' : Bytes} (h : step s bs = step s bs') (n : Nat) :
    Reader.items step n s bs = Reader.items step n s bs' := by
  cases n with
  | zero => rfl
  | succ n => rw [Reader.items, Reader.items, h]

theorem entries_skipSpace (step : σ → Bytes → Except Fault (σ × Bytes)) (n : Nat) (s : σ) (bs : Bytes) :
    Reader.entries step n s (skipSpace bs) = Reader.entries step n s bs := by
  cases n with
  | zero => rfl
  | succ n => rw [Reader.entries, Reader.entries, skipSpace_twice]

/-- The octets around parts are no fewer than the parts. -/
theorem length_around (blank : Bytes) (close : UInt8) (parts : List Bytes) (back : Bytes) :
    parts.length ≤ (blank ++ (enclosed close parts ++ back)).length := by
  have hlength := length_enclosed close parts
  rw [List.length_append, List.length_append]
  omega

/-- **Items in brackets are taken**, if none of them starts with a closing bracket and the white space
in front of them does not count. -/
theorem array_taken (hblank : Blank blank) (h : TakesParts step s parts s')
    (hspace : ∀ part ∈ parts, ∀ s back, step s (skipSpace (part ++ back)) = step s (part ++ back))
    (hopen : ∀ part ∈ parts, ∀ back, ∃ b tail, skipSpace (part ++ back) = b :: tail ∧ b ≠ closeBracket)
    (back : Bytes) :
    Reader.array step s (blank ++ (enclosed closeBracket parts ++ back)) = .ok (s', back) := by
  cases parts with
  | nil =>
    cases h
    exact array_ok.2 (.inl ⟨skipSpace_found hblank (by decide) back, rfl⟩)
  | cons part parts =>
    have hlength := length_around blank closeBracket (part :: parts) back
    have hitems := items_taken h (List.cons_ne_nil _ _) back _ hlength
    obtain ⟨b, tail, hskip, hb⟩ := hopen part List.mem_cons_self (follow closeBracket parts ++ back)
    refine array_ok.2 (.inr ⟨b, tail, ?_, hb, ?_⟩)
    · rw [skipSpace_blank hblank, enclosed_append, hskip]
    · rw [← hskip, items_congr (hspace part List.mem_cons_self s _), ← enclosed_append, hitems]

/-- **Members in braces are taken**, one after another. -/
theorem object_taken (hblank : Blank blank) (h : TakesEntries step s parts s') (back : Bytes) :
    Reader.object step s (blank ++ (enclosed closeBrace parts ++ back)) = .ok (s', back) := by
  cases h with
  | nil => exact object_ok.2 (.inl ⟨skipSpace_found hblank (by decide) back, rfl⟩)
  | @cons _ s₁ _ part body after parts hopen hafter h hmore =>
    have hlength := length_around blank closeBrace (part :: parts) back
    have hentries := entries_taken (.cons hopen hafter h hmore) (List.cons_ne_nil _ _) back _ hlength
    rw [enclosed_append] at hentries ⊢
    rw [← entries_skipSpace, hopen] at hentries
    exact object_ok.2 (.inr ⟨quote, _, (skipSpace_blank hblank _).trans (hopen _), by decide, hentries⟩)

end Loops

end Turnstile.Json

import Turnstile.Json.Reader
import Turnstile.Proofs.Json.Octets
import Turnstile.Proofs.Text.Utf8

/-!
# Two readings of one text

The grammar of documents is read more than once: values are kept or passed over, and octets are
read before and after they are mended. One reading follows another if it succeeds wherever the
other does and stops at the same place.

* `Faithful`: a change of octets that leaves those below 128 alone.
* `Follows`: a reader that follows another on octets that are changed.
* `items_follows`, `entries_follows`: **so do the loops over arrays and objects**, with all the fuel
  that the octets give.
-/

namespace Turnstile.Json

open Octet

/-- Whether a change of octets leaves those below 128 alone, and puts others in the place of
others. -/
structure Faithful (φ : Bytes → Bytes) : Prop where
  nil : φ [] = []
  ascii : ∀ b bs, b.toNat < 0x80 → φ (b :: bs) = b :: φ bs
  high : ∀ b bs, 0x80 ≤ b.toNat → ∃ b' rest, φ (b :: bs) = b' :: rest ∧ 0x80 ≤ b'.toNat

theorem faithful_id : Faithful id :=
  ⟨rfl, fun _ _ _ => rfl, fun b bs h => ⟨b, bs, rfl, h⟩⟩

theorem faithful_mend : Faithful Utf8.mend :=
  ⟨Utf8.mend_nil, fun _ bs h => Utf8.mend_ascii h bs, fun _ bs h => Utf8.mend_high h bs⟩

section Octets

variable {φ : Bytes → Bytes} (hφ : Faithful φ)

include hφ

/-- Octets of a kind that are all below 128 are passed over alike. -/
theorem Faithful.dropWhile {kind : UInt8 → Bool} (hkind : ∀ b, kind b = true → b.toNat < 0x80)
    (bs : Bytes) : (φ bs).dropWhile kind = φ (bs.dropWhile kind) := by
  induction bs with
  | nil => rw [hφ.nil, List.dropWhile_nil, hφ.nil]
  | cons b bs ih =>
    by_cases hb : kind b = true
    · rw [hφ.ascii b bs (hkind b hb), List.dropWhile_cons_of_pos hb, List.dropWhile_cons_of_pos hb, ih]
    · rw [List.dropWhile_cons_of_neg hb]
      by_cases hascii : b.toNat < 0x80
      · rw [hφ.ascii b bs hascii, List.dropWhile_cons_of_neg hb]
      · obtain ⟨b', rest, hb', hhigh⟩ := hφ.high b bs (Nat.not_lt.1 hascii)
        have hother : ¬ kind b' = true := fun h => absurd (hkind b' h) (Nat.not_lt.2 hhigh)
        rw [hb', List.dropWhile_cons_of_neg hother]

theorem Faithful.takeWhile {kind : UInt8 → Bool} (hkind : ∀ b, kind b = true → b.toNat < 0x80)
    (bs : Bytes) : (φ bs).takeWhile kind = bs.takeWhile kind := by
  induction bs with
  | nil => rw [hφ.nil]
  | cons b bs ih =>
    by_cases hb : kind b = true
    · rw [hφ.ascii b bs (hkind b hb), List.takeWhile_cons_of_pos hb, List.takeWhile_cons_of_pos hb, ih]
    · rw [List.takeWhile_cons_of_neg hb]
      by_cases hascii : b.toNat < 0x80
      · rw [hφ.ascii b bs hascii, List.takeWhile_cons_of_neg hb]
      · obtain ⟨b', rest, hb', hhigh⟩ := hφ.high b bs (Nat.not_lt.1 hascii)
        have hother : ¬ kind b' = true := fun h => absurd (hkind b' h) (Nat.not_lt.2 hhigh)
        rw [hb', List.takeWhile_cons_of_neg hother]

theorem Faithful.skipSpace (bs : Bytes) : skipSpace (φ bs) = φ (skipSpace bs) :=
  hφ.dropWhile (fun _ => ascii_of_isSpace) bs

theorem Faithful.skipSpace_ascii {b : UInt8} {bs rest : Bytes} (h : Octet.skipSpace bs = b :: rest)
    (hb : b.toNat < 0x80) : Octet.skipSpace (φ bs) = b :: φ rest := by
  rw [hφ.skipSpace, h, hφ.ascii b rest hb]

/-- An octet that is none of those below 128 in question is none of them after the change. -/
theorem Faithful.head (b : UInt8) (bs : Bytes) :
    ∃ b' rest, φ (b :: bs) = b' :: rest ∧ (b' = b ∧ rest = φ bs ∨ 0x80 ≤ b.toNat ∧ 0x80 ≤ b'.toNat) := by
  by_cases hascii : b.toNat < 0x80
  · exact ⟨b, φ bs, hφ.ascii b bs hascii, .inl ⟨rfl, rfl⟩⟩
  · obtain ⟨b', rest, hb', hhigh⟩ := hφ.high b bs (Nat.not_lt.1 hascii)
    exact ⟨b', rest, hb', .inr ⟨Nat.not_lt.1 hascii, hhigh⟩⟩

/-- What a text starts with is kept, or it is part of no number before and after the change. -/
theorem Faithful.foreign (b : UInt8) (bs : Bytes) :
    ∃ b' rest, φ (b :: bs) = b' :: rest ∧ (b' = b ∧ rest = φ bs ∨ Foreign b ∧ Foreign b') := by
  obtain ⟨b', rest, hb', hhead⟩ := hφ.head b bs
  exact ⟨b', rest, hb', hhead.imp_right (And.imp foreign_of_high foreign_of_high)⟩

theorem Faithful.isEmpty (bs : Bytes) : (φ bs).isEmpty = bs.isEmpty := by
  cases bs with
  | nil => rw [hφ.nil]
  | cons b bs =>
    obtain ⟨b', tail, hb', -⟩ := hφ.head b bs
    rw [hb']
    rfl

end Octets

theorem length_skipSpace (bs : Bytes) : (skipSpace bs).length ≤ bs.length :=
  (List.dropWhile_sublist isSpace).length_le

/-! ## Readers -/

variable {α β σ τ : Type} {φ : Bytes → Bytes}

/-- Whether a reader succeeds on changed octets wherever another succeeds on the octets, with a
result that is related to the other's, and stops at the same place. -/
def Follows (φ : Bytes → Bytes) (R : α → β → Prop) (r : Bytes → Except Fault (α × Bytes))
    (r' : Bytes → Except Fault (β × Bytes)) : Prop :=
  ∀ bs a rest, r bs = .ok (a, rest) →
    ∃ b, r' (φ bs) = .ok (b, φ rest) ∧ R a b ∧ (φ rest).length < (φ bs).length

/-- Whether one step of a loop follows another, on octets of a bounded length. -/
def StepFollows (φ : Bytes → Bytes) (bound : Nat) (R : σ → τ → Prop)
    (step : σ → Bytes → Except Fault (σ × Bytes)) (step' : τ → Bytes → Except Fault (τ × Bytes)) : Prop :=
  ∀ s t bs s' rest, (φ bs).length ≤ bound → R s t → step s bs = .ok (s', rest) →
    ∃ t', step' t (φ bs) = .ok (t', φ rest) ∧ R s' t' ∧ (φ rest).length < (φ bs).length

/-! ## Loops -/

section Inversion

variable {step : σ → Bytes → Except Fault (σ × Bytes)} {n : Nat} {s s' : σ} {bs rest : Bytes}

/-- What follows an item or an entry of which `s` came: the end, or a comma and the rest of the
loop. -/
def Goes (close : UInt8) (loop : σ → Bytes → Except Fault (σ × Bytes)) (s : σ) (bs : Bytes) (s' : σ)
    (rest : Bytes) : Prop :=
  skipSpace bs = close :: rest ∧ s' = s ∨
    ∃ tail, skipSpace bs = comma :: tail ∧ loop s tail = .ok (s', rest)

theorem goes_iff {close : UInt8} (hclose : close ≠ comma) (loop : σ → Bytes → Except Fault (σ × Bytes)) :
    (match skipSpace bs with
      | [] => .error .truncated
      | b :: rest =>
        if b = close then .ok (s, rest) else if b = comma then loop s rest else .error .malformed) =
      Except.ok (s', rest) ↔ Goes close loop s bs s' rest := by
  cases hskip : skipSpace bs with
  | nil => simp [Goes, hskip]
  | cons b tail =>
    by_cases hb : b = close
    · subst hb
      simp [Goes, hskip, hclose, eq_comm, and_comm]
    by_cases hcomma : b = comma
    · subst hcomma
      simp [Goes, hskip, hb]
    · simp [Goes, hskip, hb, hcomma]

theorem items_succ_ok : Reader.items step (n + 1) s bs = .ok (s', rest) ↔
    ∃ s₁ bs₁, step s bs = .ok (s₁, bs₁) ∧
      Goes closeBracket (Reader.items step n) s₁ bs₁ s' rest := by
  rw [Reader.items]
  cases step s bs with
  | error fault => simp
  | ok next =>
    obtain ⟨s₁, bs₁⟩ := next
    refine (goes_iff (show closeBracket ≠ comma by decide) (Reader.items step n)).trans ?_
    simp

theorem entries_succ_ok : Reader.entries step (n + 1) s bs = .ok (s', rest) ↔
    ∃ bs₀ s₁ bs₁, skipSpace bs = quote :: bs₀ ∧ step s bs₀ = .ok (s₁, bs₁) ∧
      Goes closeBrace (Reader.entries step n) s₁ bs₁ s' rest := by
  rw [Reader.entries]
  cases skipSpace bs with
  | nil => simp
  | cons b bs₀ =>
    by_cases hquote : b = quote
    · subst hquote
      dsimp only
      rw [if_pos rfl]
      cases hstep : step s bs₀ with
      | error fault => simp [hstep]
      | ok next =>
        obtain ⟨s₁, bs₁⟩ := next
        refine (goes_iff (show closeBrace ≠ comma by decide) (Reader.entries step n)).trans ?_
        simp [hstep]
    · simp [hquote]

theorem array_ok : Reader.array step s bs = .ok (s', rest) ↔
    skipSpace bs = closeBracket :: rest ∧ s' = s ∨
      ∃ b tail, skipSpace bs = b :: tail ∧ b ≠ closeBracket ∧
        Reader.items step bs.length s (b :: tail) = .ok (s', rest) := by
  rw [Reader.array]
  cases skipSpace bs with
  | nil => simp
  | cons b tail =>
    by_cases hb : b = closeBracket
    · simp [hb, eq_comm, and_comm]
    · simp [hb]

theorem object_ok : Reader.object step s bs = .ok (s', rest) ↔
    skipSpace bs = closeBrace :: rest ∧ s' = s ∨
      ∃ b tail, skipSpace bs = b :: tail ∧ b ≠ closeBrace ∧
        Reader.entries step bs.length s (b :: tail) = .ok (s', rest) := by
  rw [Reader.object]
  cases skipSpace bs with
  | nil => simp
  | cons b tail =>
    by_cases hb : b = closeBrace
    · simp [hb, eq_comm, and_comm]
    · simp [hb]

end Inversion

section Loops

variable {bound : Nat} {R : σ → τ → Prop} {step : σ → Bytes → Except Fault (σ × Bytes)}
  {step' : τ → Bytes → Except Fault (τ × Bytes)}

theorem length_of_skipSpace {bs rest : Bytes} {b : UInt8} (h : skipSpace bs = b :: rest) :
    rest.length < bs.length := by
  have hle := length_skipSpace bs
  rw [h, List.length_cons] at hle
  exact hle

theorem goes_follows (hφ : Faithful φ) {close : UInt8} (hclose : close.toNat < 0x80)
    {loop : σ → Bytes → Except Fault (σ × Bytes)} {loop' : τ → Bytes → Except Fault (τ × Bytes)}
    {s s' : σ} {t : τ} {bs rest : Bytes} (hR : R s t)
    (hloop : ∀ tail, (φ tail).length < (φ bs).length → loop s tail = .ok (s', rest) →
      ∃ t', loop' t (φ tail) = .ok (t', φ rest) ∧ R s' t' ∧ (φ rest).length < (φ tail).length)
    (h : Goes close loop s bs s' rest) :
    ∃ t', Goes close loop' t (φ bs) t' (φ rest) ∧ R s' t' ∧ (φ rest).length < (φ bs).length := by
  rcases h with ⟨hskip, rfl⟩ | ⟨tail, hskip, hrest⟩
  · have hskip' := hφ.skipSpace_ascii hskip hclose
    exact ⟨t, .inl ⟨hskip', rfl⟩, hR, length_of_skipSpace hskip'⟩
  · have hskip' := hφ.skipSpace_ascii hskip (by decide)
    have hlt := length_of_skipSpace hskip'
    obtain ⟨t', hrest', hR', hshorter⟩ := hloop tail hlt hrest
    exact ⟨t', .inr ⟨φ tail, hskip', hrest'⟩, hR', by omega⟩

/-- **The loop over items follows** if its items do. -/
theorem items_follows (hφ : Faithful φ) (h : StepFollows φ bound R step step') :
    ∀ n s t bs s' rest, (φ bs).length ≤ bound → R s t → Reader.items step n s bs = .ok (s', rest) →
      ∀ m, (φ bs).length ≤ m → ∃ t', Reader.items step' m t (φ bs) = .ok (t', φ rest) ∧ R s' t' ∧
        (φ rest).length < (φ bs).length := by
  intro n
  induction n with
  | zero => intro s t bs s' rest _ _ hitems; cases hitems
  | succ n ih =>
    intro s t bs s' rest hbound hR hitems m hm
    obtain ⟨s₁, bs₁, hstep, hgoes⟩ := items_succ_ok.1 hitems
    obtain ⟨t₁, hstep', hR₁, hlt⟩ := h s t bs s₁ bs₁ hbound hR hstep
    obtain ⟨m, rfl⟩ : ∃ k, m = k + 1 := ⟨m - 1, by omega⟩
    obtain ⟨t', hgoes', hR', hshorter⟩ := goes_follows hφ (by decide) hR₁
      (fun tail htail hloop => ih s₁ t₁ tail s' rest (by omega) hR₁ hloop m (by omega)) hgoes
    exact ⟨t', items_succ_ok.2 ⟨t₁, φ bs₁, hstep', hgoes'⟩, hR', by omega⟩

/-- **The loop over entries follows** if its entries do. -/
theorem entries_follows (hφ : Faithful φ) (h : StepFollows φ bound R step step') :
    ∀ n s t bs s' rest, (φ bs).length ≤ bound → R s t → Reader.entries step n s bs = .ok (s', rest) →
      ∀ m, (φ bs).length ≤ m → ∃ t', Reader.entries step' m t (φ bs) = .ok (t', φ rest) ∧ R s' t' ∧
        (φ rest).length < (φ bs).length := by
  intro n
  induction n with
  | zero => intro s t bs s' rest _ _ hentries; cases hentries
  | succ n ih =>
    intro s t bs s' rest hbound hR hentries m hm
    obtain ⟨bs₀, s₁, bs₁, hopen, hstep, hgoes⟩ := entries_succ_ok.1 hentries
    have hopen' := hφ.skipSpace_ascii hopen (by decide)
    have hbehind := length_of_skipSpace hopen'
    obtain ⟨t₁, hstep', hR₁, hlt⟩ := h s t bs₀ s₁ bs₁ (by omega) hR hstep
    obtain ⟨m, rfl⟩ : ∃ k, m = k + 1 := ⟨m - 1, by omega⟩
    obtain ⟨t', hgoes', hR', hshorter⟩ := goes_follows hφ (by decide) hR₁
      (fun tail htail hloop => ih s₁ t₁ tail s' rest (by omega) hR₁ hloop m (by omega)) hgoes
    exact ⟨t', entries_succ_ok.2 ⟨φ bs₀, t₁, φ bs₁, hopen', hstep', hgoes'⟩, hR', by omega⟩

/-- The octet that an item or entry starts with is not taken for the closing one. -/
theorem Faithful.skipSpace_open (hφ : Faithful φ) {b close : UInt8} {bs tail : Bytes}
    (hclose : close.toNat < 0x80) (h : Octet.skipSpace bs = b :: tail) (hb : b ≠ close) :
    ∃ b' tail', Octet.skipSpace (φ bs) = b' :: tail' ∧ b' ≠ close ∧ b' :: tail' = φ (b :: tail) := by
  obtain ⟨b', tail', hφb, hhead⟩ := hφ.head b tail
  refine ⟨b', tail', by rw [hφ.skipSpace, h, hφb], ?_, hφb.symm⟩
  rcases hhead with ⟨rfl, -⟩ | ⟨-, hhigh⟩
  · exact hb
  · rintro rfl
    omega

theorem array_follows (hφ : Faithful φ) (h : StepFollows φ bound R step step') {s s' : σ} {t : τ}
    {bs rest : Bytes} (hbound : (φ bs).length ≤ bound) (hR : R s t)
    (harray : Reader.array step s bs = .ok (s', rest)) :
    ∃ t', Reader.array step' t (φ bs) = .ok (t', φ rest) ∧ R s' t' ∧
      (φ rest).length < (φ bs).length := by
  rcases array_ok.1 harray with ⟨hskip, rfl⟩ | ⟨b, tail, hskip, hb, hitems⟩
  · have hskip' := hφ.skipSpace_ascii hskip (by decide)
    exact ⟨t, array_ok.2 (.inl ⟨hskip', rfl⟩), hR, length_of_skipSpace hskip'⟩
  · obtain ⟨b', tail', hskip', hb', hφb⟩ := hφ.skipSpace_open (by decide) hskip hb
    have hlen := length_skipSpace (φ bs)
    rw [hskip', hφb] at hlen
    obtain ⟨t', hitems', hR', hlt⟩ := items_follows hφ h bs.length s t (b :: tail) s' rest
      (by omega) hR hitems (φ bs).length hlen
    exact ⟨t', array_ok.2 (.inr ⟨b', tail', hskip', hb', hφb ▸ hitems'⟩), hR', by omega⟩

theorem object_follows (hφ : Faithful φ) (h : StepFollows φ bound R step step') {s s' : σ} {t : τ}
    {bs rest : Bytes} (hbound : (φ bs).length ≤ bound) (hR : R s t)
    (hobject : Reader.object step s bs = .ok (s', rest)) :
    ∃ t', Reader.object step' t (φ bs) = .ok (t', φ rest) ∧ R s' t' ∧
      (φ rest).length < (φ bs).length := by
  rcases object_ok.1 hobject with ⟨hskip, rfl⟩ | ⟨b, tail, hskip, hb, hentries⟩
  · have hskip' := hφ.skipSpace_ascii hskip (by decide)
    exact ⟨t, object_ok.2 (.inl ⟨hskip', rfl⟩), hR, length_of_skipSpace hskip'⟩
  · obtain ⟨b', tail', hskip', hb', hφb⟩ := hφ.skipSpace_open (by decide) hskip hb
    have hlen := length_skipSpace (φ bs)
    rw [hskip', hφb] at hlen
    obtain ⟨t', hentries', hR', hlt⟩ := entries_follows hφ h bs.length s t (b :: tail) s' rest
      (by omega) hR hentries (φ bs).length hlen
    exact ⟨t', object_ok.2 (.inr ⟨b', tail', hskip', hb', hφb ▸ hentries'⟩), hR', by omega⟩

end Loops

end Turnstile.Json

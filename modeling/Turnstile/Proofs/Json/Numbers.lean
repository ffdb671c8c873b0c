import Turnstile.Proofs.Json.Following

/-!
# Numbers, kept and passed over

* `number_faithful`, `skipNumber_faithful`: octets outside the first 128 may be changed before a
  number is read.
* `skipNumber_of_number`: a number that is kept can be passed over.
* `number_follows`, `skipNumber_follows`: so one reading of a number follows another.
-/

namespace Turnstile.Json.Lexeme

open Octet

variable {α : Type} {φ : Bytes → Bytes} {bs rest : Bytes}

/-- What is read, with what follows it changed. -/
def onRest (φ : Bytes → Bytes) (r : Except Fault (α × Bytes)) : Except Fault (α × Bytes) :=
  r.map fun (a, rest) => (a, φ rest)

theorem real_faithful (negative : Bool) (significand : Nat) (e : Int) (rest : Bytes) :
    real negative significand e (φ rest) = onRest φ (real negative significand e rest) := by
  rw [real, real]
  cases Double.scale? negative significand e <;> rfl

section Faithful

variable (hφ : Faithful φ)

include hφ

theorem takeDigits_faithful (limit value count : Nat) (bs : Bytes) :
    takeDigits limit value count (φ bs) =
      ((takeDigits limit value count bs).1, (takeDigits limit value count bs).2.1,
        φ (takeDigits limit value count bs).2.2) := by
  induction bs generalizing value count with
  | nil => rw [hφ.nil, takeDigits, hφ.nil]
  | cons b bs ih =>
    obtain ⟨b', tail, hb', hhead⟩ := hφ.foreign b bs
    rw [hb', takeDigits, takeDigits]
    rcases hhead with ⟨rfl, rfl⟩ | ⟨hout, hout'⟩
    · split
      · exact ih _ _
      · rw [hb']
    · rw [if_neg fun h => hout'.digit h.1, if_neg fun h => hout.digit h.1, hb']

theorem countDigits_faithful (bs : Bytes) :
    countDigits (φ bs) = ((countDigits bs).1, φ (countDigits bs).2) := by
  rw [countDigits, hφ.takeWhile (fun _ => ascii_of_isDigit), hφ.dropWhile (fun _ => ascii_of_isDigit)]
  rfl

theorem head_faithful (bs : Bytes) : (φ bs).head?.any isDigit = bs.head?.any isDigit := by
  cases bs with
  | nil => rw [hφ.nil]
  | cons b tail =>
    obtain ⟨b', tail', hb', hhead⟩ := hφ.foreign b tail
    rw [hb', List.head?_cons, List.head?_cons, Option.any_some, Option.any_some]
    rcases hhead with ⟨rfl, rfl⟩ | ⟨hout, hout'⟩
    · rfl
    · rw [Bool.eq_false_iff.2 hout.digit, Bool.eq_false_iff.2 hout'.digit]

theorem exponentSign_faithful (bs : Bytes) :
    exponentSign (φ bs) = ((exponentSign bs).1, φ (exponentSign bs).2) := by
  cases bs with
  | nil => rw [hφ.nil, exponentSign, hφ.nil]
  | cons b bs =>
    obtain ⟨b', tail, hb', hhead⟩ := hφ.foreign b bs
    rw [hb', exponentSign, exponentSign]
    rcases hhead with ⟨rfl, rfl⟩ | ⟨hout, hout'⟩
    · split
      · rfl
      split
      · rfl
      · rw [hb']
    · rw [if_neg hout.minus, if_neg hout.plus, if_neg hout'.minus, if_neg hout'.plus, hb']

theorem exponent_faithful (negative : Bool) (significand : Nat) (start : Int) (bs : Bytes) :
    exponent negative significand start (φ bs) = onRest φ (exponent negative significand start bs) := by
  rw [exponent, exponent, exponentSign_faithful hφ]
  dsimp only
  cases (exponentSign bs).2 with
  | nil =>
    rw [hφ.nil]
    rfl
  | cons b tail =>
    obtain ⟨b', tail', hb', hhead⟩ := hφ.foreign b tail
    rw [hb']
    dsimp only
    rcases hhead with ⟨rfl, rfl⟩ | ⟨hout, hout'⟩
    · by_cases hdigit : isDigit b' = true
      · rw [if_pos hdigit, if_pos hdigit, takeDigits_faithful hφ]
        dsimp only
        rw [countDigits_faithful hφ]
        dsimp only
        split
        · exact real_faithful ..
        split
        · rfl
        · rfl
      · rw [if_neg hdigit, if_neg hdigit]
        rfl
    · rw [if_neg hout.digit, if_neg hout'.digit]
      rfl

theorem fraction_faithful (negative : Bool) (significand : Nat) (start : Int) (bs : Bytes) :
    fraction negative significand start (φ bs) = onRest φ (fraction negative significand start bs) := by
  rw [fraction, fraction, takeDigits_faithful hφ]
  dsimp only
  rw [countDigits_faithful hφ]
  dsimp only
  split
  · rw [hφ.isEmpty]
    rfl
  cases (countDigits (takeDigits maxSignificand significand 0 bs).2.2).2 with
  | nil =>
    rw [hφ.nil]
    dsimp only
    have hend := real_faithful (φ := φ) negative (takeDigits maxSignificand significand 0 bs).1
      (start - (takeDigits maxSignificand significand 0 bs).2.1) []
    rwa [hφ.nil] at hend
  | cons b tail =>
    obtain ⟨b', tail', hb', hhead⟩ := hφ.foreign b tail
    rw [hb']
    dsimp only
    rcases hhead with ⟨rfl, rfl⟩ | ⟨hout, hout'⟩
    · split
      · exact exponent_faithful hφ ..
      · rw [← hb', real_faithful]
    · rw [if_neg hout.exponent, if_neg hout'.exponent, ← hb', real_faithful]

theorem afterInteger_faithful (negative : Bool) (n excess : Nat) (bs : Bytes) :
    afterInteger negative n excess (φ bs) = onRest φ (afterInteger negative n excess bs) := by
  have hstop : ∀ bs, (if excess = 0 then .ok (integer negative n, φ bs) else real negative n excess (φ bs)) =
      onRest φ (if excess = 0 then .ok (integer negative n, bs) else real negative n excess bs) := by
    intro bs
    split
    · rfl
    · exact real_faithful ..
  cases bs with
  | nil =>
    have hend := hstop []
    rw [hφ.nil] at hend ⊢
    exact hend
  | cons b tail =>
    have hend := hstop (b :: tail)
    obtain ⟨b', tail', hb', hhead⟩ := hφ.foreign b tail
    rw [hb'] at hend ⊢
    rw [afterInteger, afterInteger]
    rcases hhead with ⟨rfl, rfl⟩ | ⟨hout, hout'⟩
    · split
      · exact fraction_faithful hφ ..
      split
      · exact exponent_faithful hφ ..
      · exact hend
    · rw [if_neg hout.point, if_neg hout.exponent, if_neg hout'.point, if_neg hout'.exponent]
      exact hend

theorem magnitude_faithful (negative : Bool) (bs : Bytes) :
    magnitude negative (φ bs) = onRest φ (magnitude negative bs) := by
  cases bs with
  | nil =>
    rw [hφ.nil]
    rfl
  | cons b tail =>
    obtain ⟨b', tail', hb', hhead⟩ := hφ.foreign b tail
    rw [hb', magnitude, magnitude]
    rcases hhead with ⟨rfl, rfl⟩ | ⟨hout, hout'⟩
    · rw [head_faithful hφ, takeDigits_faithful hφ]
      dsimp only
      rw [countDigits_faithful hφ]
      dsimp only
      split
      · split
        · rfl
        · exact afterInteger_faithful hφ ..
      split
      · exact afterInteger_faithful hφ ..
      · rfl
    · rw [if_neg hout.zero, if_neg hout.digit, if_neg hout'.zero, if_neg hout'.digit]
      rfl

/-- **A number is read alike** when octets outside the first 128 are changed. -/
theorem number_faithful (bs : Bytes) : number (φ bs) = onRest φ (number bs) := by
  cases bs with
  | nil =>
    rw [hφ.nil]
    rfl
  | cons b tail =>
    have hwhole := magnitude_faithful hφ false (b :: tail)
    obtain ⟨b', tail', hb', hhead⟩ := hφ.foreign b tail
    rw [hb'] at hwhole ⊢
    rw [number, number]
    rcases hhead with ⟨rfl, rfl⟩ | ⟨hout, hout'⟩
    · split
      · exact magnitude_faithful hφ ..
      · exact hwhole
    · rw [if_neg hout.minus, if_neg hout'.minus]
      exact hwhole

theorem skipDigits_faithful (bs : Bytes) : skipDigits (φ bs) = (skipDigits bs).map φ := by
  rw [skipDigits, skipDigits, countDigits_faithful hφ]
  dsimp only
  split <;> rfl

theorem skipExponent_faithful (bs : Bytes) : skipExponent (φ bs) = (skipExponent bs).map φ := by
  cases bs with
  | nil =>
    rw [hφ.nil, skipExponent]
    exact congrArg Except.ok hφ.nil.symm
  | cons b tail =>
    obtain ⟨b', tail', hb', hhead⟩ := hφ.foreign b tail
    rw [hb', skipExponent, skipExponent]
    rcases hhead with ⟨rfl, rfl⟩ | ⟨hout, hout'⟩
    · split
      · rw [exponentSign_faithful hφ, skipDigits_faithful hφ]
      · exact congrArg Except.ok hb'.symm
    · rw [if_neg hout.exponent, if_neg hout'.exponent]
      exact congrArg Except.ok hb'.symm

theorem skipFraction_faithful (bs : Bytes) : skipFraction (φ bs) = (skipFraction bs).map φ := by
  cases bs with
  | nil =>
    rw [hφ.nil, skipFraction]
    exact congrArg Except.ok hφ.nil.symm
  | cons b tail =>
    have hwhole := skipExponent_faithful hφ (b :: tail)
    obtain ⟨b', tail', hb', hhead⟩ := hφ.foreign b tail
    rw [hb'] at hwhole ⊢
    rw [skipFraction, skipFraction]
    rcases hhead with ⟨rfl, rfl⟩ | ⟨hout, hout'⟩
    · split
      · rw [skipDigits_faithful hφ]
        cases skipDigits tail with
        | error fault => rfl
        | ok after => exact skipExponent_faithful hφ after
      · exact hwhole
    · rw [if_neg hout.point, if_neg hout'.point]
      exact hwhole

theorem skipMagnitude_faithful (bs : Bytes) : skipMagnitude (φ bs) = onRest φ (skipMagnitude bs) := by
  have hmap : ∀ bs, (skipFraction (φ bs)).map (Prod.mk ()) =
      onRest φ ((skipFraction bs).map (Prod.mk ())) := by
    intro bs
    rw [skipFraction_faithful hφ]
    cases skipFraction bs <;> rfl
  cases bs with
  | nil =>
    rw [hφ.nil]
    rfl
  | cons b tail =>
    obtain ⟨b', tail', hb', hhead⟩ := hφ.foreign b tail
    rw [hb', skipMagnitude, skipMagnitude]
    rcases hhead with ⟨rfl, rfl⟩ | ⟨hout, hout'⟩
    · rw [head_faithful hφ, countDigits_faithful hφ]
      split
      · split
        · rfl
        · exact hmap _
      split
      · exact hmap _
      · rfl
    · rw [if_neg hout.zero, if_neg hout.digit, if_neg hout'.zero, if_neg hout'.digit]
      rfl

theorem skipNumber_faithful (bs : Bytes) : skipNumber (φ bs) = onRest φ (skipNumber bs) := by
  cases bs with
  | nil =>
    rw [hφ.nil]
    rfl
  | cons b tail =>
    have hwhole := skipMagnitude_faithful hφ (b :: tail)
    obtain ⟨b', tail', hb', hhead⟩ := hφ.foreign b tail
    rw [hb'] at hwhole ⊢
    rw [skipNumber, skipNumber]
    rcases hhead with ⟨rfl, rfl⟩ | ⟨hout, hout'⟩
    · split
      · exact skipMagnitude_faithful hφ ..
      · exact hwhole
    · rw [if_neg hout.minus, if_neg hout'.minus]
      exact hwhole

end Faithful

/-! ## Numbers that are kept can be passed over -/

/-- Taking digits and counting those that do not fit stops where counting them all does. -/
theorem dropWhile_takeDigits (limit value count : Nat) (bs : Bytes) :
    (takeDigits limit value count bs).2.2.dropWhile isDigit = bs.dropWhile isDigit := by
  induction bs generalizing value count with
  | nil => rfl
  | cons b bs ih =>
    rw [takeDigits]
    split
    · rename_i hfits
      rw [ih, List.dropWhile_cons_of_pos hfits.1]
    · rfl

/-- That there are digits is known from what is taken and what is counted. -/
theorem takeDigits_none (limit value : Nat) {bs : Bytes} (h : (countDigits bs).1 = 0) :
    (takeDigits limit value 0 bs).2.1 = 0 ∧ (countDigits (takeDigits limit value 0 bs).2.2).1 = 0 := by
  cases bs with
  | nil => exact ⟨rfl, rfl⟩
  | cons b bs =>
    have hdigit : ¬ isDigit b = true := by
      intro hdigit
      rw [countDigits, List.takeWhile_cons_of_pos hdigit] at h
      cases h
    rw [takeDigits, if_neg fun hfits => hdigit hfits.1]
    exact ⟨rfl, h⟩

theorem real_rest {negative : Bool} {significand : Nat} {e : Int} {tail : Bytes} {n : Number}
    (h : real negative significand e tail = .ok (n, rest)) : rest = tail := by
  rw [real] at h
  cases hscale : Double.scale? negative significand e with
  | none => rw [hscale] at h; cases h
  | some x => rw [hscale] at h; cases h; rfl

theorem skipExponent_of_exponent {negative : Bool} {significand : Nat} {start : Int} {n : Number}
    (h : exponent negative significand start bs = .ok (n, rest)) :
    skipDigits (exponentSign bs).2 = .ok rest := by
  rw [exponent] at h
  dsimp only at h
  cases hbs : (exponentSign bs).2 with
  | nil => rw [hbs] at h; cases h
  | cons b tail =>
    rw [hbs] at h
    dsimp only at h
    by_cases hdigit : isDigit b = true
    · rw [if_pos hdigit, countDigits, dropWhile_takeDigits] at h
      have hrest : rest = tail.dropWhile isDigit := by
        dsimp only at h
        split at h
        · exact real_rest h
        split at h
        · cases h
        · cases h
          rfl
      rw [skipDigits, countDigits, List.takeWhile_cons_of_pos hdigit,
        List.dropWhile_cons_of_pos hdigit, hrest]
      rfl
    · rw [if_neg hdigit] at h
      cases h

theorem skipFraction_of_fraction {negative : Bool} {significand : Nat} {start : Int} {n : Number}
    (h : fraction negative significand start bs = .ok (n, rest)) :
    ∃ after, skipDigits bs = .ok after ∧ skipExponent after = .ok rest := by
  rw [fraction] at h
  dsimp only at h
  split at h
  · cases h
  · rename_i hsome
    have hdigits : ¬ (countDigits bs).1 = 0 := fun hnone =>
      hsome (takeDigits_none maxSignificand significand hnone)
    refine ⟨bs.dropWhile isDigit, if_neg hdigits, ?_⟩
    have hcount : ∀ xs, (countDigits xs).2 = xs.dropWhile isDigit := fun _ => rfl
    rw [hcount, dropWhile_takeDigits] at h
    cases hafter : bs.dropWhile isDigit with
    | nil =>
      rw [hafter] at h
      rw [skipExponent, real_rest h]
    | cons b tail =>
      rw [hafter] at h
      dsimp only at h
      rw [skipExponent]
      by_cases hexponent : isExponent b = true
      · rw [if_pos hexponent] at h ⊢
        exact skipExponent_of_exponent h
      · rw [if_neg hexponent] at h ⊢
        rw [real_rest h]

theorem skipFraction_of_afterInteger {negative : Bool} {m excess : Nat} {n : Number}
    (h : afterInteger negative m excess bs = .ok (n, rest)) : skipFraction bs = .ok rest := by
  have hstop : ∀ bs, (if excess = 0 then .ok (integer negative m, bs) else real negative m excess bs) =
      .ok (n, rest) → rest = bs := by
    intro bs h
    split at h
    · cases h
      rfl
    · exact real_rest h
  cases bs with
  | nil =>
    rw [skipFraction, hstop [] h]
  | cons b tail =>
    rw [afterInteger] at h
    rw [skipFraction]
    by_cases hpoint : b = point
    · rw [if_pos hpoint] at h ⊢
      obtain ⟨after, hdigits, hexponent⟩ := skipFraction_of_fraction h
      rw [hdigits]
      exact hexponent
    rw [if_neg hpoint] at h ⊢
    rw [skipExponent]
    by_cases hexponent : isExponent b = true
    · rw [if_pos hexponent] at h ⊢
      exact skipExponent_of_exponent h
    · rw [if_neg hexponent] at h ⊢
      rw [hstop _ h]

theorem skipMagnitude_of_magnitude {negative : Bool} {n : Number}
    (h : magnitude negative bs = .ok (n, rest)) : skipMagnitude bs = .ok ((), rest) := by
  cases bs with
  | nil => cases h
  | cons b tail =>
    rw [magnitude] at h
    rw [skipMagnitude]
    by_cases hzero : b = zero
    · rw [if_pos hzero] at h ⊢
      split at h
      · cases h
      · rename_i hdigit
        rw [if_neg hdigit, skipFraction_of_afterInteger h]
        rfl
    rw [if_neg hzero] at h ⊢
    by_cases hdigit : isDigit b = true
    · rw [if_pos hdigit] at h
      dsimp only at h
      rw [countDigits, dropWhile_takeDigits] at h
      rw [if_pos hdigit, show (countDigits tail).2 = tail.dropWhile isDigit from rfl,
        skipFraction_of_afterInteger h]
      rfl
    · rw [if_neg hdigit] at h
      cases h

/-- **A number that is kept can be passed over.** -/
theorem skipNumber_of_number {n : Number} (h : number bs = .ok (n, rest)) :
    skipNumber bs = .ok ((), rest) := by
  cases bs with
  | nil => cases h
  | cons b tail =>
    rw [number] at h
    rw [skipNumber]
    by_cases hminus : b = minus
    · rw [if_pos hminus] at h ⊢
      exact skipMagnitude_of_magnitude h
    · rw [if_neg hminus] at h ⊢
      exact skipMagnitude_of_magnitude h

/-! ## A number takes an octet at least -/

theorem length_dropWhile (kind : UInt8 → Bool) (bs : Bytes) :
    (bs.dropWhile kind).length ≤ bs.length :=
  (List.dropWhile_sublist kind).length_le

theorem length_exponentSign (bs : Bytes) : (exponentSign bs).2.length ≤ bs.length := by
  cases bs with
  | nil => exact Nat.le_refl _
  | cons b tail =>
    rw [exponentSign]
    split
    · exact Nat.le_succ _
    split
    · exact Nat.le_succ _
    · exact Nat.le_refl _

theorem length_skipDigits (h : skipDigits bs = .ok rest) : rest.length ≤ bs.length := by
  rw [skipDigits] at h
  dsimp only at h
  split at h
  · cases h
  · cases h
    exact length_dropWhile isDigit bs

theorem length_skipExponent (h : skipExponent bs = .ok rest) : rest.length ≤ bs.length := by
  cases bs with
  | nil =>
    cases h
    exact Nat.le_refl _
  | cons b tail =>
    rw [skipExponent] at h
    split at h
    · have hdigits := length_skipDigits h
      have hsign := length_exponentSign tail
      rw [List.length_cons]
      omega
    · cases h
      exact Nat.le_refl _

theorem length_skipFraction (h : skipFraction bs = .ok rest) : rest.length ≤ bs.length := by
  cases bs with
  | nil =>
    cases h
    exact Nat.le_refl _
  | cons b tail =>
    rw [skipFraction] at h
    split at h
    · cases hdigits : skipDigits tail with
      | error fault => rw [hdigits] at h; cases h
      | ok after =>
        rw [hdigits] at h
        have hafter := length_skipDigits hdigits
        have hrest := length_skipExponent h
        rw [List.length_cons]
        omega
    · exact length_skipExponent h

theorem length_skipMagnitude (h : skipMagnitude bs = .ok ((), rest)) : rest.length < bs.length := by
  cases bs with
  | nil => cases h
  | cons b tail =>
    have hmap : ∀ {after : Bytes}, (skipFraction after).map (Prod.mk ()) = .ok ((), rest) →
        rest.length ≤ after.length := by
      intro after hafter
      cases hfraction : skipFraction after with
      | error fault => rw [hfraction] at hafter; cases hafter
      | ok behind =>
        rw [hfraction] at hafter
        cases hafter
        exact length_skipFraction hfraction
    rw [skipMagnitude] at h
    rw [List.length_cons]
    split at h
    · split at h
      · cases h
      · have hrest := hmap h
        omega
    split at h
    · rename_i hdigit
      have hrest : rest.length ≤ (tail.dropWhile isDigit).length := hmap h
      have hdigits := length_dropWhile isDigit tail
      omega
    · cases h

theorem length_skipNumber (h : skipNumber bs = .ok ((), rest)) : rest.length < bs.length := by
  cases bs with
  | nil => cases h
  | cons b tail =>
    rw [skipNumber] at h
    split at h
    · have hrest := length_skipMagnitude h
      rw [List.length_cons]
      omega
    · exact length_skipMagnitude h

/-! ## Following -/

/-- **Octets outside the first 128 may be changed before a number is read.** -/
theorem number_follows (hφ : Faithful φ) : Follows φ Eq number number := by
  intro bs n rest h
  have hagain : number (φ bs) = .ok (n, φ rest) := by
    rw [number_faithful hφ, h]
    rfl
  exact ⟨n, hagain, rfl, length_skipNumber (skipNumber_of_number hagain)⟩

theorem skipNumber_follows (hφ : Faithful φ) : Follows φ (fun _ _ => True) skipNumber skipNumber := by
  intro bs _ rest h
  have hagain : skipNumber (φ bs) = .ok ((), φ rest) := by
    rw [skipNumber_faithful hφ, h]
    rfl
  exact ⟨(), hagain, trivial, length_skipNumber hagain⟩

theorem skipNumber_follows_number : Follows id (fun _ _ => True) number skipNumber := by
  intro bs n rest h
  have hskip := skipNumber_of_number h
  exact ⟨(), hskip, trivial, length_skipNumber hskip⟩

end Turnstile.Json.Lexeme

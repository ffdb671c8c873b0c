import Turnstile.Proofs.Text.Fit
import Turnstile.Proofs.Text.Mending

/-!
# Texts that are cut between octets

When the octets of a text are cut off at a certain number of them, the cut may go through a
character. What is left of that character is read as a mark.

* `Splits`: the cut goes through a character.
* `pieces_part`: what is left of a character that is cut is one broken run.
* `take_encode`: what is left of a text is what there is room for between characters, unless a
  character is split.
* `decodeLossy_take`: **if one is split, a mark is read behind that.**
-/

namespace Turnstile.Utf8

open String (utf8Len)

/-- Whether the octets of a text, cut off when there is no more room, end inside a character. -/
def Splits (room : Nat) (cs : List Char) : Prop :=
  ∃ before c after, cs = before ++ c :: after ∧ utf8Len before < room ∧ room < utf8Len before + width c

variable {room : Nat} {c : Char} {cs : List Char} {q : Option Pending} {b : UInt8} {bs : Bytes}

/-! ## A character that is cut -/

/-- The pieces that octets end, and what is pending behind them. -/
def stepsFrom : Option Pending → Bytes → List (Option Char) × Option Pending
  | q, [] => ([], q)
  | q, b :: bs =>
    ((stepFrom q b).1 ++ (stepsFrom (stepFrom q b).2 bs).1, (stepsFrom (stepFrom q b).2 bs).2)

theorem piecesFrom_append (q : Option Pending) (bs bs' : Bytes) :
    piecesFrom q (bs ++ bs') = (stepsFrom q bs).1 ++ piecesFrom (stepsFrom q bs).2 bs' := by
  induction bs generalizing q with
  | nil => rfl
  | cons b bs ih => rw [List.cons_append, piecesFrom_cons, ih, ← List.append_assoc, stepsFrom]

/-- An octet that ends no piece is pending. -/
theorem stepFrom_pending (h : (stepFrom q b).1 = []) : (stepFrom q b).2 ≠ none := by
  cases q with
  | none =>
    rw [stepFrom] at h ⊢
    cases hlead : lead b with
    | more p => exact Option.some_ne_none p
    | char c => rw [hlead] at h; cases h
    | stray => rw [hlead] at h; cases h
  | some p =>
    by_cases hb : p.low ≤ b ∧ b ≤ p.high
    · rw [stepFrom, if_pos hb] at h ⊢
      cases hleft : p.left with
      | zero => rw [hleft] at h; cases h
      | succ left => exact Option.some_ne_none _
    · rw [stepFrom_break hb] at h
      cases h

/-- Octets are not read as nothing. -/
theorem piecesFrom_ne_nil (q : Option Pending) (h : bs ≠ []) : piecesFrom q bs ≠ [] := by
  induction bs generalizing q with
  | nil => exact absurd rfl h
  | cons b bs ih =>
    rw [piecesFrom_cons]
    intro hnil
    obtain ⟨hout, hrest⟩ := List.append_eq_nil_iff.1 hnil
    cases bs with
    | nil =>
      -- what is pending at the end is a broken run
      cases hpending : (stepFrom q b).2 with
      | none => exact stepFrom_pending hout hpending
      | some p => rw [hpending] at hrest; cases hrest
    | cons b' bs => exact ih _ (List.cons_ne_nil b' bs) hrest

/-- **What is left of a character that is cut is one broken run.** -/
theorem pieces_part {part rest : Bytes} (h : String.utf8EncodeChar c = part ++ rest) (hpart : part ≠ [])
    (hrest : rest ≠ []) : pieces part = [none] := by
  have hwhole : pieces (part ++ rest) = [some c] := by
    have hread := piecesFrom_encode c []
    rwa [List.append_nil, h] at hread
  -- the character is read off the rest, so the part alone has ended nothing
  rw [pieces, piecesFrom_append] at hwhole
  have hlast := piecesFrom_ne_nil (stepsFrom none part).2 hrest
  have hnothing : (stepsFrom none part).1 = [] := by
    rcases List.append_eq_singleton_iff.1 hwhole with ⟨hnil, -⟩ | ⟨-, hnil⟩
    · exact hnil
    · exact absurd hnil hlast
  have hpieces : pieces part = piecesFrom (stepsFrom none part).2 [] := by
    have happend := piecesFrom_append none part []
    rwa [List.append_nil, hnothing, List.nil_append] at happend
  cases hpending : (stepsFrom none part).2 with
  | some p => rw [hpieces, hpending]; rfl
  | none =>
    rw [hpending] at hpieces
    exact absurd hpieces (piecesFrom_ne_nil none hpart)

/-! ## Where the cut is -/

theorem not_splits_nil : ¬ Splits room [] := by
  rintro ⟨before, c, after, h, -⟩
  simp at h

theorem splits_cons_of_le (h : width c ≤ room) : Splits room (c :: cs) ↔ Splits (room - width c) cs := by
  have hlen : ∀ before, utf8Len (c :: before) = utf8Len before + width c := fun _ => String.utf8Len_cons ..
  constructor
  · rintro ⟨before, d, after, heq, hlow, hhigh⟩
    cases before with
    | nil =>
      obtain ⟨rfl, -⟩ := List.cons.inj heq
      rw [String.utf8Len_nil] at hhigh
      omega
    | cons e before =>
      obtain ⟨rfl, hrest⟩ := List.cons.inj heq
      rw [hlen] at hlow hhigh
      exact ⟨before, d, after, hrest, by omega, by omega⟩
  · rintro ⟨before, d, after, rfl, hlow, hhigh⟩
    refine ⟨c :: before, d, after, rfl, ?_, ?_⟩
    · rw [hlen]
      omega
    · rw [hlen]
      omega

theorem splits_cons_of_lt (h : room < width c) : Splits room (c :: cs) ↔ 0 < room := by
  constructor
  · rintro ⟨before, d, after, -, hlow, -⟩
    exact Nat.zero_lt_of_lt hlow
  · intro hroom
    refine ⟨[], c, cs, rfl, ?_, ?_⟩
    · exact hroom
    · rw [String.utf8Len_nil]
      omega

/-- There are octets behind a cut that goes through a character. -/
theorem Splits.lt (h : Splits room cs) : room < utf8Len cs := by
  obtain ⟨before, c, after, rfl, -, hhigh⟩ := h
  rw [String.utf8Len_append, String.utf8Len_cons]
  unfold width at hhigh
  omega

/-- The octets of a text, cut off: those of a first character are whole if there is room for it. -/
theorem take_cons_of_le (h : width c ≤ room) (bs : Bytes) :
    (String.utf8EncodeChar c ++ bs).take room = String.utf8EncodeChar c ++ bs.take (room - width c) := by
  have hlength : (String.utf8EncodeChar c).length = width c := String.length_utf8EncodeChar c
  rw [List.take_append, hlength, List.take_of_length_le (hlength.trans_le h)]

theorem take_cons_of_lt (h : room < width c) (bs : Bytes) :
    (String.utf8EncodeChar c ++ bs).take room = (String.utf8EncodeChar c).take room := by
  have hlength : (String.utf8EncodeChar c).length = width c := String.length_utf8EncodeChar c
  exact List.take_append_of_le_length (by omega)

/-- **What is left of a text that is cut**: what there is room for between characters and, if a
character is split, a broken run. -/
theorem take_encode (room : Nat) (cs : List Char) :
    ∃ part, (cs.flatMap String.utf8EncodeChar).take room =
        (fit room cs).flatMap String.utf8EncodeChar ++ part ∧
      (¬ Splits room cs → part = []) ∧ (Splits room cs → pieces part = [none]) := by
  induction cs generalizing room with
  | nil => exact ⟨[], List.take_nil, fun _ => rfl, fun h => absurd h not_splits_nil⟩
  | cons c cs ih =>
    rw [List.flatMap_cons]
    by_cases hc : width c ≤ room
    · obtain ⟨part, htake, hpart⟩ := ih (room - width c)
      rw [take_cons_of_le hc, htake, fit_cons_of_le hc, splits_cons_of_le hc, List.flatMap_cons]
      exact ⟨part, (List.append_assoc ..).symm, hpart⟩
    · -- there is no room for the first character: the cut goes through it or is in front of it
      have hlt : room < width c := Nat.not_le.1 hc
      have hlength : (String.utf8EncodeChar c).length = width c := String.length_utf8EncodeChar c
      rw [take_cons_of_lt hlt, fit_cons_of_lt hlt, splits_cons_of_lt hlt]
      refine ⟨(String.utf8EncodeChar c).take room, rfl, ?_, ?_⟩
      · intro hroom
        rw [Nat.eq_zero_of_not_pos hroom, List.take_zero]
      · intro hroom
        refine pieces_part (List.take_append_drop room _).symm ?_ ?_
        · rw [← List.length_pos_iff, List.length_take]
          omega
        · rw [← List.length_pos_iff, List.length_drop]
          omega

/-- **If a character is split, a mark is read behind what there is room for.** -/
theorem decodeLossy_take {text : String} (h : Splits room text.toList) :
    decodeLossy ((encode text).take room) = String.ofList (fit room text.toList ++ ['\uFFFD']) := by
  obtain ⟨part, htake, -, hpart⟩ := take_encode room text.toList
  rw [decodeLossy, encode, htake, pieces_encode_append, hpart h, List.map_append, List.map_map]
  simp

/-- If none is split, what is left are the octets of what there is room for. -/
theorem take_encode_of_not_splits {text : String} (h : ¬ Splits room text.toList) :
    (encode text).take room = encode (String.ofList (fit room text.toList)) := by
  obtain ⟨part, htake, hpart, -⟩ := take_encode room text.toList
  rw [encode, htake, hpart h, List.append_nil, encode, String.toList_ofList]

end Turnstile.Utf8

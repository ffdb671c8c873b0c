import Mathlib.Tactic.Ring
import Turnstile.Text.Utf8

/-!
# Texts and their octets

Octets are read one at a time, with the character that is pending for a state. What is read is a
text, and its octets are the octets read, wherever those spelled a character.

* `Pending.Sound`: what is pending can only become a character outside the first 128.
* `piecesFrom_cons`: what one octet does.
* `piecesFrom_encode`: the octets of a character are read as that character, whatever follows.
* `mend`: octets with U+FFFD in place of each broken run.
-/

namespace Turnstile

/-- A property of octets that can be checked for each. -/
theorem octet_forall {p : UInt8 → Prop} (h : ∀ n < 256, p (UInt8.ofNat n)) (v : UInt8) : p v := by
  have := h v.toNat v.toNat_lt
  rwa [UInt8.ofNat_toNat] at this

namespace Utf8

/-! ## One octet at a time -/

/-- What an octet does: the pieces that it ends, and what is pending then. -/
def stepFrom : Option Pending → UInt8 → List (Option Char) × Option Pending
  | none, b =>
    match lead b with
    | .char c => ([some c], none)
    | .more p => ([], some p)
    | .stray => ([none], none)
  | some p, b =>
    if p.low ≤ b ∧ b ≤ p.high then
      match p.left with
      | 0 => ([some (Char.ofNat (p.value * 64 + (b.toNat - 0x80)))], none)
      | left + 1 => ([], some ⟨p.value * 64 + (b.toNat - 0x80), 0x80, 0xBF, left⟩)
    else
      match lead b with
      | .char c => ([none, some c], none)
      | .more q => ([none], some q)
      | .stray => ([none, none], none)

theorem piecesFrom_cons (p : Option Pending) (b : UInt8) (bs : Bytes) :
    piecesFrom p (b :: bs) = (stepFrom p b).1 ++ piecesFrom (stepFrom p b).2 bs := by
  cases p with
  | none =>
    rw [piecesFrom, stepFrom]
    cases lead b <;> rfl
  | some p =>
    rw [piecesFrom, stepFrom]
    split
    · dsimp only
      cases p.left <;> rfl
    · cases lead b <;> rfl

/-- An octet that does not continue what is pending breaks it. -/
theorem piecesFrom_break {p : Pending} {b : UInt8} (h : ¬ (p.low ≤ b ∧ b ≤ p.high)) (bs : Bytes) :
    piecesFrom (some p) (b :: bs) = none :: piecesFrom none (b :: bs) := by
  simp only [piecesFrom, if_neg h]

/-- The least character that what is pending can become. -/
def Pending.least (p : Pending) : Nat :=
  (p.value * 64 + (p.low.toNat - 0x80)) * 64 ^ p.left

/-- The first character past those that what is pending can become. -/
def Pending.past (p : Pending) : Nat :=
  (p.value * 64 + (p.high.toNat - 0x80) + 1) * 64 ^ p.left

/-- Whether what is pending can only become a character, and one outside the first 128. -/
structure Pending.Sound (p : Pending) : Prop where
  low : 0x80 ≤ p.low.toNat
  high : p.high.toNat ≤ 0xBF
  range : 0x80 ≤ p.least ∧ p.past ≤ 0xD800 ∨ 0xE000 ≤ p.least ∧ p.past ≤ 0x110000

instance (p : Pending) : Decidable p.Sound :=
  decidable_of_iff (0x80 ≤ p.low.toNat ∧ p.high.toNat ≤ 0xBF ∧
    (0x80 ≤ p.least ∧ p.past ≤ 0xD800 ∨ 0xE000 ≤ p.least ∧ p.past ≤ 0x110000))
    ⟨fun h => ⟨h.1, h.2.1, h.2.2⟩, fun h => ⟨h.low, h.high, h.range⟩⟩

/-- What an octet leads to where a character starts: an octet below 128 is a character itself, and
others are none. -/
def Lead.Fits (b : UInt8) : Lead → Prop
  | .char c => b.toNat < 0x80 ∧ c.toNat = b.toNat
  | .more p => 0x80 ≤ b.toNat ∧ p.Sound
  | .stray => 0x80 ≤ b.toNat

instance (b : UInt8) : (l : Lead) → Decidable (l.Fits b)
  | .char c => inferInstanceAs (Decidable (b.toNat < 0x80 ∧ c.toNat = b.toNat))
  | .more p => inferInstanceAs (Decidable (0x80 ≤ b.toNat ∧ p.Sound))
  | .stray => inferInstanceAs (Decidable (0x80 ≤ b.toNat))

theorem lead_fits (b : UInt8) : (lead b).Fits b :=
  octet_forall (p := fun b => (lead b).Fits b) (by decide +kernel) b

variable {p : Pending} {b : UInt8} {c : Char}

theorem lead_ascii (h : b.toNat < 0x80) : ∃ c, lead b = .char c ∧ c.toNat = b.toNat := by
  have hfits := lead_fits b
  cases hlead : lead b with
  | char c =>
    rw [hlead] at hfits
    exact ⟨c, rfl, hfits.2⟩
  | more q =>
    rw [hlead] at hfits
    have hhigh : 0x80 ≤ b.toNat := hfits.1
    omega
  | stray =>
    rw [hlead] at hfits
    have hhigh : 0x80 ≤ b.toNat := hfits
    omega

theorem toNat_ofNat_of_sound (hp : p.Sound) {n : Nat} (hleast : p.least ≤ n) (hpast : n < p.past) :
    0x80 ≤ n ∧ (Char.ofNat n).toNat = n := by
  have hvalid : n.isValidChar := by
    rcases hp.range with h | h
    · exact .inl (by omega)
    · exact .inr ⟨by omega, by omega⟩
  have hlow : 0x80 ≤ n := by
    rcases hp.range with h | h <;> omega
  refine ⟨hlow, ?_⟩
  rw [Char.ofNat, dif_pos hvalid]
  rfl

/-- A pending character that awaits one octet more is ended by it. -/
theorem stepFrom_last (hp : p.Sound) (hleft : p.left = 0) (hb : p.low ≤ b ∧ b ≤ p.high) :
    ∃ c : Char, stepFrom (some p) b = ([some c], none) ∧ 0x80 ≤ c.toNat := by
  have hlow : p.low.toNat ≤ b.toNat := UInt8.le_iff_toNat_le.1 hb.1
  have hhigh : b.toNat ≤ p.high.toNat := UInt8.le_iff_toNat_le.1 hb.2
  have hend := toNat_ofNat_of_sound (n := p.value * 64 + (b.toNat - 0x80)) hp
    (by rw [Pending.least, hleft]; omega) (by rw [Pending.past, hleft]; omega)
  refine ⟨_, ?_, hend.2 ▸ hend.1⟩
  rw [stepFrom, if_pos hb, hleft]

theorem least_plain (v left : Nat) : (⟨v, 0x80, 0xBF, left⟩ : Pending).least = v * 64 ^ (left + 1) := by
  have hlow : (0x80 : UInt8).toNat - 0x80 = 0 := by decide
  rw [Pending.least, hlow]
  ring

theorem past_plain (v left : Nat) :
    (⟨v, 0x80, 0xBF, left⟩ : Pending).past = (v + 1) * 64 ^ (left + 1) := by
  have hhigh : (0xBF : UInt8).toNat - 0x80 = 63 := by decide
  rw [Pending.past, hhigh]
  ring

/-- A pending character that awaits more octets stays pending. -/
theorem stepFrom_more (hp : p.Sound) {left : Nat} (hleft : p.left = left + 1)
    (hb : p.low ≤ b ∧ b ≤ p.high) :
    ∃ q : Pending, stepFrom (some p) b = ([], some q) ∧ q.Sound := by
  have hlow : p.low.toNat ≤ b.toNat := UInt8.le_iff_toNat_le.1 hb.1
  have hhigh : b.toNat ≤ p.high.toNat := UInt8.le_iff_toNat_le.1 hb.2
  let q : Pending := ⟨p.value * 64 + (b.toNat - 0x80), 0x80, 0xBF, left⟩
  have hleast : p.least ≤ q.least := by
    rw [least_plain, Pending.least, hleft]
    exact Nat.mul_le_mul_right _ (by omega)
  have hpast : q.past ≤ p.past := by
    rw [past_plain, Pending.past, hleft]
    exact Nat.mul_le_mul_right _ (by omega)
  refine ⟨q, ?_, Nat.le_refl 0x80, Nat.le_refl 0xBF, ?_⟩
  · rw [stepFrom, if_pos hb, hleft]
  · rcases hp.range with h | h
    · exact .inl ⟨h.1.trans hleast, hpast.trans h.2⟩
    · exact .inr ⟨h.1.trans hleast, hpast.trans h.2⟩

/-! ## The octets of a character -/

/-- The forms of a character, by its size. -/
theorem encodeChar_cases (c : Char) :
    (c.toNat < 0x80 ∧ String.utf8EncodeChar c = [UInt8.ofNat c.toNat]) ∨
    (0x80 ≤ c.toNat ∧ c.toNat < 0x800 ∧ String.utf8EncodeChar c =
      [UInt8.ofNat (c.toNat / 64 + 0xC0), UInt8.ofNat (c.toNat % 64 + 0x80)]) ∨
    (0x800 ≤ c.toNat ∧ c.toNat < 0x10000 ∧ (c.toNat < 0xD800 ∨ 0xDFFF < c.toNat) ∧
      String.utf8EncodeChar c = [UInt8.ofNat (c.toNat / 4096 + 0xE0),
        UInt8.ofNat (c.toNat / 64 % 64 + 0x80), UInt8.ofNat (c.toNat % 64 + 0x80)]) ∨
    (0x10000 ≤ c.toNat ∧ c.toNat < 0x110000 ∧ String.utf8EncodeChar c =
      [UInt8.ofNat (c.toNat / 262144 + 0xF0), UInt8.ofNat (c.toNat / 4096 % 64 + 0x80),
        UInt8.ofNat (c.toNat / 64 % 64 + 0x80), UInt8.ofNat (c.toNat % 64 + 0x80)]) := by
  have hvalid : c.toNat < 0xD800 ∨ 0xDFFF < c.toNat ∧ c.toNat < 0x110000 := c.valid
  have hval : c.val.toNat = c.toNat := rfl
  unfold String.utf8EncodeChar
  rw [hval]
  dsimp only
  by_cases h1 : c.toNat ≤ 0x7F
  · exact .inl ⟨by omega, if_pos h1⟩
  rw [if_neg h1]
  by_cases h2 : c.toNat ≤ 0x7FF
  · rw [if_pos h2]
    have hlead : c.toNat / 64 % 32 = c.toNat / 64 := by omega
    rw [hlead]
    exact .inr (.inl ⟨by omega, by omega, rfl⟩)
  rw [if_neg h2]
  by_cases h3 : c.toNat ≤ 0xFFFF
  · rw [if_pos h3]
    have hlead : c.toNat / 4096 % 16 = c.toNat / 4096 := by omega
    rw [hlead]
    exact .inr (.inr (.inl ⟨by omega, by omega, by omega, rfl⟩))
  rw [if_neg h3]
  have hlead : c.toNat / 262144 % 8 = c.toNat / 262144 := by omega
  rw [hlead]
  exact .inr (.inr (.inr ⟨by omega, by omega, rfl⟩))

theorem toNat_octet {n : Nat} (h : n < 256) : (UInt8.ofNat n).toNat = n := by
  rw [UInt8.toNat_ofNat']
  exact Nat.mod_eq_of_lt h

/-- The octets of a character outside the first 128 are outside them too. -/
theorem encodeChar_high (h : 0x80 ≤ c.toNat) :
    ∃ b bs, String.utf8EncodeChar c = b :: bs ∧ ∀ x ∈ b :: bs, 0x80 ≤ x.toNat := by
  have hhigh : ∀ n, 0x80 ≤ n → n < 256 → 0x80 ≤ (UInt8.ofNat n).toNat := by
    intro n hlow hn
    rw [toNat_octet hn]
    exact hlow
  obtain ⟨hlow, -⟩ | ⟨-, hlt, henc⟩ | ⟨-, hlt, -, henc⟩ | ⟨-, hlt, henc⟩ := encodeChar_cases c
  · omega
  · refine ⟨_, _, henc, ?_⟩
    simp only [List.forall_mem_cons, List.not_mem_nil, false_implies, implies_true, and_true]
    exact ⟨hhigh _ (by omega) (by omega), hhigh _ (by omega) (by omega)⟩
  · refine ⟨_, _, henc, ?_⟩
    simp only [List.forall_mem_cons, List.not_mem_nil, false_implies, implies_true, and_true]
    exact ⟨hhigh _ (by omega) (by omega), hhigh _ (by omega) (by omega),
      hhigh _ (by omega) (by omega)⟩
  · refine ⟨_, _, henc, ?_⟩
    simp only [List.forall_mem_cons, List.not_mem_nil, false_implies, implies_true, and_true]
    exact ⟨hhigh _ (by omega) (by omega), hhigh _ (by omega) (by omega),
      hhigh _ (by omega) (by omega), hhigh _ (by omega) (by omega)⟩

theorem encodeChar_ascii (h : c.toNat < 0x80) : String.utf8EncodeChar c = [UInt8.ofNat c.toNat] := by
  obtain ⟨-, henc⟩ | ⟨hlow, -⟩ | ⟨hlow, -⟩ | ⟨hlow, -⟩ := encodeChar_cases c
  · exact henc
  all_goals omega

/-! ### Reading them back -/

theorem lead_two {n : Nat} (h : 2 ≤ n) (hn : n < 32) :
    lead (UInt8.ofNat (n + 0xC0)) = .more ⟨n, 0x80, 0xBF, 0⟩ := by
  have hall : ∀ n < 32, 2 ≤ n → lead (UInt8.ofNat (n + 0xC0)) = .more ⟨n, 0x80, 0xBF, 0⟩ := by
    decide
  exact hall n hn h

theorem lead_three {n : Nat} (hn : n < 16) : lead (UInt8.ofNat (n + 0xE0)) =
    .more ⟨n, if n = 0 then 0xA0 else 0x80, if n = 13 then 0x9F else 0xBF, 1⟩ := by
  have hall : ∀ n < 16, lead (UInt8.ofNat (n + 0xE0)) =
      .more ⟨n, if n = 0 then 0xA0 else 0x80, if n = 13 then 0x9F else 0xBF, 1⟩ := by
    decide
  exact hall n hn

theorem lead_four {n : Nat} (hn : n < 5) : lead (UInt8.ofNat (n + 0xF0)) =
    .more ⟨n, if n = 0 then 0x90 else 0x80, if n = 4 then 0x8F else 0xBF, 2⟩ := by
  have hall : ∀ n < 5, lead (UInt8.ofNat (n + 0xF0)) =
      .more ⟨n, if n = 0 then 0x90 else 0x80, if n = 4 then 0x8F else 0xBF, 2⟩ := by
    decide
  exact hall n hn

section Tail

variable {n value left : Nat} {low high : UInt8}

theorem within_tail (hn : n < 64) (hlow : low.toNat ≤ n + 0x80) (hhigh : n + 0x80 ≤ high.toNat) :
    low ≤ UInt8.ofNat (n + 0x80) ∧ UInt8.ofNat (n + 0x80) ≤ high := by
  rw [UInt8.le_iff_toNat_le, UInt8.le_iff_toNat_le, toNat_octet (by omega)]
  exact ⟨hlow, hhigh⟩

theorem piecesFrom_tail (hn : n < 64) (hlow : low.toNat ≤ n + 0x80) (hhigh : n + 0x80 ≤ high.toNat)
    (bs : Bytes) :
    piecesFrom (some ⟨value, low, high, left + 1⟩) (UInt8.ofNat (n + 0x80) :: bs) =
      piecesFrom (some ⟨value * 64 + n, 0x80, 0xBF, left⟩) bs := by
  simp only [piecesFrom, if_pos (within_tail hn hlow hhigh), toNat_octet (show n + 0x80 < 256 by omega),
    Nat.add_sub_cancel]

theorem piecesFrom_end (hn : n < 64) (hlow : low.toNat ≤ n + 0x80) (hhigh : n + 0x80 ≤ high.toNat)
    (bs : Bytes) :
    piecesFrom (some ⟨value, low, high, 0⟩) (UInt8.ofNat (n + 0x80) :: bs) =
      some (Char.ofNat (value * 64 + n)) :: piecesFrom none bs := by
  simp only [piecesFrom, if_pos (within_tail hn hlow hhigh), toNat_octet (show n + 0x80 < 256 by omega),
    Nat.add_sub_cancel]

end Tail

/-- **The octets of a character are read as that character**, whatever follows. -/
theorem piecesFrom_encode (c : Char) (bs : Bytes) :
    piecesFrom none (String.utf8EncodeChar c ++ bs) = some c :: piecesFrom none bs := by
  have hplain : (0x80 : UInt8).toNat ≤ 0x80 ∧ (0xBF : UInt8).toNat = 0xBF := by decide
  obtain ⟨hlow, henc⟩ | ⟨hlow, hhigh, henc⟩ | ⟨hlow, hhigh, hgap, henc⟩ | ⟨hlow, hhigh, henc⟩ :=
    encodeChar_cases c
  · have hoctet : (UInt8.ofNat c.toNat).toNat = c.toNat := toNat_octet (by omega)
    obtain ⟨d, hlead, hd⟩ := lead_ascii (b := UInt8.ofNat c.toNat) (by omega)
    have hsame : d = c := Char.toNat_inj.1 (hd.trans hoctet)
    rw [henc, List.singleton_append, piecesFrom, hlead, hsame]
  · have hvalue : c.toNat / 64 * 64 + c.toNat % 64 = c.toNat := by omega
    rw [henc, List.cons_append, piecesFrom, lead_two (by omega) (by omega)]
    dsimp only
    rw [List.cons_append, piecesFrom_end (by omega) (by omega) (by omega), hvalue, Char.ofNat_toNat]
    rfl
  · have hvalue : (c.toNat / 4096 * 64 + c.toNat / 64 % 64) * 64 + c.toNat % 64 = c.toNat := by omega
    have hleast : (if c.toNat / 4096 = 0 then 0xA0 else 0x80 : UInt8).toNat ≤
        c.toNat / 64 % 64 + 0x80 := by
      split
      · exact (show (0xA0 : UInt8).toNat = 0xA0 by decide) ▸ (by omega)
      · omega
    have hmost : c.toNat / 64 % 64 + 0x80 ≤
        (if c.toNat / 4096 = 13 then 0x9F else 0xBF : UInt8).toNat := by
      split
      · exact (show (0x9F : UInt8).toNat = 0x9F by decide) ▸ (by omega)
      · omega
    rw [henc, List.cons_append, piecesFrom, lead_three (by omega)]
    dsimp only
    rw [List.cons_append, piecesFrom_tail (by omega) hleast hmost, List.cons_append,
      piecesFrom_end (by omega) (by omega) (by omega), hvalue, Char.ofNat_toNat]
    rfl
  · have hvalue : ((c.toNat / 262144 * 64 + c.toNat / 4096 % 64) * 64 + c.toNat / 64 % 64) * 64 +
        c.toNat % 64 = c.toNat := by omega
    have hleast : (if c.toNat / 262144 = 0 then 0x90 else 0x80 : UInt8).toNat ≤
        c.toNat / 4096 % 64 + 0x80 := by
      split
      · exact (show (0x90 : UInt8).toNat = 0x90 by decide) ▸ (by omega)
      · omega
    have hmost : c.toNat / 4096 % 64 + 0x80 ≤
        (if c.toNat / 262144 = 4 then 0x8F else 0xBF : UInt8).toNat := by
      split
      · exact (show (0x8F : UInt8).toNat = 0x8F by decide) ▸ (by omega)
      · omega
    rw [henc, List.cons_append, piecesFrom, lead_four (by omega)]
    dsimp only
    rw [List.cons_append, piecesFrom_tail (by omega) hleast hmost, List.cons_append,
      piecesFrom_tail (by omega) (by omega) (by omega), List.cons_append,
      piecesFrom_end (by omega) (by omega) (by omega), hvalue, Char.ofNat_toNat]
    rfl

/-! ## Mended octets -/

/-- The octets of what is read, with U+FFFD in place of each broken run. -/
def mendFrom (p : Option Pending) (bs : Bytes) : Bytes :=
  (piecesFrom p bs).flatMap fun piece => String.utf8EncodeChar (piece.getD '\uFFFD')

/-- Octets with U+FFFD in place of each broken run. -/
def mend (bs : Bytes) : Bytes :=
  mendFrom none bs

theorem encode_decodeLossy (bs : Bytes) : encode (decodeLossy bs) = mend bs := by
  rw [encode, decodeLossy, String.toList_ofList, List.flatMap_map]
  rfl

/-- The octets of characters are read as those characters, whatever follows. -/
theorem pieces_encode_append (cs : List Char) (bs : Bytes) :
    pieces (cs.flatMap String.utf8EncodeChar ++ bs) = cs.map some ++ pieces bs := by
  induction cs with
  | nil => rfl
  | cons c cs ih =>
    rw [List.flatMap_cons, List.append_assoc, pieces, piecesFrom_encode, List.map_cons, List.cons_append,
      ← ih]
    rfl

theorem pieces_encode (cs : List Char) :
    pieces (cs.flatMap String.utf8EncodeChar) = cs.map some := by
  have h := pieces_encode_append cs []
  rwa [List.append_nil, show pieces [] = [] from rfl, List.append_nil] at h

/-- **A text is read from its octets.** -/
theorem decode?_encode (s : String) : decode? (encode s) = some s := by
  have hall : ∀ cs : List Char, (cs.map some).mapM id = some cs := by
    intro cs
    induction cs with
    | nil => rfl
    | cons c cs ih =>
      rw [List.map_cons, List.mapM_cons, ih]
      rfl
  rw [decode?, encode, pieces_encode, hall, Option.map_some, String.ofList_toList]

/-- What spells a text is nothing to mend. -/
theorem decodeLossy_of_decode? {bs : Bytes} {s : String} (h : decode? bs = some s) :
    decodeLossy bs = s := by
  have hwhole : ∀ (pieces : List (Option Char)) (cs : List Char), pieces.mapM id = some cs →
      pieces.map (·.getD '\uFFFD') = cs := by
    intro pieces
    induction pieces with
    | nil =>
      intro cs hcs
      cases hcs
      rfl
    | cons piece pieces ih =>
      intro cs hcs
      rw [List.mapM_cons] at hcs
      cases piece with
      | none => cases hcs
      | some c =>
        cases hrest : pieces.mapM id with
        | none =>
          rw [hrest] at hcs
          cases hcs
        | some rest =>
          rw [hrest] at hcs
          cases hcs
          rw [List.map_cons, ih rest hrest]
          rfl
  obtain ⟨cs, hcs, rfl⟩ := Option.map_eq_some_iff.1 h
  rw [decodeLossy, hwhole _ cs hcs]

/-- Whether what is pending, if anything is, can only become a character outside the first 128. -/
def Ready (p : Option Pending) : Prop :=
  ∀ q, p = some q → q.Sound

/-- The mark for what is pending when it is broken off. -/
def broken : Option Pending → Bytes
  | none => []
  | some _ => String.utf8EncodeChar '\uFFFD'

theorem ready_none : Ready none := fun _ h => nomatch h

theorem mem_broken {p : Option Pending} {b : UInt8} (h : b ∈ broken p) : 0x80 ≤ b.toNat := by
  cases p with
  | none => cases h
  | some p =>
    obtain ⟨b', bs, henc, hall⟩ := encodeChar_high (c := '\uFFFD') (by decide)
    rw [broken, henc] at h
    exact hall b h

theorem mendFrom_nil (p : Option Pending) : mendFrom p [] = broken p := by
  cases p with
  | none => rfl
  | some p => exact List.append_nil _

theorem mendFrom_cons (p : Option Pending) (b : UInt8) (bs : Bytes) :
    mendFrom p (b :: bs) =
      ((stepFrom p b).1.flatMap fun piece => String.utf8EncodeChar (piece.getD '\uFFFD')) ++
        mendFrom (stepFrom p b).2 bs := by
  rw [mendFrom, piecesFrom_cons, List.flatMap_append]
  rfl

/-- An octet that continues no character breaks off what is pending. -/
theorem mendFrom_start {p : Option Pending} (hp : Ready p) {b : UInt8}
    (hb : b.toNat < 0x80 ∨ 0xC0 ≤ b.toNat) (bs : Bytes) :
    mendFrom p (b :: bs) = broken p ++ mendFrom none (b :: bs) := by
  cases p with
  | none => rfl
  | some p =>
    have hsound : p.Sound := hp p rfl
    have hout : ¬ (p.low ≤ b ∧ b ≤ p.high) := by
      rw [UInt8.le_iff_toNat_le, UInt8.le_iff_toNat_le]
      have hlow := hsound.low
      have hhigh := hsound.high
      omega
    rw [mendFrom, piecesFrom_break hout, List.flatMap_cons]
    rfl

theorem mendFrom_ascii {p : Option Pending} (hp : Ready p) {b : UInt8} (hb : b.toNat < 0x80)
    (bs : Bytes) : mendFrom p (b :: bs) = broken p ++ b :: mend bs := by
  obtain ⟨c, hlead, hc⟩ := lead_ascii hb
  have henc : String.utf8EncodeChar c = [b] := by
    rw [encodeChar_ascii (by omega), hc, UInt8.ofNat_toNat]
  have hself : mendFrom none (b :: bs) = b :: mend bs := by
    rw [mendFrom_cons, stepFrom, hlead]
    dsimp only
    rw [List.flatMap_singleton, Option.getD_some, henc]
    rfl
  rw [mendFrom_start hp (.inl hb), hself]

theorem encodeChar_head (c : Char) :
    ∃ b bs, String.utf8EncodeChar c = b :: bs ∧ (b.toNat < 0x80 ∨ 0xC0 ≤ b.toNat) := by
  obtain ⟨hlow, henc⟩ | ⟨-, hlt, henc⟩ | ⟨-, hlt, -, henc⟩ | ⟨-, hlt, henc⟩ := encodeChar_cases c
  · exact ⟨_, _, henc, .inl (by rw [toNat_octet (by omega)]; exact hlow)⟩
  · exact ⟨_, _, henc, .inr (by rw [toNat_octet (by omega)]; omega)⟩
  · exact ⟨_, _, henc, .inr (by rw [toNat_octet (by omega)]; omega)⟩
  · exact ⟨_, _, henc, .inr (by rw [toNat_octet (by omega)]; omega)⟩

theorem mendFrom_encode {p : Option Pending} (hp : Ready p) (c : Char) (bs : Bytes) :
    mendFrom p (String.utf8EncodeChar c ++ bs) = broken p ++ String.utf8EncodeChar c ++ mend bs := by
  have hself : mendFrom none (String.utf8EncodeChar c ++ bs) = String.utf8EncodeChar c ++ mend bs := by
    rw [mendFrom, piecesFrom_encode, List.flatMap_cons]
    rfl
  obtain ⟨b, rest, henc, hb⟩ := encodeChar_head c
  rw [henc] at hself ⊢
  rw [List.cons_append, mendFrom_start hp hb, ← List.cons_append, hself, List.append_assoc]

/-- What an octet makes, if all of it is outside the first 128, and what is pending then: something,
unless it makes some. -/
structure Turns (p : Option Pending) (b : UInt8) (out : Bytes) (q : Option Pending) : Prop where
  ready : Ready q
  high : ∀ x ∈ out, 0x80 ≤ x.toNat
  ended : q = none → out ≠ []
  next : ∀ bs, mendFrom p (b :: bs) = out ++ mendFrom q bs

theorem mark_high : ∀ x ∈ String.utf8EncodeChar '\uFFFD', 0x80 ≤ x.toNat :=
  fun _ hx => mem_broken (p := some ⟨0, 0, 0, 0⟩) hx

/-- An octet that is read into what is pending. -/
theorem turns_more {p : Option Pending} {q : Pending} {b : UInt8} (hstep : stepFrom p b = ([], some q))
    (hq : q.Sound) : Turns p b [] (some q) where
  ready := by
    rintro _ ⟨⟩
    exact hq
  high := List.forall_mem_nil _
  ended := fun hnone => nomatch hnone
  next := fun bs => by
    rw [mendFrom_cons, hstep]
    rfl

/-- An octet that ends a character outside the first 128, or is one that is broken. -/
theorem turns_end {p : Option Pending} {b : UInt8} (piece : Option Char)
    (hstep : stepFrom p b = ([piece], none))
    (hpiece : ∀ x ∈ String.utf8EncodeChar (piece.getD '\uFFFD'), 0x80 ≤ x.toNat) :
    Turns p b (String.utf8EncodeChar (piece.getD '\uFFFD')) none where
  ready := ready_none
  high := hpiece
  ended := fun _ => String.utf8EncodeChar_ne_nil
  next := fun bs => by
    rw [mendFrom_cons, hstep]
    dsimp only
    rw [List.flatMap_singleton]

/-- Where a character starts. -/
theorem turns_lead {b : UInt8} (hb : 0x80 ≤ b.toNat) : ∃ out q, Turns none b out q := by
  have hfits := lead_fits b
  cases hlead : lead b with
  | char c =>
    rw [hlead] at hfits
    exact absurd hfits.1 (Nat.not_lt.2 hb)
  | more q =>
    rw [hlead] at hfits
    exact ⟨[], some q, turns_more (by rw [stepFrom, hlead]) hfits.2⟩
  | stray => exact ⟨_, none, turns_end none (by rw [stepFrom, hlead]) mark_high⟩

/-- **An octet outside the first 128 makes more of those**, and leaves something pending or nothing. -/
theorem mendFrom_high {p : Option Pending} (hp : Ready p) {b : UInt8} (hb : 0x80 ≤ b.toNat) :
    ∃ out q, Turns p b out q := by
  cases p with
  | none => exact turns_lead hb
  | some p =>
    have hsound : p.Sound := hp p rfl
    by_cases hin : p.low ≤ b ∧ b ≤ p.high
    · cases hleft : p.left with
      | zero =>
        obtain ⟨c, hstep, hc⟩ := stepFrom_last hsound hleft hin
        obtain ⟨b', rest, henc, hall⟩ := encodeChar_high hc
        exact ⟨_, none, turns_end (some c) hstep (henc ▸ hall)⟩
      | succ left =>
        obtain ⟨q, hstep, hq⟩ := stepFrom_more hsound hleft hin
        exact ⟨[], some q, turns_more hstep hq⟩
    · -- what is pending is broken off, and the octet starts anew
      obtain ⟨out, q, hlead⟩ := turns_lead hb
      refine ⟨String.utf8EncodeChar '\uFFFD' ++ out, q, hlead.ready, ?_, ?_, fun bs => ?_⟩
      · exact List.forall_mem_append.2 ⟨mark_high, hlead.high⟩
      · intro _ hnil
        exact String.utf8EncodeChar_ne_nil (List.append_eq_nil_iff.1 hnil).1
      · rw [List.append_assoc, ← hlead.next, mendFrom, piecesFrom_break hin, List.flatMap_cons]
        rfl

/-- What is pending makes an octet outside the first 128, whatever becomes of it. -/
theorem mendFrom_pending {p : Pending} (hp : p.Sound) (bs : Bytes) :
    ∃ b rest, mendFrom (some p) bs = b :: rest ∧ 0x80 ≤ b.toNat := by
  have hmark : ∀ rest : Bytes, ∃ b tail, broken (some p) ++ rest = b :: tail ∧ 0x80 ≤ b.toNat := by
    intro rest
    obtain ⟨b, tail, henc, hall⟩ := encodeChar_high (c := '\uFFFD') (by decide)
    exact ⟨b, tail ++ rest, by rw [broken, henc]; rfl, hall b List.mem_cons_self⟩
  induction bs generalizing p with
  | nil =>
    rw [mendFrom_nil, ← List.append_nil (broken _)]
    exact hmark []
  | cons b bs ih =>
    have hready : Ready (some p) := by
      rintro _ ⟨⟩
      exact hp
    by_cases hb : b.toNat < 0x80
    · rw [mendFrom_ascii hready hb]
      exact hmark _
    · obtain ⟨out, q, hturn⟩ := mendFrom_high hready (Nat.not_lt.1 hb)
      rw [hturn.next]
      cases out with
      | cons x out => exact ⟨x, _, rfl, hturn.high x List.mem_cons_self⟩
      | nil =>
        cases q with
        | none => exact absurd rfl (hturn.ended rfl)
        | some q => exact ih (hturn.ready q rfl) hmark

/-! ### What mending leaves as it is -/

theorem mend_nil : mend [] = [] := rfl

theorem mend_ascii {b : UInt8} (hb : b.toNat < 0x80) (bs : Bytes) : mend (b :: bs) = b :: mend bs :=
  mendFrom_ascii ready_none hb bs

theorem mend_high {b : UInt8} (hb : 0x80 ≤ b.toNat) (bs : Bytes) :
    ∃ b' rest, mend (b :: bs) = b' :: rest ∧ 0x80 ≤ b'.toNat := by
  obtain ⟨out, q, hturn⟩ := mendFrom_high ready_none hb
  rw [mend, hturn.next]
  cases out with
  | cons x out => exact ⟨x, _, rfl, hturn.high x List.mem_cons_self⟩
  | nil =>
    cases q with
    | none => exact absurd rfl (hturn.ended rfl)
    | some q => exact mendFrom_pending (hturn.ready q rfl) bs

end Utf8

end Turnstile

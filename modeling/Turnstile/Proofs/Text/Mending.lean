import Mathlib.Data.String.Basic
import Turnstile.Proofs.Text.Utf8

/-!
# What mending adds

A broken run of octets is replaced by a mark of three octets, so a text can be longer than the octets
it was read from.

* `utf8ByteSize_decodeLossy`: a text that was read takes as many octets as the mended ones are.
* `size_step`, `broken_step`: what one octet adds, paid for by the octets read so far.
* `length_mend_le`: **each broken run adds two octets at most**, and nothing else adds any.
* `brokenRuns_le`: each broken run has an octet outside the first 128.
* `mem_of_mem_mend`: mending adds no octet among the first 128, so no zero either.
-/

namespace Turnstile.Utf8

/-- How many broken runs octets have. -/
def brokenRuns (bs : Bytes) : Nat :=
  (pieces bs).countP Option.isNone

/-- Whether an octet is outside the first 128. -/
def isHigh (b : UInt8) : Bool :=
  0x80 ≤ b.toNat

/-- How many octets the pieces of a text take. -/
def size (ps : List (Option Char)) : Nat :=
  (ps.map fun piece => (piece.getD '\uFFFD').utf8Size).sum

variable {p : Pending} {q : Option Pending} {b : UInt8} {bs : Bytes} {c : Char} {n : Nat}

/-! ## The size of a text -/

theorem length_encode (s : String) : (encode s).length = s.utf8ByteSize := by
  have hchars : ∀ cs : List Char, (cs.flatMap String.utf8EncodeChar).length = String.utf8Len cs := by
    intro cs
    induction cs with
    | nil => rfl
    | cons c cs ih =>
      rw [List.flatMap_cons, List.length_append, ih, String.length_utf8EncodeChar, String.utf8Len_cons,
        Nat.add_comm]
  rw [encode, hchars, String.utf8Len_toList]

/-- A text that was read takes as many octets as the mended ones are. -/
theorem utf8ByteSize_decodeLossy (bs : Bytes) : (decodeLossy bs).utf8ByteSize = (mend bs).length := by
  rw [← length_encode, encode_decodeLossy]

theorem length_mendFrom (q : Option Pending) (bs : Bytes) :
    (mendFrom q bs).length = size (piecesFrom q bs) := by
  rw [mendFrom, List.length_flatMap, size]
  simp only [String.length_utf8EncodeChar]

theorem size_append (ps qs : List (Option Char)) : size (ps ++ qs) = size ps + size qs := by
  simp [size]

theorem size_nil : size [] = 0 := rfl

theorem size_cons (piece : Option Char) (ps : List (Option Char)) :
    size (piece :: ps) = (piece.getD '\uFFFD').utf8Size + size ps := rfl

theorem size_mark : size [none] = 3 := by decide

theorem size_ascii (h : c.toNat < 0x80) : size [some c] = 1 := by
  have hone : c.utf8Size = 1 := by
    rw [← String.length_utf8EncodeChar, encodeChar_ascii h]
    rfl
  rw [size_cons, Option.getD_some, hone]
  rfl

/-! ## What one octet adds -/

/-- How many octets the characters below a bound take at most. -/
def sizeBelow (n : Nat) : Nat :=
  if n ≤ 0x800 then 2 else if n ≤ 0x10000 then 3 else 4

theorem utf8Size_le_sizeBelow (h : c.toNat < n) : c.utf8Size ≤ sizeBelow n := by
  rw [← String.length_utf8EncodeChar, sizeBelow]
  obtain ⟨-, henc⟩ | ⟨-, -, henc⟩ | ⟨hlow, -, -, henc⟩ | ⟨hlow, -, henc⟩ := encodeChar_cases c
  · rw [henc, List.length_singleton]
    split_ifs <;> omega
  · rw [henc, List.length_cons, List.length_singleton]
    split_ifs <;> omega
  · rw [henc, List.length_cons, List.length_cons, List.length_singleton]
    split_ifs <;> omega
  · rw [henc, List.length_cons, List.length_cons, List.length_cons, List.length_singleton]
    split_ifs <;> omega

theorem sizeBelow_mono {m : Nat} (h : m ≤ n) : sizeBelow m ≤ sizeBelow n := by
  unfold sizeBelow
  split_ifs <;> omega

theorem toNat_ofNat_le (n : Nat) : (Char.ofNat n).toNat ≤ n := by
  by_cases hvalid : n.isValidChar
  · rw [Char.ofNat, dif_pos hvalid]
    exact le_rfl
  · rw [Char.ofNat, dif_neg hvalid]
    exact Nat.zero_le n

/-- How many octets of what is pending were read, if it becomes a character that takes as many as it
can: one at least. -/
def Pending.taken (p : Pending) : Nat :=
  max 1 (sizeBelow p.past - (p.left + 1))

/-- How many octets wait for what they become. -/
def waiting : Option Pending → Nat
  | none => 0
  | some p => p.taken

theorem taken_of_lead (h : lead b = .more p) : p.taken = 1 := by
  have hall : ∀ b : UInt8, ∀ p ∈ (match lead b with | .more p => some p | _ => none), p.taken = 1 :=
    octet_forall (p := fun b => ∀ p ∈ (match lead b with | .more p => some p | _ => none), p.taken = 1)
      (by decide +kernel)
  exact hall b p (by rw [h]; rfl)

theorem stepFrom_break (h : ¬ (p.low ≤ b ∧ b ≤ p.high)) :
    stepFrom (some p) b = (none :: (stepFrom none b).1, (stepFrom none b).2) := by
  rw [stepFrom, stepFrom, if_neg h]
  cases lead b <;> rfl

/-- What an octet adds where a character starts. -/
theorem size_start (b : UInt8) : size (stepFrom none b).1 + waiting (stepFrom none b).2 ≤
    1 + 2 * (stepFrom none b).1.countP Option.isNone := by
  have hfits := lead_fits b
  rw [stepFrom]
  cases hlead : lead b with
  | char c =>
    rw [hlead] at hfits
    have hone := size_ascii (c := c) (hfits.2 ▸ hfits.1)
    dsimp only
    rw [hone]
    exact Nat.le_add_right 1 _
  | more p =>
    dsimp only
    rw [size_nil, waiting, taken_of_lead hlead]
    exact Nat.le_add_right 1 _
  | stray =>
    dsimp only
    rw [size_mark]
    exact le_rfl

/-- A character that is ended takes no more octets than were read for it. -/
theorem utf8Size_last (hleft : p.left = 0) (hb : b ≤ p.high) :
    (Char.ofNat (p.value * 64 + (b.toNat - 0x80))).utf8Size ≤ p.taken + 1 := by
  have hhigh : b.toNat ≤ p.high.toNat := UInt8.le_iff_toNat_le.1 hb
  have hpast : p.value * 64 + (b.toNat - 0x80) < p.past := by
    rw [Pending.past, hleft]
    omega
  have hsize := utf8Size_le_sizeBelow
    ((toNat_ofNat_le (p.value * 64 + (b.toNat - 0x80))).trans_lt hpast)
  rw [Pending.taken, hleft]
  omega

/-- An octet that is read into what is pending is one octet more. -/
theorem taken_next {left : Nat} (hleft : p.left = left + 1) (hb : b ≤ p.high) :
    (⟨p.value * 64 + (b.toNat - 0x80), 0x80, 0xBF, left⟩ : Pending).taken ≤ p.taken + 1 := by
  have hhigh : b.toNat ≤ p.high.toNat := UInt8.le_iff_toNat_le.1 hb
  have hpast : (⟨p.value * 64 + (b.toNat - 0x80), 0x80, 0xBF, left⟩ : Pending).past ≤ p.past := by
    rw [past_plain, Pending.past, hleft]
    exact Nat.mul_le_mul_right _ (by omega)
  have hbelow := sizeBelow_mono hpast
  rw [Pending.taken, Pending.taken, hleft]
  dsimp only
  omega

/-- **What an octet adds** is paid for by the octets that wait, by the octet itself, and by two more for
each run that it shows to be broken. -/
theorem size_step (q : Option Pending) (b : UInt8) : size (stepFrom q b).1 + waiting (stepFrom q b).2 ≤
    1 + 2 * (stepFrom q b).1.countP Option.isNone + waiting q := by
  cases q with
  | none => exact size_start b
  | some p =>
    by_cases hb : p.low ≤ b ∧ b ≤ p.high
    · rw [stepFrom, if_pos hb]
      cases hleft : p.left with
      | zero =>
        have hlast := utf8Size_last hleft hb.2
        dsimp only
        rw [size_cons, size_nil, Option.getD_some, waiting, waiting]
        omega
      | succ left =>
        have hnext := taken_next hleft hb.2
        dsimp only
        rw [size_nil, waiting, waiting]
        omega
    · -- what is pending is broken off, and the octet starts anew
      have hstart := size_start b
      have hmark : (Option.getD none '\uFFFD').utf8Size = 3 := by decide
      have htaken : 1 ≤ p.taken := Nat.le_max_left 1 _
      rw [stepFrom_break hb, size_cons, List.countP_cons_of_pos rfl, hmark]
      simp only [waiting] at hstart ⊢
      omega

theorem broken_start (b : UInt8) :
    (stepFrom none b).1.countP Option.isNone + (stepFrom none b).2.isSome.toNat ≤ (isHigh b).toNat := by
  have hfits := lead_fits b
  rw [stepFrom]
  cases hlead : lead b with
  | char c => exact Nat.zero_le _
  | more p =>
    rw [hlead] at hfits
    have hhigh : isHigh b = true := decide_eq_true hfits.1
    rw [hhigh]
    exact le_rfl
  | stray =>
    rw [hlead] at hfits
    have hhigh : isHigh b = true := decide_eq_true hfits
    rw [hhigh]
    exact le_rfl

/-- What an octet breaks: the run of what is pending, and one of its own if it is outside the first
128. -/
theorem broken_step (q : Option Pending) (b : UInt8) :
    (stepFrom q b).1.countP Option.isNone + (stepFrom q b).2.isSome.toNat ≤
      (isHigh b).toNat + q.isSome.toNat := by
  cases q with
  | none => exact broken_start b
  | some p =>
    by_cases hb : p.low ≤ b ∧ b ≤ p.high
    · rw [stepFrom, if_pos hb]
      cases p.left with
      | zero => exact Nat.zero_le _
      | succ left => exact Nat.le_add_left 1 _
    · have hstart := broken_start b
      rw [stepFrom_break hb, List.countP_cons_of_pos rfl, Option.isSome_some, Bool.toNat_true]
      dsimp only
      omega

/-! ## All octets -/

/-- Octets behind some that wait. -/
theorem size_piecesFrom (q : Option Pending) (bs : Bytes) : size (piecesFrom q bs) ≤
    bs.length + 2 * (piecesFrom q bs).countP Option.isNone + waiting q := by
  induction bs generalizing q with
  | nil =>
    cases q with
    | none => exact Nat.zero_le _
    | some p =>
      have htaken : 1 ≤ p.taken := Nat.le_max_left 1 _
      rw [piecesFrom, size_mark, waiting]
      simp
      omega
  | cons b bs ih =>
    have hstep := size_step q b
    have hrest := ih (stepFrom q b).2
    rw [piecesFrom_cons, size_append, List.countP_append, List.length_cons]
    omega

/-- **Each broken run adds two octets at most**, and nothing else adds any. -/
theorem length_mend_le (bs : Bytes) : (mend bs).length ≤ bs.length + 2 * brokenRuns bs := by
  have hsize := size_piecesFrom none bs
  rw [mend, length_mendFrom]
  exact hsize

theorem broken_piecesFrom (q : Option Pending) (bs : Bytes) :
    (piecesFrom q bs).countP Option.isNone ≤ bs.countP isHigh + q.isSome.toNat := by
  induction bs generalizing q with
  | nil => cases q <;> simp [piecesFrom]
  | cons b bs ih =>
    have hstep := broken_step q b
    have hrest := ih (stepFrom q b).2
    have hfirst : (if isHigh b = true then 1 else 0) = (isHigh b).toNat := by cases isHigh b <;> rfl
    rw [piecesFrom_cons, List.countP_append, List.countP_cons, hfirst]
    omega

/-- Each broken run has an octet outside the first 128. -/
theorem brokenRuns_le (bs : Bytes) : brokenRuns bs ≤ bs.countP isHigh :=
  broken_piecesFrom none bs

theorem mem_mendFrom (hq : Ready q) {x : UInt8} (hx : x ∈ mendFrom q bs) (hlow : x.toNat < 0x80) :
    x ∈ bs := by
  induction bs generalizing q with
  | nil =>
    rw [mendFrom_nil] at hx
    have := mem_broken hx
    omega
  | cons b bs ih =>
    by_cases hb : b.toNat < 0x80
    · rw [mendFrom_ascii hq hb] at hx
      rcases List.mem_append.1 hx with hx | hx
      · have := mem_broken hx
        omega
      · rcases List.mem_cons.1 hx with rfl | hx
        · exact List.mem_cons_self
        · exact List.mem_cons_of_mem b (ih ready_none hx)
    · obtain ⟨out, q', hturn⟩ := mendFrom_high hq (Nat.not_lt.1 hb)
      rw [hturn.next] at hx
      rcases List.mem_append.1 hx with hx | hx
      · have := hturn.high x hx
        omega
      · exact List.mem_cons_of_mem b (ih hturn.ready hx)

/-- Mending adds no octet among the first 128. -/
theorem mem_of_mem_mend {x : UInt8} (hx : x ∈ mend bs) (hlow : x.toNat < 0x80) : x ∈ bs :=
  mem_mendFrom ready_none hx hlow

/-- Octets without a zero are no text with one. -/
theorem null_not_mem_decodeLossy (h : (0 : UInt8) ∉ bs) : '\x00' ∉ (decodeLossy bs).toList := by
  intro hnull
  have hzero : (0 : UInt8) ∈ encode (decodeLossy bs) :=
    List.mem_flatMap.2 ⟨'\x00', hnull, by decide⟩
  rw [encode_decodeLossy] at hzero
  exact h (mem_of_mem_mend hzero (by decide))

end Turnstile.Utf8

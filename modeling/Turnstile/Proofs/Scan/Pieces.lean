import Mathlib.Data.List.TakeDrop
import Turnstile.Proofs.Scan.Drain

/-!
# Frames that arrive in pieces

A serial port cuts what the scanner sends where it likes. The buffer is drained after
every piece.

* `drain_wire`: frames that are complete are handed out, in order.
* `receive_take_succ`: one more piece.
* `inStep_iff`: **no piece is lost or handed out early exactly as long as no piece ends
  behind a line end inside a frame.** A line end there makes a line of the frame's
  start, which is dropped.
-/

namespace Turnstile.ScanBuffer

/-- What a frame carries. -/
structure Packet where
  data : Bytes
  nonempty : 0 < data.length
  fits : data.length ≤ maxFrame

/-- The octets of a frame. -/
def Packet.bytes (p : Packet) : Bytes :=
  frameStart :: UInt8.ofNat p.data.length :: p.data

/-- Frames, one after another. -/
def wire (ps : List Packet) : Bytes :=
  ps.flatMap Packet.bytes

/-- The texts that frames carry. -/
def Packet.texts (ps : List Packet) : List String :=
  ScanBuffer.texts (ps.map Packet.data)

/-- The frames that are complete once `n` octets arrived. -/
def arrived : List Packet → Nat → List Packet
  | [], _ => []
  | p :: ps, n => if n < p.bytes.length then [] else p :: arrived ps (n - p.bytes.length)

/-- What is there of a frame that is not complete once `n` octets arrived. -/
def started : List Packet → Nat → Bytes
  | [], _ => []
  | p :: ps, n => if n < p.bytes.length then p.bytes.take n else started ps (n - p.bytes.length)

/-- Pieces arrive, and the buffer is drained after each. -/
def receive : List Bytes → ScanBuffer → List String × ScanBuffer
  | [], s => ([], s)
  | piece :: pieces, s =>
    let now := (s.push piece).1.drain
    let later := receive pieces now.2
    (now.1 ++ later.1, later.2)

/-- No piece is empty, and each finds room in the buffer. -/
def FindRoom (pieces : List Bytes) (s : ScanBuffer) : Prop :=
  ∀ (k : Nat) (hk : k < pieces.length), pieces[k] ≠ [] ∧
    pieces[k].length ≤ capacity - (receive (pieces.take k) s).2.bytes.length

instance (pieces : List Bytes) (s : ScanBuffer) : Decidable (FindRoom pieces s) :=
  inferInstanceAs (Decidable (∀ (k : Nat) (hk : k < pieces.length), pieces[k] ≠ [] ∧
    pieces[k].length ≤ capacity - (receive (pieces.take k) s).2.bytes.length))

/-- How many octets the first `k` pieces hold. -/
def sent (pieces : List Bytes) (k : Nat) : Nat :=
  (pieces.take k).flatten.length

/-- After every piece the complete frames were handed out and the rest is kept. -/
def InStep (ps : List Packet) (pieces : List Bytes) : Prop :=
  ∀ k, receive (pieces.take k) {} =
    (Packet.texts (arrived ps (sent pieces k)), ⟨started ps (sent pieces k)⟩)

/-- No piece ends behind a line end inside a frame. -/
def CutBeforeSeparators (ps : List Packet) (pieces : List Bytes) : Prop :=
  ∀ k, ∀ b ∈ started ps (sent pieces k), isSeparator b = false

/-! ## What has arrived -/

@[simp] theorem Packet.length_bytes (p : Packet) : p.bytes.length = p.data.length + 2 := rfl

/-- The length octet tells the length. -/
theorem Packet.toNat_length (p : Packet) : (UInt8.ofNat p.data.length).toNat = p.data.length := by
  have := p.fits
  unfold maxFrame at this
  rw [UInt8.toNat_ofNat']
  omega

theorem wire_cons (p : Packet) (ps : List Packet) : wire (p :: ps) = p.bytes ++ wire ps := rfl

theorem take_wire (ps : List Packet) (n : Nat) :
    (wire ps).take n = wire (arrived ps n) ++ started ps n := by
  induction ps generalizing n with
  | nil => simp [wire, arrived, started]
  | cons p ps ih =>
    rw [wire_cons, List.take_append, arrived, started]
    split
    · rename_i hn
      rw [Nat.sub_eq_zero_of_le hn.le]
      simp [wire]
    · rename_i hn
      rw [List.take_of_length_le (by omega), ih, wire_cons, List.append_assoc]

/-- Frames that are complete stay complete. -/
theorem arrived_add (ps : List Packet) (n m : Nat) :
    ∃ more, arrived ps (n + m) = arrived ps n ++ more := by
  induction ps generalizing n with
  | nil => exact ⟨[], rfl⟩
  | cons p ps ih =>
    simp only [arrived]
    by_cases hn : n < p.bytes.length
    · rw [if_pos hn]; exact ⟨_, rfl⟩
    · obtain ⟨more, hmore⟩ := ih (n - p.bytes.length)
      refine ⟨more, ?_⟩
      rw [if_neg hn, if_neg (by omega), List.cons_append, ← hmore]
      congr 2
      omega

theorem arrived_all (ps : List Packet) : arrived ps (wire ps).length = ps := by
  induction ps with
  | nil => rfl
  | cons p ps ih =>
    rw [arrived, wire_cons, List.length_append, if_neg (by omega), Nat.add_sub_cancel_left, ih]

theorem started_all (ps : List Packet) : started ps (wire ps).length = [] := by
  induction ps with
  | nil => rfl
  | cons p ps ih =>
    rw [started, wire_cons, List.length_append, if_neg (by omega), Nat.add_sub_cancel_left, ih]

/-- What is there of an incomplete frame is a proper beginning of it. -/
theorem started_eq (ps : List Packet) (n : Nat) :
    started ps n = [] ∨ ∃ p : Packet, ∃ m < p.bytes.length, started ps n = p.bytes.take m := by
  induction ps generalizing n with
  | nil => exact .inl rfl
  | cons p ps ih =>
    rw [started]
    split
    · rename_i hn; exact .inr ⟨p, n, hn, rfl⟩
    · exact ih _

/-! ## Draining frames -/

theorem texts_append (xs ys : List Bytes) : texts (xs ++ ys) = texts xs ++ texts ys := by
  simp [texts]

theorem Packet.texts_append (ps qs : List Packet) :
    Packet.texts (ps ++ qs) = Packet.texts ps ++ Packet.texts qs := by
  simp [Packet.texts, ScanBuffer.texts_append]

/-- An attempt at a frame whose start and length are there. -/
theorem takeFrame_header (p : Packet) (rest : Bytes) :
    takeFrame ⟨frameStart :: UInt8.ofNat p.data.length :: rest⟩ =
      if rest.length < p.data.length then
        (none, ⟨frameStart :: UInt8.ofNat p.data.length :: rest⟩)
      else (some (rest.take p.data.length), ⟨rest.drop p.data.length⟩) := by
  have hlen := p.toNat_length
  have hok : ¬ (UInt8.ofNat p.data.length = 0 ∨ maxFrame < p.data.length) := by
    rintro (h | h)
    · have hpos := p.nonempty
      rw [h] at hlen
      simp only [UInt8.toNat_zero] at hlen
      omega
    · exact absurd p.fits (by omega)
  simp only [takeFrame]
  rw [List.dropWhile_cons_of_neg (by simp)]
  simp only [hlen, if_neg hok]
  simp

/-- A complete frame is found first. -/
theorem attempt_frame (p : Packet) (rest : Bytes) :
    attempt ⟨p.bytes ++ rest⟩ = (some p.data, ⟨rest⟩, []) := by
  have h := takeFrame_header p (p.data ++ rest)
  rw [if_neg (by simp), List.take_left, List.drop_left] at h
  rw [attempt, Packet.bytes, List.cons_append, List.cons_append, h]

/-- The beginning of a frame is no frame. -/
theorem takeFrame_started (ps : List Packet) (n : Nat) :
    takeFrame ⟨started ps n⟩ = (none, ⟨started ps n⟩) := by
  obtain h | ⟨p, m, hm, h⟩ := started_eq ps n
  · rw [h]; rfl
  · rw [h]
    match m with
    | 0 => rfl
    | 1 => rfl
    | m + 2 =>
      rw [Packet.length_bytes] at hm
      rw [Packet.bytes, List.take_succ_cons, List.take_succ_cons, takeFrame_header, if_pos]
      rw [List.length_take]; omega

/-- The beginning of a frame stays if it has no line end. -/
theorem drain_started {ps : List Packet} {n : Nat} (h : ∀ b ∈ started ps n, isSeparator b = false) :
    drain ⟨started ps n⟩ = ([], ⟨started ps n⟩) := by
  have hline : takeLine ⟨started ps n⟩ = (none, ⟨started ps n⟩, []) := by
    rw [takeLine, if_pos (by simpa using h)]
  have hattempt : attempt ⟨started ps n⟩ = (none, ⟨started ps n⟩, []) := by
    rw [attempt, takeFrame_started]; exact hline
  rw [drain_of_missed hattempt, if_neg (lt_irrefl _)]

/-- **Complete frames are handed out**, in order, whatever follows them. -/
theorem drain_wire (ps : List Packet) (rest : Bytes) :
    drain ⟨wire ps ++ rest⟩ = (Packet.texts ps ++ (drain ⟨rest⟩).1, (drain ⟨rest⟩).2) := by
  induction ps with
  | nil => rfl
  | cons p ps ih =>
    rw [wire_cons, List.append_assoc, drain_of_found (attempt_frame p _), ih, ← List.append_assoc]
    exact congrArg (fun ts => (ts ++ (drain ⟨rest⟩).1, (drain ⟨rest⟩).2)) (Packet.texts_append [p] ps).symm

/-! ## Pieces -/

theorem receive_append (as bs : List Bytes) (s : ScanBuffer) :
    receive (as ++ bs) s =
      ((receive as s).1 ++ (receive bs (receive as s).2).1, (receive bs (receive as s).2).2) := by
  induction as generalizing s with
  | nil => rfl
  | cons a as ih => simp only [List.cons_append, receive, ih, List.append_assoc]

/-- One more piece. -/
theorem receive_take_succ (pieces : List Bytes) (s : ScanBuffer) {k : Nat} (hk : k < pieces.length) :
    receive (pieces.take (k + 1)) s =
      ((receive (pieces.take k) s).1 ++ ((receive (pieces.take k) s).2.push pieces[k]).1.drain.1,
        ((receive (pieces.take k) s).2.push pieces[k]).1.drain.2) := by
  rw [List.take_succ_eq_append_getElem hk, receive_append]
  simp [receive]

/-- What is kept between pieces has no line end. -/
theorem receive_no_separator (pieces : List Bytes) {s : ScanBuffer}
    (h : ∀ b ∈ s.bytes, isSeparator b = false) :
    ∀ b ∈ (receive pieces s).2.bytes, isSeparator b = false := by
  induction pieces generalizing s with
  | nil => exact h
  | cons piece pieces ih => exact ih (drain_no_separator _)

/-- A piece that finds room is added as it is. -/
theorem push_fitting {s : ScanBuffer} {piece : Bytes} (hne : piece ≠ [])
    (hroom : piece.length ≤ capacity - s.bytes.length) :
    (s.push piece).1 = ⟨s.bytes ++ piece⟩ := by
  have hpos := List.length_pos_iff.2 hne
  simp only [push]
  rw [if_neg (by omega), List.take_of_length_le hroom]

theorem sent_succ (pieces : List Bytes) {k : Nat} (hk : k < pieces.length) :
    sent pieces (k + 1) = sent pieces k + pieces[k].length := by
  rw [sent, sent, List.take_succ_eq_append_getElem hk, List.flatten_append, List.length_append]
  simp only [List.flatten_singleton]

theorem take_sent (pieces : List Bytes) (k : Nat) :
    pieces.flatten.take (sent pieces k) = (pieces.take k).flatten := by
  have h : pieces.flatten = (pieces.take k).flatten ++ (pieces.drop k).flatten := by
    rw [← List.flatten_append, List.take_append_drop]
  rw [h, sent, List.take_left]

/-- What is kept and the next piece: the frames that get complete, and what is started
then. -/
theorem started_append {ps : List Packet} {pieces : List Bytes} (hcut : pieces.flatten = wire ps)
    {k : Nat} (hk : k < pieces.length) :
    ∃ more, arrived ps (sent pieces (k + 1)) = arrived ps (sent pieces k) ++ more ∧
      started ps (sent pieces k) ++ pieces[k] = wire more ++ started ps (sent pieces (k + 1)) := by
  obtain ⟨more, hmore⟩ := arrived_add ps (sent pieces k) pieces[k].length
  rw [← sent_succ pieces hk] at hmore
  refine ⟨more, hmore, ?_⟩
  have hnow := take_wire ps (sent pieces k)
  have hnext := take_wire ps (sent pieces (k + 1))
  rw [← hcut, take_sent] at hnow hnext
  rw [List.take_succ_eq_append_getElem hk, List.flatten_append, hnow, hmore] at hnext
  simpa [wire] using hnext

/-- While every cut is before the line ends of its frame, each piece is dealt with. -/
theorem inStep_of_cut {ps : List Packet} {pieces : List Bytes} (hcut : pieces.flatten = wire ps)
    (hroom : FindRoom pieces {}) (hclean : CutBeforeSeparators ps pieces) : InStep ps pieces := by
  intro k
  induction k with
  | zero =>
    cases ps with
    | nil => rfl
    | cons p ps => simp [sent, receive, arrived, started, Packet.texts, texts]
  | succ k ih =>
    by_cases hk : k < pieces.length
    · -- what was kept and the next piece make complete frames and the start of another
      obtain ⟨more, harrived, hstarted⟩ := started_append hcut hk
      obtain ⟨hne, hfits⟩ := hroom k hk
      rw [receive_take_succ pieces {} hk, push_fitting hne hfits, ih]
      dsimp only
      rw [hstarted, drain_wire, drain_started (hclean (k + 1)), harrived, Packet.texts_append,
        List.append_nil]
    · -- all pieces have arrived already
      rw [sent, List.take_of_length_le (by omega)]
      rw [sent, List.take_of_length_le (by omega)] at ih
      exact ih

/-- **When frames survive being cut.** After every piece exactly the complete frames
were handed out and exactly the rest is kept, if and only if no piece ends behind a line
end inside a frame. Then all texts are handed out at the end, and nothing is left. -/
theorem inStep_iff (ps : List Packet) (pieces : List Bytes) (hcut : pieces.flatten = wire ps)
    (hroom : FindRoom pieces {}) :
    (InStep ps pieces ↔ CutBeforeSeparators ps pieces) ∧
      (CutBeforeSeparators ps pieces → receive pieces {} = (Packet.texts ps, {})) := by
  refine ⟨⟨fun h k b hb => ?_, inStep_of_cut hcut hroom⟩, fun hclean => ?_⟩
  · -- what is kept was drained, and draining leaves no line end
    have hkept := receive_no_separator (pieces.take k) (s := {}) (by simp)
    rw [h k] at hkept
    exact hkept b hb
  · have h := inStep_of_cut hcut hroom hclean pieces.length
    have hall : sent pieces pieces.length = (wire ps).length := by
      rw [sent, List.take_length, hcut]
    rw [List.take_length, hall, arrived_all, started_all] at h
    exact h

/-- Two frames in four pieces, the first of them with a line feed inside, the second with a
text that is empty. -/
theorem inStep_iff_two_frames :
    let ps : List Packet := [⟨[0x41, 0x0A, 0x42], by decide, by decide⟩, ⟨[0x00, 0x09], by decide, by decide⟩]
    let pieces : List Bytes := [[0x03], [0x03, 0x41], [0x0A, 0x42, 0x03, 0x02, 0x00], [0x09]]
    (pieces.flatten = wire ps ∧ FindRoom pieces {}) ∧
      (InStep ps pieces ↔ CutBeforeSeparators ps pieces) ∧
        (CutBeforeSeparators ps pieces → receive pieces {} = (Packet.texts ps, {})) :=
  ⟨by decide +kernel, inStep_iff _ _ (by decide) (by decide +kernel)⟩

/-- A frame of ten letters; its length octet is a line feed. -/
def tenLetters : Packet :=
  ⟨[0x41, 0x42, 0x43, 0x44, 0x45, 0x46, 0x47, 0x48, 0x49, 0x4A], by decide, by decide⟩

/-- A frame of ten letters that is cut behind its length is lost, and its letters stay
in the buffer. -/
theorem receive_cut_behind_length :
    [[frameStart, 0x0A], tenLetters.data].flatten = wire [tenLetters] ∧
      FindRoom [[frameStart, 0x0A], tenLetters.data] {} ∧
      Packet.texts [tenLetters] = ["ABCDEFGHIJ"] ∧
      receive [[frameStart, 0x0A], tenLetters.data] {} = ([], ⟨tenLetters.data⟩) := by
  decide +kernel

end Turnstile.ScanBuffer

import Turnstile.Proofs.Scan.Pieces

/-!
# Frames behind junk

A scanner may send anything before a frame, lines of text too. What stands before a frame's start
is dropped with the frame, without being looked at.

* `Burst`: a frame and the octets before it.
* `takeFrame_junk`: what stands before the first start makes no difference.
* `drain_bursts`: the frames are handed out, in order, whatever follows them.
* `frames_behind_junk`: **all frames that arrive at once are handed out, and nothing else is**, if
  they find room with all that stands between them.
-/

namespace Turnstile.ScanBuffer

/-- A frame, and octets before it that start none. -/
structure Burst where
  junk : Bytes
  packet : Packet
  quiet : frameStart ∉ junk

namespace Burst

/-- The octets of a burst. -/
def bytes (b : Burst) : Bytes :=
  b.junk ++ b.packet.bytes

/-- The octets of bursts, one after another. -/
def stream (bs : List Burst) : Bytes :=
  bs.flatMap bytes

theorem stream_cons (b : Burst) (bs : List Burst) : stream (b :: bs) = b.bytes ++ stream bs := rfl

end Burst

variable {junk : Bytes}

/-- **What stands before the first start makes no difference** to the attempt at a frame. -/
theorem takeFrame_junk (h : frameStart ∉ junk) (rest : Bytes) :
    takeFrame ⟨junk ++ frameStart :: rest⟩ = takeFrame ⟨frameStart :: rest⟩ := by
  have hjunk : ∀ b ∈ junk, decide (b ≠ frameStart) = true := by
    intro b hb
    rw [decide_eq_true_eq]
    rintro rfl
    exact h hb
  simp only [takeFrame]
  rw [List.dropWhile_append_of_pos hjunk]
  simp

/-- The frame of a burst is found first, and its junk is dropped. -/
theorem attempt_burst (b : Burst) (rest : Bytes) :
    attempt ⟨b.bytes ++ rest⟩ = (some b.packet.data, ⟨rest⟩, []) := by
  have hframe := attempt_frame b.packet rest
  rw [Packet.bytes, List.cons_append] at hframe
  rw [Burst.bytes, Packet.bytes, List.append_assoc, List.cons_append, attempt, takeFrame_junk b.quiet]
  exact hframe

/-- **The frames are handed out**, in order, whatever follows them. -/
theorem drain_bursts (bs : List Burst) (rest : Bytes) :
    drain ⟨Burst.stream bs ++ rest⟩ =
      (Packet.texts (bs.map Burst.packet) ++ (drain ⟨rest⟩).1, (drain ⟨rest⟩).2) := by
  induction bs with
  | nil => rfl
  | cons b bs ih =>
    have htexts : Packet.texts ((b :: bs).map Burst.packet) =
        texts [b.packet.data] ++ Packet.texts (bs.map Burst.packet) :=
      Packet.texts_append [b.packet] (bs.map Burst.packet)
    rw [Burst.stream_cons, List.append_assoc, drain_of_found (attempt_burst b _), ih, htexts,
      List.append_assoc]

theorem drain_nil : drain {} = ([], {}) := by
  have hnone : attempt {} = (none, {}, []) := rfl
  rw [drain_of_missed hnone, if_neg (lt_irrefl _)]

/-- Octets that find room in an empty buffer are added as they are. -/
theorem push_empty {bs : Bytes} (h : bs.length ≤ capacity) : (push {} bs).1 = ⟨bs⟩ := by
  cases bs with
  | nil => rfl
  | cons b bs => exact push_fitting (List.cons_ne_nil b bs) h

/-- **All frames that arrive at once are handed out**, in order, but for those without a text. No
code is made of what stands between them, whatever lines it may hold, and nothing is left over. -/
theorem frames_behind_junk (bs : List Burst) (hroom : (Burst.stream bs).length ≤ capacity) :
    (push {} (Burst.stream bs)).1.drain = (Packet.texts (bs.map Burst.packet), {}) := by
  have hdrain := drain_bursts bs []
  rw [List.append_nil] at hdrain
  have hrest : drain ⟨[]⟩ = ([], {}) := drain_nil
  rw [push_empty hroom, hdrain, hrest, List.append_nil]

/-- A line before a frame with a line feed and a frame's start inside, and a line before a frame
without a text. -/
def lineBeforeFrame : List Burst :=
  [⟨[0x41, 0x42, 0x0D, 0x0A, 0x20], ⟨[0x54, 0x03, 0x0A, 0x31], by decide, by decide⟩, by decide⟩,
    ⟨[0x43, 0x09], ⟨[0x00, 0x44], by decide, by decide⟩, by decide⟩]

theorem frames_behind_junk_lines :
    (Burst.stream lineBeforeFrame).length ≤ capacity ∧
      (push {} (Burst.stream lineBeforeFrame)).1.drain = (["T\x03\n1"], {}) := by
  have hroom : (Burst.stream lineBeforeFrame).length ≤ capacity := by decide
  have htexts : Packet.texts (lineBeforeFrame.map Burst.packet) = ["T\x03\n1"] := by decide +kernel
  exact ⟨hroom, htexts ▸ frames_behind_junk lineBeforeFrame hroom⟩

end Turnstile.ScanBuffer

import Turnstile.Proofs.Scan.Pieces

/-!
# The scanner's buffer at rest

Octets are pushed into the buffer and codes are asked for, in any order.

* `search`: the search for a code as a plain loop, which nothing keeps from going on.
* `search_next`: the loop ends, and its outcome is that of `next`.
* `atRest_of_next`: what is left when no code is found.
* `buffer_bounded_and_at_rest`: **at every moment the buffer is within its capacity,
  the next search ends, and if it finds nothing it leaves no line end and at most the
  beginning of one frame.**
-/

namespace Turnstile.ScanBuffer

/-- What is asked of the buffer. -/
inductive Request where
  | push (more : Bytes)
  | next

/-- The buffer after one request. -/
def serve (s : ScanBuffer) : Request → ScanBuffer
  | .push more => (s.push more).1
  | .next => s.next.2.1

/-- The buffer after requests. -/
def serveAll (s : ScanBuffer) (requests : List Request) : ScanBuffer :=
  requests.foldl serve s

/-- The search for a code as a loop of attempts that is broken off after `n` of them. An
attempt that finds an empty text, or finds nothing but drops something, is followed by
another one whatever it leaves. -/
def search : Nat → ScanBuffer → Option (Option String × ScanBuffer)
  | 0, _ => none
  | n + 1, s =>
    match s.attempt with
    | (some data, after, _) =>
      if toText data ≠ "" then some (some (toText data), after) else search n after
    | (none, after, _) =>
      if after.bytes.length = s.bytes.length then some (none, after) else search n after

/-- Octets in which no code is complete: without a line end, and without a frame's start
unless they are the beginning of a frame. -/
structure AtRest (s : ScanBuffer) : Prop where
  unended : ∀ b ∈ s.bytes, isSeparator b = false
  begun : frameStart ∉ s.bytes ∨ s.bytes.head? = some frameStart ∧
    (s.bytes = [frameStart] ∨ ∃ p : Packet, s.bytes <+: p.bytes ∧ s.bytes ≠ p.bytes)

/-! ## Attempts -/

/-- An attempt at a frame adds nothing. -/
theorem takeFrame_le (s : ScanBuffer) : s.takeFrame.2.bytes.length ≤ s.bytes.length := by
  have hf := takeFrame_cases s
  generalize s.takeFrame = r at hf
  cases hf with
  | absent hs => exact le_rfl
  | lone junk hs => simp only [hs, List.length_append, List.length_cons]; omega
  | badLength junk length rest hs hl =>
    simp only [hs, List.length_append, List.length_cons]; omega
  | unfinished junk length rest hs hl hmax => simp only [hs, List.length_append]; omega
  | complete junk length data rest hs hl =>
    simp only [hs, List.length_append, List.length_cons]; omega

/-- An attempt at a line adds nothing. -/
theorem takeLine_le (s : ScanBuffer) : s.takeLine.2.1.bytes.length ≤ s.bytes.length := by
  have hl := takeLine_cases s
  generalize s.takeLine = r at hl
  cases hl with
  | unended hs => exact le_rfl
  | text line ends rest hs hline hne hends ht => simp only [hs, List.length_append]; omega
  | dropped line ends rest entries hs hline hne hends ht =>
    simp only [hs, List.length_append]; omega

/-- An attempt adds nothing. -/
theorem attempt_le (s : ScanBuffer) : s.attempt.2.1.bytes.length ≤ s.bytes.length := by
  have hf := takeFrame_le s
  unfold attempt
  match hs : s.takeFrame with
  | (some data, after) => rw [hs] at hf; exact hf
  | (none, after) => rw [hs] at hf; exact (takeLine_le after).trans hf

/-- A line is missed for want of a line end, and then nothing is taken. -/
theorem takeLine_kept {s after : ScanBuffer} {dropped : List Entry}
    (h : s.takeLine = (none, after, dropped)) (hlen : ¬ after.bytes.length < s.bytes.length) :
    after = s := by
  have hc := takeLine_cases s
  rw [h] at hc
  cases hc with
  | unended hs => rfl
  | dropped line ends rest _ hs hline hne hends ht =>
    have := List.length_pos_iff.2 hne
    simp only [hs, List.length_append] at hlen
    omega

/-- Fewer octets than a length announces are the beginning of a frame. -/
theorem begins_packet {length : UInt8} {rest : Bytes} (hl : rest.length < length.toNat)
    (hmax : length.toNat ≤ maxFrame) :
    ∃ p : Packet, frameStart :: length :: rest <+: p.bytes ∧ frameStart :: length :: rest ≠ p.bytes := by
  let data := rest ++ List.replicate (length.toNat - rest.length) 0
  have hdata : data.length = length.toNat := by
    simp only [data, List.length_append, List.length_replicate]
    omega
  let p : Packet := ⟨data, by omega, by omega⟩
  have hp : p.bytes = frameStart :: length :: data := by
    simp only [Packet.bytes, p, hdata, UInt8.ofNat_toNat]
  refine ⟨p, ?_, fun heq => ?_⟩
  · rw [hp]
    exact ⟨List.replicate (length.toNat - rest.length) 0, rfl⟩
  · have := congrArg List.length heq
    rw [hp, List.length_cons, List.length_cons, List.length_cons, List.length_cons, hdata] at this
    omega

/-- An attempt that finds nothing and drops nothing leaves at most the beginning of one
frame. -/
theorem atRest_of_attempt {s after : ScanBuffer} {dropped : List Entry}
    (h : s.attempt = (none, after, dropped)) (hlen : ¬ after.bytes.length < s.bytes.length) :
    AtRest after := by
  refine ⟨attempt_stuck h hlen, ?_⟩
  have hf := takeFrame_cases s
  unfold attempt at h
  generalize s.takeFrame = r at hf h
  cases hf with
  | complete junk length data rest hs hl => simp at h
  | absent hs =>
    rw [takeLine_kept h hlen]
    exact .inl hs
  | lone junk hs =>
    have hk := takeLine_kept h (by
      simp only [hs, List.length_append, List.length_cons] at hlen ⊢; omega)
    rw [hk]
    exact .inr ⟨rfl, .inl rfl⟩
  | badLength junk length rest hs hl =>
    -- a start octet with a bad length is dropped
    have hline : takeLine ⟨length :: rest⟩ = (none, after, dropped) := h
    have := takeLine_le ⟨length :: rest⟩
    rw [hline] at this
    simp only [hs, List.length_append, List.length_cons] at hlen this
    omega
  | unfinished junk length rest hs hl hmax =>
    have hk := takeLine_kept h (by
      simp only [hs, List.length_append, List.length_cons] at hlen ⊢; omega)
    rw [hk]
    exact .inr ⟨rfl, .inr (begins_packet hl hmax)⟩

/-! ## The search for a code -/

/-- **The loop ends by itself**, within as many attempts as octets are buffered and one
more, and with the outcome of `next`. -/
theorem search_next : ∀ (n : Nat) (s : ScanBuffer), s.bytes.length < n →
    search n s = some (s.next.1, s.next.2.1) := by
  intro n
  induction n with
  | zero => intro s hn; omega
  | succ n ih =>
    intro s hn
    rw [search]
    match h : s.attempt with
    | (some data, after, dropped) =>
      by_cases ht : toText data = ""
      · have hlt := attempt_lt h
        rw [next_of_skip h (by simpa using ht) hlt]
        simp only [ht, ne_eq, not_true_eq_false, if_false]
        exact ih after (by omega)
      · rw [next_of_text h ht]
        simp [ht]
    | (none, after, dropped) =>
      have hle := attempt_le s
      rw [h] at hle
      by_cases hlen : after.bytes.length = s.bytes.length
      · rw [next_of_stuck h (by omega)]
        simp [hlen]
      · have hlt : after.bytes.length < s.bytes.length := lt_of_le_of_ne hle hlen
        rw [next_of_skip h rfl hlt]
        simp only [hlen, if_false]
        exact ih after (by omega)

/-- **What is left when no code is found**: no line end, and at most the beginning of one
frame. -/
theorem atRest_of_next {s : ScanBuffer} : s.next.1 = none → AtRest s.next.2.1 := by
  fun_induction next s with
  | case1 s found after dropped hattempt text htext => simp
  | case2 s found after dropped hattempt text htext hlt code rest more hnext ih =>
    intro hcode
    rw [hnext] at ih
    exact ih hcode
  | case3 s found after dropped hattempt text htext hlt =>
    intro _
    cases found with
    | none => exact atRest_of_attempt hattempt hlt
    | some data => exact absurd (attempt_lt hattempt) hlt

/-- The beginning of a frame is short. -/
theorem AtRest.plain {s : ScanBuffer} (h : AtRest s) (hlong : maxFrame + 1 < s.bytes.length) :
    ∀ b ∈ s.bytes, b ≠ frameStart ∧ isSeparator b = false := by
  intro b hb
  refine ⟨?_, h.unended b hb⟩
  rintro rfl
  obtain hnone | ⟨-, hlone | ⟨p, hpre, hne⟩⟩ := h.begun
  · exact hnone hb
  · rw [hlone] at hlong
    simp [maxFrame] at hlong
  · -- a proper beginning of a frame lacks one of its octets at least
    have hle := hpre.length_le
    have hlt : s.bytes.length ≠ p.bytes.length := fun heq => hne (hpre.eq_of_length heq)
    have := p.fits
    rw [Packet.length_bytes] at hle hlt
    omega

/-! ## Requests -/

theorem next_le (s : ScanBuffer) : s.next.2.1.bytes.length ≤ s.bytes.length := by
  fun_induction next s with
  | case1 s found after dropped hattempt text htext =>
    have := attempt_le s
    rw [hattempt] at this
    exact this
  | case2 s found after dropped hattempt text htext hlt code rest more hnext ih =>
    rw [hnext] at ih
    exact ih.trans hlt.le
  | case3 s found after dropped hattempt text htext hlt =>
    have := attempt_le s
    rw [hattempt] at this
    exact this

theorem push_bounded {s : ScanBuffer} (h : s.bytes.length ≤ capacity) (more : Bytes) :
    (s.push more).1.bytes.length ≤ capacity := by
  unfold push
  dsimp only
  split
  · exact Nat.zero_le _
  · simp only [List.length_append, List.length_take]
    omega

theorem serve_bounded {s : ScanBuffer} (h : s.bytes.length ≤ capacity) (r : Request) :
    (s.serve r).bytes.length ≤ capacity := by
  cases r with
  | push more => exact push_bounded h more
  | next => exact (next_le s).trans h

theorem serveAll_bounded {s : ScanBuffer} (h : s.bytes.length ≤ capacity) (rs : List Request) :
    (s.serveAll rs).bytes.length ≤ capacity := by
  induction rs generalizing s with
  | nil => exact h
  | cons r rs ih => exact ih (serve_bounded h r)

/-- **The buffer after any requests.** It is within its capacity; the search for a code
ends, within as many attempts as octets are buffered and one more; and if no code is
found, what is left has no line end and is at most the beginning of one frame, so that
more octets than such a beginning has hold neither a line end nor a frame's start. -/
theorem buffer_bounded_and_at_rest (requests : List Request) :
    let s := serveAll {} requests
    s.bytes.length ≤ capacity ∧
      search (s.bytes.length + 1) s = some (s.next.1, s.next.2.1) ∧
      (s.next.1 = none → AtRest s.next.2.1 ∧
        (251 < s.next.2.1.bytes.length →
          ∀ b ∈ s.next.2.1.bytes, b ≠ frameStart ∧ isSeparator b = false)) := by
  intro s
  have hbounded : s.bytes.length ≤ capacity := serveAll_bounded (Nat.zero_le _) requests
  refine ⟨hbounded, search_next _ s (Nat.lt_succ_self _), fun hnone => ?_⟩
  have hrest := atRest_of_next hnone
  exact ⟨hrest, fun hlong => hrest.plain (by simpa [maxFrame] using hlong)⟩

end Turnstile.ScanBuffer

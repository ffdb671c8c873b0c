import Mathlib.Data.List.TakeWhile
import Turnstile.Controller.Scanning

/-!
# Draining the scanner's buffer

After octets were added the buffer is asked for codes until it has none left.

* `takeFrame_cases`, `takeLine_cases`: all that an attempt at either form can do.
* `drain_of_found`, `drain_of_missed`: draining is one attempt, then draining the rest.
* `drain_no_separator`: a drained buffer holds no line end.
-/

namespace Turnstile.ScanBuffer

/-- The codes that a buffer holds, and what is left of it without them. -/
def drain (s : ScanBuffer) : List String × ScanBuffer :=
  (s.codes.1.map Prod.fst, s.codes.2.1)

/-! ## One attempt -/

theorem dropWhile_eq_cons {p : UInt8 → Bool} {l : Bytes} (h : ∃ b ∈ l, p b = false) :
    ∃ b rest, l.dropWhile p = b :: rest ∧ p b = false := by
  obtain ⟨b, hb, hp⟩ := h
  match hd : l.dropWhile p with
  | [] =>
    have := List.dropWhile_eq_nil_iff.1 hd b hb
    simp_all
  | c :: rest =>
    have hhead := List.head?_dropWhile_not p l
    simp only [hd, List.head?_cons] at hhead
    exact ⟨c, rest, rfl, hhead⟩

/-- What an attempt at a frame can come to. -/
inductive FrameAttempt (bs : Bytes) : Option Bytes × ScanBuffer → Prop
  | absent (h : frameStart ∉ bs) : FrameAttempt bs (none, ⟨bs⟩)
  | lone (junk : Bytes) (h : bs = junk ++ [frameStart]) : FrameAttempt bs (none, ⟨[frameStart]⟩)
  | badLength (junk : Bytes) (length : UInt8) (rest : Bytes)
      (h : bs = junk ++ frameStart :: length :: rest) (hl : length = 0 ∨ maxFrame < length.toNat) :
      FrameAttempt bs (none, ⟨length :: rest⟩)
  | unfinished (junk : Bytes) (length : UInt8) (rest : Bytes)
      (h : bs = junk ++ frameStart :: length :: rest) (hl : rest.length < length.toNat)
      (hmax : length.toNat ≤ maxFrame) : FrameAttempt bs (none, ⟨frameStart :: length :: rest⟩)
  | complete (junk : Bytes) (length : UInt8) (data rest : Bytes)
      (h : bs = junk ++ frameStart :: length :: (data ++ rest)) (hl : data.length = length.toNat) :
      FrameAttempt bs (some data, ⟨rest⟩)

theorem takeFrame_cases (s : ScanBuffer) : FrameAttempt s.bytes s.takeFrame := by
  unfold takeFrame
  split
  · rename_i h
    exact .absent (by simpa using h)
  · rename_i h
    -- what precedes the first start octet is junk; then it depends on what follows the octet
    obtain ⟨b, bs, hbs, hb⟩ := dropWhile_eq_cons (p := fun b => decide (b ≠ frameStart))
      (l := s.bytes) ⟨frameStart, by simpa using h, by simp⟩
    obtain rfl : b = frameStart := by simpa using hb
    have hs := (List.takeWhile_append_dropWhile (p := fun b => decide (b ≠ frameStart))
      (l := s.bytes)).symm
    rw [hbs] at hs ⊢
    match bs with
    | [] => exact .lone _ hs
    | length :: rest =>
      dsimp only
      split_ifs with hbad hshort
      · exact .badLength _ length rest hs hbad
      · exact .unfinished _ length rest hs hshort (Nat.le_of_not_lt fun h => hbad (.inr h))
      · refine .complete (s.bytes.takeWhile fun b => decide (b ≠ frameStart)) length
          (rest.take length.toNat) (rest.drop length.toNat) ?_ ?_
        · rw [List.take_append_drop]; exact hs
        · rw [List.length_take]; omega

/-- What an attempt at a line can come to. -/
inductive LineAttempt (bs : Bytes) : Option Bytes × ScanBuffer × List Entry → Prop
  | unended (h : ∀ b ∈ bs, isSeparator b = false) : LineAttempt bs (none, ⟨bs⟩, [])
  | text (line ends rest : Bytes) (h : bs = line ++ (ends ++ rest))
      (hline : ∀ b ∈ line, isSeparator b = false) (hne : ends ≠ [])
      (hends : ∀ b ∈ ends, isSeparator b = true) (ht : isText (trimLine line) = true) :
      LineAttempt bs (some (trimLine line), ⟨rest⟩, [])
  | dropped (line ends rest : Bytes) (entries : List Entry) (h : bs = line ++ (ends ++ rest))
      (hline : ∀ b ∈ line, isSeparator b = false) (hne : ends ≠ [])
      (hends : ∀ b ∈ ends, isSeparator b = true) (ht : ¬ isText (trimLine line) = true) :
      LineAttempt bs (none, ⟨rest⟩, entries)

theorem takeLine_cases (s : ScanBuffer) : LineAttempt s.bytes s.takeLine := by
  unfold takeLine
  split
  · rename_i h
    exact .unended (by simpa using h)
  · rename_i h
    -- the octets fall into the line, all the separators after it, and the rest
    obtain ⟨b, bs, hbs, hb⟩ := dropWhile_eq_cons (p := (!isSeparator ·)) (l := s.bytes)
      (by simpa using h)
    have hs := (List.takeWhile_append_dropWhile (p := (!isSeparator ·)) (l := s.bytes)).symm
    have hends := (List.takeWhile_append_dropWhile (p := isSeparator) (l := b :: bs)).symm
    have hne : (b :: bs).takeWhile isSeparator ≠ [] := by
      rw [List.takeWhile_cons_of_pos (by simpa using hb)]; simp
    have hsep : ∀ c ∈ (b :: bs).takeWhile isSeparator, isSeparator c = true := fun c hc =>
      List.mem_takeWhile_imp hc
    have hline : ∀ c ∈ s.bytes.takeWhile (!isSeparator ·), isSeparator c = false := fun c hc => by
      simpa using List.mem_takeWhile_imp hc
    rw [hbs] at hs ⊢
    rw [hends] at hs
    dsimp only
    split
    · rename_i ht; exact .text _ _ _ hs hline hne hsep ht
    · rename_i ht; exact .dropped _ _ _ _ hs hline hne hsep ht

theorem takeLine_lt {s after : ScanBuffer} {data : Bytes} {dropped : List Entry}
    (h : s.takeLine = (some data, after, dropped)) : after.bytes.length < s.bytes.length := by
  have hc := takeLine_cases s
  rw [h] at hc
  cases hc with
  | text line ends rest hs hline hne hends ht =>
    have := List.length_pos_iff.2 hne
    simp only [hs, List.length_append]
    omega

/-- A line is missed for want of a line end, or dropped with its line end. -/
theorem takeLine_stuck {s after : ScanBuffer} {dropped : List Entry}
    (h : s.takeLine = (none, after, dropped)) (hlen : ¬ after.bytes.length < s.bytes.length) :
    ∀ b ∈ after.bytes, isSeparator b = false := by
  have hc := takeLine_cases s
  rw [h] at hc
  cases hc with
  | unended hs => exact hs
  | dropped line ends rest _ hs hline hne hends ht =>
    have := List.length_pos_iff.2 hne
    simp only [hs, List.length_append] at hlen
    omega

/-- An attempt that finds a code leaves less than there was. -/
theorem attempt_lt {s after : ScanBuffer} {data : Bytes} {dropped : List Entry}
    (h : s.attempt = (some data, after, dropped)) : after.bytes.length < s.bytes.length := by
  have hf := takeFrame_cases s
  unfold attempt at h
  generalize s.takeFrame = r at hf h
  cases hf with
  | complete junk length data' rest hs hl =>
    simp only [Prod.mk.injEq] at h
    obtain ⟨-, rfl, -⟩ := h
    simp only [hs, List.length_append, List.length_cons]
    omega
  | absent hs => exact takeLine_lt h
  | lone junk hs =>
    have := takeLine_lt h
    simp only [hs, List.length_append, List.length_cons] at this ⊢
    omega
  | badLength junk length rest hs hl =>
    have := takeLine_lt h
    simp only [hs, List.length_append, List.length_cons] at this ⊢
    omega
  | unfinished junk length rest hs hl hmax =>
    have := takeLine_lt h
    simp only [hs, List.length_append, List.length_cons] at this ⊢
    omega

/-- An attempt that finds nothing and drops nothing was made on octets without a line
end. -/
theorem attempt_stuck {s after : ScanBuffer} {dropped : List Entry}
    (h : s.attempt = (none, after, dropped)) (hlen : ¬ after.bytes.length < s.bytes.length) :
    ∀ b ∈ after.bytes, isSeparator b = false := by
  have hf := takeFrame_cases s
  unfold attempt at h
  generalize s.takeFrame = r at hf h
  cases hf with
  | complete junk length data' rest hs hl => simp at h
  | absent hs => exact takeLine_stuck h hlen
  | lone junk hs =>
    refine takeLine_stuck h ?_
    simp only [hs, List.length_append, List.length_cons] at hlen ⊢
    omega
  | badLength junk length rest hs hl =>
    refine takeLine_stuck h ?_
    simp only [hs, List.length_append, List.length_cons] at hlen ⊢
    omega
  | unfinished junk length rest hs hl hmax =>
    refine takeLine_stuck h ?_
    simp only [hs, List.length_append, List.length_cons] at hlen ⊢
    omega

/-! ## The next code -/

theorem next_of_text {s after : ScanBuffer} {data : Bytes} {dropped : List Entry}
    (h : s.attempt = (some data, after, dropped)) (ht : toText data ≠ "") :
    s.next = (some (toText data), after, dropped) := by
  rw [next, h]
  simp [ht]

theorem next_of_skip {s after : ScanBuffer} {found : Option Bytes} {dropped : List Entry}
    (h : s.attempt = (found, after, dropped)) (ht : (found.map toText).getD "" = "")
    (hlt : after.bytes.length < s.bytes.length) :
    s.next = (after.next.1, after.next.2.1, dropped ++ after.next.2.2) := by
  rw [next, h]
  simp [ht, hlt]

theorem next_of_stuck {s after : ScanBuffer} {dropped : List Entry}
    (h : s.attempt = (none, after, dropped)) (hlt : ¬ after.bytes.length < s.bytes.length) :
    s.next = (none, after, dropped) := by
  rw [next, h]
  simp [hlt]

/-- A code takes octets from the buffer. -/
theorem next_lt {s : ScanBuffer} : ∀ {code : String} {rest : ScanBuffer} {dropped : List Entry},
    s.next = (some code, rest, dropped) → rest.bytes.length < s.bytes.length := by
  fun_induction next s with
  | case1 s found after dropped hattempt text =>
    rename_i htext
    intro code rest _ h
    simp only [Prod.mk.injEq] at h
    obtain ⟨-, rfl, -⟩ := h
    cases found with
    | none => exact absurd rfl htext
    | some data => exact attempt_lt hattempt
  | case2 s found after dropped hattempt text htext hlt code rest more hnext =>
    rename_i ih
    intro code' rest' _ h
    simp only [Prod.mk.injEq] at h
    obtain ⟨rfl, rfl, -⟩ := h
    exact lt_trans (ih hnext) hlt
  | case3 s found after dropped hattempt text htext => simp

/-- When no code is left, neither is a line end. -/
theorem next_none {s : ScanBuffer} : ∀ {rest : ScanBuffer} {dropped : List Entry},
    s.next = (none, rest, dropped) → ∀ b ∈ rest.bytes, isSeparator b = false := by
  fun_induction next s with
  | case1 s found after dropped hattempt text => simp
  | case2 s found after dropped hattempt text htext hlt code rest more hnext =>
    rename_i ih
    intro rest' _ h
    simp only [Prod.mk.injEq] at h
    obtain ⟨rfl, rfl, -⟩ := h
    exact ih hnext
  | case3 s found after dropped hattempt text htext =>
    rename_i hlt
    intro rest _ h
    simp only [Prod.mk.injEq, true_and] at h
    obtain ⟨rfl, -⟩ := h
    cases found with
    | none => exact attempt_stuck hattempt hlt
    | some data => exact absurd (attempt_lt hattempt) hlt

/-! ## All codes -/

theorem codes_of_some {s rest : ScanBuffer} {code : String} {dropped : List Entry}
    (h : s.next = (some code, rest, dropped)) :
    s.codes = ((code, dropped) :: rest.codes.1, rest.codes.2.1, rest.codes.2.2) := by
  rw [codes, h]
  simp [next_lt h]

theorem codes_of_none {s rest : ScanBuffer} {dropped : List Entry}
    (h : s.next = (none, rest, dropped)) : s.codes = ([], rest, dropped) := by
  rw [codes, h]

/-- The texts of codes, those that are empty left out. -/
def texts (codes : List Bytes) : List String :=
  (codes.map toText).filter (· ≠ "")

/-- A skipped attempt does not show in what is drained. -/
theorem drain_of_skip {s after : ScanBuffer} {found : Option Bytes} {dropped : List Entry}
    (h : s.attempt = (found, after, dropped)) (ht : (found.map toText).getD "" = "")
    (hlt : after.bytes.length < s.bytes.length) : s.drain = after.drain := by
  have hs := next_of_skip h ht hlt
  match hn : after.next with
  | (none, rest, more) =>
    rw [hn] at hs
    simp only [drain, codes_of_none hs, codes_of_none hn]
  | (some code, rest, more) =>
    rw [hn] at hs
    simp only [drain, codes_of_some hs, codes_of_some hn, List.map_cons]

/-- Draining past a code that is found. -/
theorem drain_of_found {s after : ScanBuffer} {data : Bytes} {dropped : List Entry}
    (h : s.attempt = (some data, after, dropped)) :
    s.drain = (texts [data] ++ after.drain.1, after.drain.2) := by
  by_cases ht : toText data = ""
  · rw [drain_of_skip h (by simpa using ht) (attempt_lt h)]
    simp [texts, ht]
  · simp only [drain, codes_of_some (next_of_text h ht), List.map_cons]
    simp [texts, ht]

/-- Draining past an attempt that finds nothing. -/
theorem drain_of_missed {s after : ScanBuffer} {dropped : List Entry}
    (h : s.attempt = (none, after, dropped)) :
    s.drain = if after.bytes.length < s.bytes.length then after.drain else ([], after) := by
  split
  · rename_i hlt; exact drain_of_skip h rfl hlt
  · rename_i hlt; simp only [drain, codes_of_none (next_of_stuck h hlt), List.map_nil]

/-- **A drained buffer holds no line end.** -/
theorem drain_no_separator (s : ScanBuffer) : ∀ b ∈ s.drain.2.bytes, isSeparator b = false := by
  unfold drain
  fun_induction codes s with
  | case1 s rest dropped hnext => exact next_none hnext
  | case2 s code rest dropped hnext hlt more rest' last hcodes ih => rw [hcodes] at ih; exact ih
  | case3 s code rest dropped hnext hlt => exact absurd (next_lt hnext) hlt

end Turnstile.ScanBuffer

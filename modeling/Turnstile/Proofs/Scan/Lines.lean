import Mathlib.Data.List.DropRight
import Turnstile.Proofs.Scan.Pieces

/-!
# Lines that arrive in pieces

What a scanner sends without frames is a stream of lines, and a serial port cuts it where it likes.

* `cutLines`, `lines`, `unended`: a stream cut at its line ends.
* `lineCodes`: the codes in lines. Spaces at the end of a line do not count, and four of five octets
  of it must be printable.
* `lineTexts_append`: what was handed out stays, and what is kept is all that the rest needs.
* `drain_lines`: a buffer without a frame's start is drained of its lines.
* `findRoom_of_shortLines`: pieces of short lines find room in the buffer.
* `lines_received`: **however a stream is cut, the codes in its lines are handed out, and what stands
  behind its last line end is kept.**
-/

namespace Turnstile.ScanBuffer

/-- The octets that end a line: carriage return, line feed and tabulator. -/
def lineEnds : List UInt8 :=
  [0x0D, 0x0A, 0x09]

/-- A stream cut at every line end. -/
def cutLines (stream : Bytes) : List Bytes :=
  stream.splitOnP (· ∈ lineEnds)

/-- The lines of a stream: all that a line end stands behind. -/
def lines (stream : Bytes) : List Bytes :=
  (cutLines stream).dropLast

/-- What stands behind the last line end of a stream. -/
def unended (stream : Bytes) : Bytes :=
  (cutLines stream).getLast (List.splitOnP_ne_nil _ stream)

/-- Whether there are octets, and at least four of five are printable. -/
def Legible (line : Bytes) : Prop :=
  0 < line.length ∧ 4 * line.length ≤ 5 * line.countP fun b => 0x20 ≤ b.toNat ∧ b.toNat ≤ 0x7E

instance : DecidablePred Legible := fun line =>
  inferInstanceAs (Decidable (0 < line.length ∧
    4 * line.length ≤ 5 * line.countP fun b => 0x20 ≤ b.toNat ∧ b.toNat ≤ 0x7E))

/-- A line without the spaces at its end. -/
def withoutSpaces (line : Bytes) : Bytes :=
  line.rdropWhile (· = 0x20)

/-- The codes in lines, those that are not legible or have no text left out. -/
def lineCodes (ls : List Bytes) : List String :=
  texts ((ls.map withoutSpaces).filter Legible)

/-- The codes in the lines of a stream. -/
def lineTexts (stream : Bytes) : List String :=
  lineCodes (lines stream)

variable {line ends rest stream : Bytes}

/-! ## One line -/

theorem isSeparator_iff (b : UInt8) : isSeparator b = true ↔ b ∈ lineEnds := by
  simp only [isSeparator, lineEnds, Bool.or_eq_true, decide_eq_true_eq, List.mem_cons,
    List.not_mem_nil, or_false]
  tauto

theorem not_mem_lineEnds {b : UInt8} (h : isSeparator b = false) : b ∉ lineEnds := by
  rw [← isSeparator_iff, h]
  exact Bool.false_ne_true

theorem dropWhile_congr {p q : UInt8 → Bool} {bs : Bytes} (h : ∀ b ∈ bs, p b = q b) :
    bs.dropWhile p = bs.dropWhile q := by
  induction bs with
  | nil => rfl
  | cons b bs ih =>
    rw [List.dropWhile_cons, List.dropWhile_cons, h b List.mem_cons_self,
      ih fun c hc => h c (List.mem_cons_of_mem b hc)]

/-- In a line there are no line ends to trim. -/
theorem trimLine_eq (hline : ∀ b ∈ line, isSeparator b = false) : trimLine line = withoutSpaces line := by
  have hsame : ∀ b ∈ line.reverse, (isSeparator b || decide (b = 0x20)) = decide (b = 0x20) := by
    intro b hb
    rw [hline b (List.mem_reverse.1 hb), Bool.false_or]
  rw [trimLine, dropWhile_congr hsame]
  rfl

/-- The share of printable octets, as a percentage that is rounded down or as it is. -/
theorem isText_iff (line : Bytes) : isText line = true ↔ Legible line := by
  have hprintable : printable line = line.countP fun b => 0x20 ≤ b.toNat ∧ b.toNat ≤ 0x7E := by
    refine List.countP_congr fun b _ => ?_
    rw [isPrintable, Bool.and_eq_true, decide_eq_true_eq, decide_eq_true_eq, decide_eq_true_eq,
      UInt8.le_iff_toNat_le, UInt8.le_iff_toNat_le]
    rfl
  rw [isText, Legible, ← hprintable, Bool.and_eq_true, decide_eq_true_eq, Bool.not_eq_true',
    List.isEmpty_eq_false_iff, ← List.length_pos_iff, minPrintablePercent]
  refine and_congr_right fun hpos => ?_
  rw [Nat.le_div_iff_mul_le hpos]
  omega

theorem lineCodes_append (as bs : List Bytes) : lineCodes (as ++ bs) = lineCodes as ++ lineCodes bs := by
  rw [lineCodes, List.map_append, List.filter_append, texts_append]
  rfl

theorem lineCodes_empty : lineCodes [[]] = [] := by decide

/-- A line makes a code if it is text. -/
theorem lineCodes_line (hline : ∀ b ∈ line, isSeparator b = false) :
    lineCodes [line] = if isText (trimLine line) then texts [trimLine line] else [] := by
  have hlegible := isText_iff (withoutSpaces line)
  rw [trimLine_eq hline]
  by_cases ht : isText (withoutSpaces line) = true
  · simp [lineCodes, ht, hlegible.1 ht]
  · have hdropped : ¬ Legible (withoutSpaces line) := fun h => ht (hlegible.2 h)
    simp [lineCodes, ht, hdropped, texts]

/-! ## Cutting a stream -/

theorem cutLines_of_line (hline : ∀ b ∈ line, isSeparator b = false) : cutLines line = [line] :=
  List.splitOnP_eq_singleton fun b hb => decide_eq_false (not_mem_lineEnds (hline b hb))

/-- **A stream is cut at any of its line ends.** -/
theorem cutLines_append {sep : UInt8} (hsep : isSeparator sep = true) (front back : Bytes) :
    cutLines (front ++ sep :: back) = cutLines front ++ cutLines back :=
  List.splitOnP_append_cons front back (decide_eq_true ((isSeparator_iff sep).1 hsep))

theorem lineTexts_of_line (hline : ∀ b ∈ line, isSeparator b = false) : lineTexts line = [] := by
  rw [lineTexts, lines, cutLines_of_line hline]
  rfl

theorem unended_of_line (hline : ∀ b ∈ line, isSeparator b = false) : unended line = line := by
  simp only [unended, cutLines_of_line hline, List.getLast_singleton]

theorem lineTexts_append_end {sep : UInt8} (hsep : isSeparator sep = true) (front back : Bytes) :
    lineTexts (front ++ sep :: back) = lineCodes (cutLines front) ++ lineTexts back := by
  have hback : cutLines back ≠ [] := List.splitOnP_ne_nil _ back
  rw [lineTexts, lines, cutLines_append hsep, List.dropLast_append_of_ne_nil hback, lineCodes_append]
  rfl

theorem unended_append_end {sep : UInt8} (hsep : isSeparator sep = true) (front back : Bytes) :
    unended (front ++ sep :: back) = unended back := by
  simp only [unended, cutLines_append hsep]
  exact List.getLast_append_of_ne_nil _ (List.splitOnP_ne_nil _ back)

/-- Line ends without octets between them make no codes. -/
theorem lines_behind_ends (hends : ∀ b ∈ ends, isSeparator b = true) (rest : Bytes) :
    lineTexts (ends ++ rest) = lineTexts rest ∧ unended (ends ++ rest) = unended rest := by
  induction ends with
  | nil => exact ⟨rfl, rfl⟩
  | cons sep ends ih =>
    have hsep : isSeparator sep = true := hends sep List.mem_cons_self
    obtain ⟨htexts, hunended⟩ := ih fun b hb => hends b (List.mem_cons_of_mem sep hb)
    have hcodes := lineTexts_append_end hsep [] (ends ++ rest)
    have hlast := unended_append_end hsep [] (ends ++ rest)
    have hnone : lineCodes (cutLines []) = [] := lineCodes_empty
    rw [hnone, List.nil_append, List.nil_append, htexts] at hcodes
    rw [List.nil_append, hunended] at hlast
    exact ⟨hcodes, hlast⟩

/-- The first line of a stream, with all the line ends behind it. -/
theorem lines_cons (hline : ∀ b ∈ line, isSeparator b = false) (hne : ends ≠ [])
    (hends : ∀ b ∈ ends, isSeparator b = true) (rest : Bytes) :
    lineTexts (line ++ (ends ++ rest)) = lineCodes [line] ++ lineTexts rest ∧
      unended (line ++ (ends ++ rest)) = unended rest := by
  obtain ⟨sep, ends, rfl⟩ := List.exists_cons_of_ne_nil hne
  have hsep : isSeparator sep = true := hends sep List.mem_cons_self
  have htail : ∀ b ∈ ends, isSeparator b = true := fun b hb => hends b (List.mem_cons_of_mem sep hb)
  obtain ⟨htexts, hunended⟩ := lines_behind_ends htail rest
  constructor
  · rw [List.cons_append, lineTexts_append_end hsep, cutLines_of_line hline, htexts]
  · rw [List.cons_append, unended_append_end hsep, hunended]

/-- A stream up to its last line end, and what stands behind that. -/
theorem exists_last_end (stream : Bytes) : ∃ last, (∀ b ∈ last, isSeparator b = false) ∧
    (stream = last ∨ ∃ front sep, isSeparator sep = true ∧ stream = front ++ sep :: last) := by
  induction stream using List.reverseRecOn with
  | nil => exact ⟨[], by simp, .inl rfl⟩
  | append_singleton stream b ih =>
    by_cases hb : isSeparator b = true
    · exact ⟨[], by simp, .inr ⟨stream, b, hb, rfl⟩⟩
    · obtain ⟨last, hlast, hstream⟩ := ih
      have hmore : ∀ c ∈ last ++ [b], isSeparator c = false := by
        intro c hc
        rcases List.mem_append.1 hc with hc | hc
        · exact hlast c hc
        · rw [List.mem_singleton.1 hc]
          exact Bool.eq_false_iff.2 hb
      refine ⟨last ++ [b], hmore, ?_⟩
      rcases hstream with rfl | ⟨front, sep, hsep, rfl⟩
      · exact .inl rfl
      · exact .inr ⟨front, sep, hsep, by simp⟩

/-- **What was handed out stays**, and what is kept is all that is needed for what follows. -/
theorem lineTexts_append (stream more : Bytes) :
    lineTexts (stream ++ more) = lineTexts stream ++ lineTexts (unended stream ++ more) ∧
      unended (stream ++ more) = unended (unended stream ++ more) := by
  obtain ⟨last, hlast, rfl | ⟨front, sep, hsep, rfl⟩⟩ := exists_last_end stream
  · rw [lineTexts_of_line hlast, unended_of_line hlast]
    exact ⟨rfl, rfl⟩
  · rw [lineTexts_append_end hsep, unended_append_end hsep, lineTexts_of_line hlast,
      unended_of_line hlast, List.append_assoc, List.cons_append, lineTexts_append_end hsep,
      unended_append_end hsep, List.append_nil]
    exact ⟨rfl, rfl⟩

/-- What stands behind the last line end is part of the stream and has none itself. -/
theorem mem_unended {b : UInt8} (h : b ∈ unended stream) : b ∈ stream ∧ isSeparator b = false := by
  obtain ⟨last, hlast, rfl | ⟨front, sep, hsep, rfl⟩⟩ := exists_last_end stream
  · rw [unended_of_line hlast] at h
    exact ⟨h, hlast b h⟩
  · rw [unended_append_end hsep, unended_of_line hlast] at h
    exact ⟨List.mem_append_right _ (List.mem_cons_of_mem sep h), hlast b h⟩

theorem unended_suffix (stream : Bytes) : unended stream <:+ stream := by
  obtain ⟨last, hlast, rfl | ⟨front, sep, hsep, rfl⟩⟩ := exists_last_end stream
  · exact ⟨[], by rw [unended_of_line hlast, List.nil_append]⟩
  · rw [unended_append_end hsep, unended_of_line hlast]
    exact ⟨front ++ [sep], by simp⟩

/-! ## Draining -/

/-- Without a frame's start only a line can be found. -/
theorem attempt_plain {s : ScanBuffer} (h : frameStart ∉ s.bytes) : s.attempt = s.takeLine := by
  have hnone : s.takeFrame = (none, s) := by
    rw [takeFrame, if_pos (by simpa using h)]
  rw [attempt, hnone]

/-- What draining starts with: there is no line end, or the first line and all the line ends behind
it are taken. -/
theorem drain_first (h : frameStart ∉ stream) :
    ((∀ b ∈ stream, isSeparator b = false) ∧ drain ⟨stream⟩ = ([], ⟨stream⟩)) ∨
    ∃ line ends rest, stream = line ++ (ends ++ rest) ∧ (∀ b ∈ line, isSeparator b = false) ∧
      ends ≠ [] ∧ (∀ b ∈ ends, isSeparator b = true) ∧
      drain ⟨stream⟩ = (lineCodes [line] ++ (drain ⟨rest⟩).1, (drain ⟨rest⟩).2) := by
  have hattempt : attempt ⟨stream⟩ = takeLine ⟨stream⟩ := attempt_plain h
  have hcases := takeLine_cases ⟨stream⟩
  generalize takeLine ⟨stream⟩ = outcome at hattempt hcases
  cases hcases with
  | unended hline =>
    rw [drain_of_missed hattempt, if_neg (lt_irrefl _)]
    exact .inl ⟨hline, rfl⟩
  | text line ends rest hs hline hne hends ht =>
    refine .inr ⟨line, ends, rest, hs, hline, hne, hends, ?_⟩
    rw [drain_of_found hattempt, lineCodes_line hline, if_pos ht]
  | dropped line ends rest entries hs hline hne hends ht =>
    have hpos := List.length_pos_iff.2 hne
    have hshorter : rest.length < stream.length := by
      have hlength := congrArg List.length hs
      simp only [List.length_append] at hlength
      omega
    refine .inr ⟨line, ends, rest, hs, hline, hne, hends, ?_⟩
    rw [drain_of_missed hattempt, if_pos hshorter, lineCodes_line hline, if_neg ht, List.nil_append]

/-- **A buffer without a frame's start is drained of its lines**: their codes are handed out, and what
stands behind the last line end is left. -/
theorem drain_lines (stream : Bytes) (h : frameStart ∉ stream) :
    drain ⟨stream⟩ = (lineTexts stream, ⟨unended stream⟩) := by
  induction hn : stream.length using Nat.strong_induction_on generalizing stream with
  | _ n ih =>
    rcases drain_first h with ⟨hline, hdrain⟩ | ⟨line, ends, rest, rfl, hline, hne, hends, hdrain⟩
    · rw [hdrain, lineTexts_of_line hline, unended_of_line hline]
    · have hpos := List.length_pos_iff.2 hne
      have hshorter : rest.length < n := by
        rw [← hn, List.length_append, List.length_append]
        omega
      have hplain : frameStart ∉ rest := fun hmem => h (by simp [hmem])
      obtain ⟨htexts, hunended⟩ := lines_cons hline hne hends rest
      rw [hdrain, ih rest.length hshorter rest hplain rfl, htexts, hunended]

/-! ## Pieces -/

theorem FindRoom.cons {piece : Bytes} {pieces : List Bytes} {s : ScanBuffer}
    (h : FindRoom (piece :: pieces) s) :
    piece ≠ [] ∧ piece.length ≤ capacity - s.bytes.length ∧
      FindRoom pieces (s.push piece).1.drain.2 := by
  have hfirst := h 0 (Nat.zero_lt_succ _)
  refine ⟨hfirst.1, hfirst.2, fun k hk => ?_⟩
  exact h (k + 1) (Nat.succ_lt_succ hk)

/-- Pieces that arrive behind the beginning of a line. -/
theorem receive_lines {pieces : List Bytes} {s : ScanBuffer}
    (hline : ∀ b ∈ s.bytes, isSeparator b = false)
    (hplain : frameStart ∉ s.bytes ++ pieces.flatten) (hroom : FindRoom pieces s) :
    receive pieces s =
      (lineTexts (s.bytes ++ pieces.flatten), ⟨unended (s.bytes ++ pieces.flatten)⟩) := by
  induction pieces generalizing s with
  | nil =>
    rw [List.flatten_nil, List.append_nil, lineTexts_of_line hline, unended_of_line hline]
    rfl
  | cons piece pieces ih =>
    obtain ⟨hne, hfits, hlater⟩ := hroom.cons
    rw [List.flatten_cons, ← List.append_assoc] at hplain ⊢
    have hnow : (s.push piece).1.drain =
        (lineTexts (s.bytes ++ piece), ⟨unended (s.bytes ++ piece)⟩) := by
      rw [push_fitting hne hfits]
      exact drain_lines _ fun hmem => hplain (List.mem_append_left _ hmem)
    rw [hnow] at hlater
    -- what is kept has neither a line end nor a frame's start
    have hkept : frameStart ∉ unended (s.bytes ++ piece) ++ pieces.flatten := by
      intro hmem
      rcases List.mem_append.1 hmem with hmem | hmem
      · exact hplain (List.mem_append_left _ (mem_unended hmem).1)
      · exact hplain (List.mem_append_right _ hmem)
    obtain ⟨htexts, hunended⟩ := lineTexts_append (s.bytes ++ piece) pieces.flatten
    have hrest := ih (s := ⟨unended (s.bytes ++ piece)⟩) (fun b hb => (mem_unended hb).2) hkept hlater
    rw [receive, hnow, htexts, hunended]
    dsimp only
    rw [hrest]

/-- One more piece that finds room. -/
theorem FindRoom.snoc {pieces : List Bytes} {piece : Bytes} {s : ScanBuffer} (h : FindRoom pieces s)
    (hne : piece ≠ []) (hroom : piece.length ≤ capacity - (receive pieces s).2.bytes.length) :
    FindRoom (pieces ++ [piece]) s := by
  intro k hk
  rw [List.length_append, List.length_singleton] at hk
  rcases Nat.lt_or_ge k pieces.length with hlt | hge
  · rw [List.getElem_append_left hlt, List.take_append_of_le_length (Nat.le_of_lt hlt)]
    exact h k hlt
  · obtain rfl : k = pieces.length := by omega
    simp only [List.getElem_concat_length, List.take_left']
    exact ⟨hne, hroom⟩

/-- Whether a stream has no more than `n` octets in a row without a line end. -/
def ShortLines (n : Nat) (stream : Bytes) : Prop :=
  ∀ line, line <:+: stream → (∀ b ∈ line, isSeparator b = false) → line.length ≤ n

/-- **Pieces of short lines find room**: what is kept of a line and the next piece of it fit into the
buffer together. -/
theorem findRoom_of_shortLines {n : Nat} {pieces : List Bytes} (hplain : frameStart ∉ pieces.flatten)
    (hpieces : ∀ piece ∈ pieces, piece ≠ [] ∧ n + piece.length ≤ capacity)
    (hlines : ShortLines n pieces.flatten) : FindRoom pieces {} := by
  induction pieces using List.reverseRecOn with
  | nil => exact fun k hk => absurd hk (Nat.not_lt_zero k)
  | append_singleton pieces piece ih =>
    rw [List.flatten_append] at hplain hlines
    have hbefore : frameStart ∉ pieces.flatten := fun hmem => hplain (List.mem_append_left _ hmem)
    have hearlier : FindRoom pieces {} := by
      refine ih hbefore ?_ ?_
      · exact fun piece hpiece => hpieces piece (List.mem_append_left _ hpiece)
      · exact fun line hline => hlines line (hline.trans (List.prefix_append _ _).isInfix)
    obtain ⟨hne, hfits⟩ := hpieces piece (by simp)
    refine hearlier.snoc hne ?_
    have hkept : (receive pieces {}).2 = ⟨unended pieces.flatten⟩ := by
      rw [receive_lines (s := {}) (by simp) hbefore hearlier]
      rfl
    have hshort : (unended pieces.flatten).length ≤ n := by
      refine hlines _ ?_ fun b hb => (mem_unended hb).2
      exact (unended_suffix _).isInfix.trans (List.prefix_append _ _).isInfix
    rw [hkept]
    dsimp only
    omega

/-- **However a stream without frames is cut**, exactly the codes in its lines are handed out, in
order, and exactly what stands behind its last line end is kept. -/
theorem lines_received (pieces : List Bytes) (hplain : frameStart ∉ pieces.flatten)
    (hroom : FindRoom pieces {}) :
    receive pieces {} = (lineTexts pieces.flatten, ⟨unended pieces.flatten⟩) := by
  have hempty : ∀ b ∈ ({} : ScanBuffer).bytes, isSeparator b = false := by simp
  exact receive_lines hempty hplain hroom

/-- A line with spaces at its end that is cut between its two line ends, a line that is not legible, one
without a text, and the beginning of another. -/
def cutBetweenEnds : List Bytes :=
  [[0x41, 0x42, 0x20], [0x20, 0x0D], [0x0A, 0x01, 0x43, 0x09, 0x00, 0x44],
    [0x44, 0x44, 0x44, 0x44, 0x0A, 0x45]]

theorem lines_received_cut_between_ends :
    (frameStart ∉ cutBetweenEnds.flatten ∧ FindRoom cutBetweenEnds {}) ∧
      receive cutBetweenEnds {} = (["AB"], ⟨[0x45]⟩) := by
  have hplain : frameStart ∉ cutBetweenEnds.flatten := by decide
  have hroom : FindRoom cutBetweenEnds {} := by decide +kernel
  have htexts : lineTexts cutBetweenEnds.flatten = ["AB"] := by decide +kernel
  have hunended : unended cutBetweenEnds.flatten = [0x45] := by decide +kernel
  have hreceived := lines_received cutBetweenEnds hplain hroom
  rw [htexts, hunended] at hreceived
  exact ⟨⟨hplain, hroom⟩, hreceived⟩

end Turnstile.ScanBuffer

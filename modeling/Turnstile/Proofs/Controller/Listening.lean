import Turnstile.Proofs.Controller.Repeats
import Turnstile.Proofs.Scan.Lines

/-!
# Listening to the scanner

The scanner hangs on a port whose driver may fail in any call. It is set up once, and then the port is
read in rounds without an end, whatever else the controller does between two rounds.

* `Serial.Port.configure_cases`: **setting the scanner up ends with the first call that fails**.
* `Controller.setUpScanner_eq`: the rest of the controller does not depend on how that went.
* `Listening`: what comes of some rounds of the loop.
* `Listening.paced`: the port is read again after 10 ms at least and 210 ms at most.
* `Listening.scans`: what the loop feeds is what it read.
* `Listening.codes_of_lines`: **of short lines no code is lost**, however the reads cut them.
* `Listening.suppressed_iff`: **a code is suppressed if the one that went through last is the same and was
  read less than 1.2 s before**. Codes are read in the order of their times.
-/

namespace Turnstile

namespace Serial.Port

variable (p : Port)

/-- **What a call comes to**: it is carried out or it fails, and it takes its time. -/
theorem call_cases (c : PortCall) :
    (∃ bs q, p.call c = (.ok bs, q) ∧ q.history = ⟨c, p.clock, false⟩ :: p.history ∧
      p.clock ≤ q.clock) ∨
    (∃ fault q, p.call c = (.error fault, q) ∧ q.history = ⟨c, p.clock, true⟩ :: p.history ∧
      p.clock ≤ q.clock) := by
  unfold call
  dsimp only
  cases p.driver.answers p.history.length c with
  | ok bs => exact .inl ⟨bs, _, rfl, rfl, Nat.le_add_right _ _⟩
  | error fault => exact .inr ⟨fault, _, rfl, rfl, Nat.le_add_right _ _⟩

/-! ## Setting the scanner up -/

/-- The calls that set the scanner up. -/
def setUpCalls : List PortCall :=
  [.clear, .write outputCommand, .clear]

/-- Whether calls, newest first, are the first of those that set the scanner up, and the last of them,
and no other, failed. -/
structure CutShort (made : List PortRecord) : Prop where
  planned : (made.map (·.call)).reverse <+: setUpCalls
  failed : ∃ last before, made = last :: before ∧ last.failed = true ∧ ∀ r ∈ before, r.failed = false

/-- **Setting the scanner up ends with the first call that fails.** If none does, what the scanner
answered is dropped, after it had the time to answer. -/
theorem configure_cases : ∃ made, p.configure.2.2.history = made ++ p.history ∧
    ((p.configure.1 = .ok () ∧ ∃ start told dropped, told + settleMs * 1000 ≤ dropped ∧
        made = [⟨.clear, dropped, false⟩, ⟨.write outputCommand, told, false⟩, ⟨.clear, start, false⟩]) ∨
      ((∃ fault, p.configure.1 = .error fault) ∧ CutShort made)) := by
  unfold configure
  obtain ⟨bs₁, p₁, hclear, hhistory₁, -⟩ | ⟨fault, p₁, hclear, hhistory₁, -⟩ := p.call_cases .clear
  case inr =>
    rw [hclear]
    exact ⟨[_], hhistory₁, .inr ⟨⟨fault, rfl⟩, ⟨by simp [setUpCalls], _, [], rfl, rfl, nofun⟩⟩⟩
  rw [hclear]
  dsimp only
  obtain ⟨bs₂, p₂, htell, hhistory₂, htime⟩ | ⟨fault, p₂, htell, hhistory₂, -⟩ :=
    p₁.call_cases (.write outputCommand)
  case inr =>
    rw [htell]
    rw [hhistory₁] at hhistory₂
    exact ⟨[_, _], hhistory₂, .inr ⟨⟨fault, rfl⟩, ⟨by simp [setUpCalls], _, [_], rfl, rfl, by simp⟩⟩⟩
  rw [htell]
  dsimp only
  -- the scanner has time to answer before the port is cleared again
  have hlater : p₁.clock + settleMs * 1000 ≤ (p₂.rest settleMs).clock := Nat.add_le_add_right htime _
  have hhistory : (p₂.rest settleMs).history = _ :: _ :: p.history := hhistory₁ ▸ hhistory₂
  obtain ⟨bs₃, p₃, hdrop, hhistory₃, -⟩ | ⟨fault, p₃, hdrop, hhistory₃, -⟩ :=
    (p₂.rest settleMs).call_cases .clear
  case inr =>
    rw [hdrop]
    rw [hhistory] at hhistory₃
    exact ⟨[_, _, _], hhistory₃, .inr ⟨⟨fault, rfl⟩, ⟨by simp [setUpCalls], _, [_, _], rfl, rfl, by simp⟩⟩⟩
  case inl =>
    rw [hdrop]
    rw [hhistory] at hhistory₃
    exact ⟨[_, _, _], hhistory₃, .inl ⟨rfl, _, _, _, hlater, rfl⟩⟩

/-! ## The pace of the loop -/

/-- Whether calls, newest first, are the reads of some rounds of the loop, the last of which ended at a
time. -/
def Paced : Nat → List PortRecord → Prop
  | _, [] => True
  | now, r :: earlier =>
    r.call = .read readSize readTimeoutMs ∧ r.time + idleMs * 1000 ≤ now ∧
      now ≤ r.time + (readTimeoutMs + idleMs) * 1000 ∧ Paced r.time earlier

/-- The port after a round. -/
def round : Port :=
  p.read.2.rest idleMs

theorem read_history : ∃ failed, p.read.2.history =
    ⟨.read readSize readTimeoutMs, p.clock, failed⟩ :: p.history :=
  ⟨_, rfl⟩

theorem clock_le_read : p.clock ≤ p.read.2.clock :=
  Nat.le_add_right _ _

theorem read_le_round : p.read.2.clock ≤ p.round.clock :=
  Nat.le_add_right _ _

/-- **A round takes 10 ms at least and 210 ms at most.** -/
theorem round_clock : p.clock + idleMs * 1000 ≤ p.round.clock ∧
    p.round.clock ≤ p.clock + (readTimeoutMs + idleMs) * 1000 := by
  have htakes := p.driver.inTime p.history.length readSize readTimeoutMs
  have hclock : p.round.clock = p.clock +
      p.driver.takes p.history.length (.read readSize readTimeoutMs) + idleMs * 1000 := rfl
  unfold idleMs readTimeoutMs at *
  omega

theorem Paced.round {p : Port} {reads : List PortRecord} (h : Paced p.clock reads) (failed : Bool) :
    Paced p.round.clock (⟨.read readSize readTimeoutMs, p.clock, failed⟩ :: reads) :=
  ⟨rfl, p.round_clock.1, p.round_clock.2, h⟩

end Serial.Port

/-- The octets that a read brought, if it brought any. -/
def Serial.piece : Except String Bytes → List Bytes
  | .ok (b :: bs) => [b :: bs]
  | _ => []

theorem ScanBuffer.receive_one (s : ScanBuffer) (piece : Bytes) :
    s.receive [piece] = (s.push piece).1.drain := by
  simp [receive]

theorem Scan.code_allAt (now : Nat) (outcomes : List (String × ScanOutcome)) :
    (Scan.allAt now outcomes).map (·.code) = outcomes.map Prod.fst := by
  simp [Scan.allAt]

theorem Scan.now_allAt (now : Nat) (outcomes : List (String × ScanOutcome)) :
    (Scan.allAt now outcomes).map (·.now) = List.replicate outcomes.length now := by
  rw [Scan.allAt, List.map_map]
  exact List.map_const'

namespace Controller

variable {σ τ : Type} [Sink τ] (c : Controller σ τ) (p : Serial.Port)

theorem listen_eq : c.listen p =
    ((c.heard p.read.1 p.read.2.clock).1, (c.heard p.read.1 p.read.2.clock).2, p.round) := rfl

/-- What a read brought is fed, and a read that brought nothing leaves the scanner as it was. -/
theorem heard_cases (answer : Except String Bytes) (now : Nat) :
    (∃ bs, bs ≠ [] ∧ answer = .ok bs ∧ Serial.piece answer = [bs] ∧ c.heard answer now = c.feed bs now) ∨
    (Serial.piece answer = [] ∧ (c.heard answer now).1 = [] ∧
      (c.heard answer now).2.scanner = c.scanner) := by
  cases answer with
  | error fault => exact .inr ⟨rfl, rfl, rfl⟩
  | ok bs =>
    cases bs with
    | nil => exact .inr ⟨rfl, rfl, rfl⟩
    | cons b bs => exact .inl ⟨b :: bs, List.cons_ne_nil b bs, rfl, rfl, rfl⟩

omit [Sink τ] in
/-- **Whatever setting the scanner up comes to**, the log tells of it and the port is listened to. -/
theorem setUpScanner_eq : ∃ journal, c.setUpScanner p =
    ({ c with desk := { c.desk with journal } }, p.configure.2.2) := by
  unfold setUpScanner
  obtain ⟨outcome, entries, q⟩ := p.configure
  cases outcome with
  | ok _ => exact ⟨_, rfl⟩
  | error fault => exact ⟨_, rfl⟩

end Controller

/-! ## Rounds of the loop -/

/-- What comes of some rounds of the loop, with anything that is not the scanner's in between: the octets
that the reads brought, the codes that were scanned, and the controller and the port after that. -/
inductive Listening {σ τ : Type} [Sink τ] (c : Controller σ τ) (p : Serial.Port) :
    List Bytes → List Scan → Controller σ τ → Serial.Port → Prop
  | start : Listening c p [] [] c p
  | round {pieces : List Bytes} {scans : List Scan} {d : Controller σ τ} {q : Serial.Port}
    (h : Listening c p pieces scans d q) :
    Listening c p (pieces ++ Serial.piece q.read.1)
      (scans ++ Scan.allAt q.read.2.clock (d.listen q).1) (d.listen q).2.1 (d.listen q).2.2
  | meanwhile {pieces : List Bytes} {scans : List Scan} {d e : Controller σ τ} {q : Serial.Port}
    (h : Listening c p pieces scans d q) (hsame : e.scanner = d.scanner) :
    Listening c p pieces scans e q

namespace Listening

variable {σ τ : Type} [Sink τ] {c d : Controller σ τ} {p q : Serial.Port} {pieces : List Bytes}
  {scanned : List Scan}

/-- **The port is read again after 10 ms at least and 210 ms at most**, however the reads go. -/
theorem paced (h : Listening c p pieces scanned d q) :
    ∃ reads, q.history = reads ++ p.history ∧ Serial.Port.Paced q.clock reads := by
  induction h with
  | start => exact ⟨[], rfl, trivial⟩
  | @round pieces scanned d q h ih =>
    obtain ⟨reads, hhistory, hpaced⟩ := ih
    obtain ⟨failed, hread⟩ := q.read_history
    refine ⟨_, ?_, hpaced.round failed⟩
    rw [List.cons_append, ← hhistory]
    exact hread
  | meanwhile h hsame ih => exact ih

/-- No read brings more octets than were asked for. -/
theorem sizes (h : Listening c p pieces scanned d q) :
    ∀ piece ∈ pieces, piece ≠ [] ∧ piece.length ≤ Serial.readSize := by
  induction h with
  | start => exact nofun
  | @round pieces scanned d q h ih =>
    intro piece hpiece
    rcases List.mem_append.1 hpiece with hpiece | hpiece
    · exact ih piece hpiece
    · obtain ⟨bs, hne, hread, hone, -⟩ | ⟨hnone, -⟩ := d.heard_cases q.read.1 q.read.2.clock
      · obtain rfl : piece = bs := by simpa [hone] using hpiece
        exact ⟨hne, q.driver.fits q.history.length _ _ piece hread⟩
      · rw [hnone] at hpiece
        cases hpiece
  | meanwhile h hsame ih => exact ih

/-- **What the loop feeds is what it read**: its codes are those of a course of events. -/
theorem scans (h : Listening c p pieces scanned d q) : Scans c scanned d := by
  induction h with
  | start => exact .start
  | @round pieces scanned d q h ih =>
    rw [Controller.listen_eq]
    obtain ⟨bs, -, -, -, hfed⟩ | ⟨-, hnone, hsame⟩ := d.heard_cases q.read.1 q.read.2.clock
    · rw [hfed]
      exact ih.feed bs q.read.2.clock
    · have hnothing : scanned ++ Scan.allAt q.read.2.clock [] = scanned := List.append_nil scanned
      rw [hnone, hnothing]
      exact ih.meanwhile hsame
  | meanwhile h hsame ih => exact ih.meanwhile hsame

/-- The codes that are scanned are those that the buffer makes of what the reads brought. -/
theorem received (h : Listening c p pieces scanned d q) :
    c.scanner.buffer.receive pieces = (scanned.map (·.code), d.scanner.buffer) := by
  induction h with
  | start => rfl
  | @round pieces scanned d q h ih =>
    rw [Controller.listen_eq, List.map_append, ScanBuffer.receive_append, ih]
    obtain ⟨bs, -, -, hone, hfed⟩ | ⟨hnothing, hnone, hsame⟩ := d.heard_cases q.read.1 q.read.2.clock
    · rw [hone, hfed, Scan.code_allAt, Controller.codes_feed, Controller.buffer_feed,
        ScanBuffer.receive_one]
    · rw [hnothing, hnone, hsame]
      rfl
  | meanwhile h hsame ih => rw [ih, hsame]

/-- Codes are read in the order of their times. -/
theorem in_order (h : Listening c p pieces scanned d q) :
    (scanned.map (·.now)).Pairwise (· ≤ ·) ∧ ∀ time ∈ scanned.map (·.now), time ≤ q.clock := by
  induction h with
  | start => exact ⟨.nil, nofun⟩
  | @round pieces scanned d q h ih =>
    obtain ⟨hsorted, hpast⟩ := ih
    have hread : q.clock ≤ q.read.2.clock := q.clock_le_read
    have hround : q.read.2.clock ≤ (d.listen q).2.2.clock := q.read_le_round
    have hnew : ∀ time ∈ (Scan.allAt q.read.2.clock (d.listen q).1).map (·.now),
        time = q.read.2.clock := by
      intro time htime
      rw [Scan.now_allAt] at htime
      exact List.eq_of_mem_replicate htime
    rw [List.map_append]
    constructor
    · refine List.pairwise_append.2 ⟨hsorted, ?_, ?_⟩
      · refine List.pairwise_of_forall_mem_list ?_
        intro a ha b hb
        rw [hnew a ha, hnew b hb]
      · intro a ha b hb
        rw [hnew b hb]
        exact (hpast a ha).trans hread
    · intro time htime
      rcases List.mem_append.1 htime with htime | htime
      · exact (hpast time htime).trans (hread.trans hround)
      · rw [hnew time htime]
        exact hround
  | meanwhile h hsame ih => exact ih

/-- **Of short lines no code is lost.** If what came in holds no frame and no more than 896 octets in a
row without a line end, the codes that were scanned are those of its lines, in order, and what stands
behind its last line end waits in the buffer; however the reads cut it, and whether or not some fail. -/
theorem codes_of_lines (h : Listening c p pieces scanned d q) (hnew : c.scanner = {})
    (hplain : ScanBuffer.frameStart ∉ pieces.flatten) (hlines : ScanBuffer.ShortLines 896 pieces.flatten) :
    scanned.map (·.code) = ScanBuffer.lineTexts pieces.flatten ∧
      d.scanner.buffer = ⟨ScanBuffer.unended pieces.flatten⟩ := by
  have hpieces : ∀ piece ∈ pieces, piece ≠ [] ∧ 896 + piece.length ≤ ScanBuffer.capacity := by
    intro piece hpiece
    obtain ⟨hne, hsize⟩ := h.sizes piece hpiece
    unfold Serial.readSize at hsize
    unfold ScanBuffer.capacity
    exact ⟨hne, by omega⟩
  have hroom := ScanBuffer.findRoom_of_shortLines hplain hpieces hlines
  have hreceived := h.received
  rw [hnew, ScanBuffer.receive_lines (s := {}) (by simp) hplain hroom] at hreceived
  obtain ⟨hcodes, hbuffer⟩ := Prod.mk.inj hreceived
  exact ⟨hcodes.symm, hbuffer.symm⟩

/-- **A code is suppressed if the one that went through last is the same and was read less than 1.2 s
before**, whatever came in on the port and whatever the driver made of it. -/
theorem suppressed_iff (h : Listening c p pieces scanned d q) (hnew : c.scanner = {}) (past : List Scan)
    (scan : Scan) (later : List Scan) (hscanned : scanned = past ++ scan :: later) :
    scan.outcome = .suppressed ↔ ∃ last, lastThrough past = some last ∧
      Debounce.forCodes.stored last.code = Debounce.forCodes.stored scan.code ∧
      last.now ≤ scan.now ∧ scan.now < last.now + 1200000 := by
  have horder : ∀ last, lastThrough past = some last → last.now ≤ scan.now := by
    intro last hlast
    have hmem : last ∈ past := List.mem_of_mem_filter (List.mem_of_getLast? hlast)
    have hsorted := h.in_order.1
    rw [hscanned, List.map_append, List.pairwise_append] at hsorted
    exact hsorted.2.2 _ (List.mem_map_of_mem hmem) _ (by simp)
  rw [h.scans.suppressed_iff hnew past scan later hscanned]
  constructor
  · rintro ⟨last, hlast, hsame, hage⟩
    have hle := horder last hlast
    exact ⟨last, hlast, hsame, hle, by omega⟩
  · rintro ⟨last, hlast, hsame, hle, hage⟩
    exact ⟨last, hlast, hsame, by omega⟩

end Listening

/-- A port on which the first read finds a line, and every other call fails. -/
def oneLine : Serial.Port where
  driver := {
    answers := fun n call =>
      match n, call with
      | 0, .read size _ => .ok ([0x41, 0x0A].take size)
      | _, _ => .error "overrun"
    takes := fun _ _ => 0
    fits := by
      intro n size timeoutMs bs hread
      cases n with
      | zero =>
        obtain rfl := Except.ok.inj hread
        exact List.length_take_le size _
      | succ n => cases hread
    inTime := fun _ _ _ => Nat.zero_le _ }

/-- The line is scanned, and the round after it finds nothing and leaves the buffer as it was. -/
example :
    let (codes, c, p) := scannerAlone.listen oneLine
    let (more, d, q) := c.listen p
    codes = [("A", .offline)] ∧ more = [] ∧ d.scanner = c.scanner ∧ q.clock = 20000 := by
  decide +kernel

end Turnstile

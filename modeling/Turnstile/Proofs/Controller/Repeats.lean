import Turnstile.Outbox
import Turnstile.Proofs.Debounce.History
import Turnstile.Proofs.Scan.Codes

/-!
# Codes that are scanned again

A code is suppressed if it is the one that went through last, as far as codes are compared. Whatever
comes from the scanner, and whatever else the controller does in between, what becomes of the codes is
what the scanner's debounce makes of them, and the debounce only knows what it was told of codes.

* `Scan`, `Scans`: a code that was scanned, and the codes of a whole course of events.
* `lastThrough`: the code that was not suppressed last.
* `Scans.run`: **the codes of a course of events are answered by the debounce, one after another.**
* `Scans.isCode`: every code was read from octets that a code can be read from.
* `Scans.suppressed_iff`: a code is suppressed if the last one that was not is the same, as far as codes
  are compared.
* `code_compared_by_beginning`: **a code is compared by its beginning**, and compared whole if it takes
  255 octets at most. Marks for broken runs make some codes longer than that.
* `other_code_suppressed`: so a code can be suppressed after another one.
-/

namespace Turnstile

/-- A code that was scanned, when that was, and what became of it. -/
structure Scan where
  code : String
  now : Nat
  outcome : ScanOutcome
deriving DecidableEq, Repr

namespace Scan

/-- What the debounce is told of a code. -/
def call (s : Scan) : Debounce.Call :=
  .see s.code s.now

/-- What the debounce makes of a code. -/
def event (s : Scan) : Debounce.Event :=
  if s.outcome = .suppressed then .heldBack s.code s.now else .passed s.code s.now

/-- Codes that were scanned at one time. -/
def allAt (now : Nat) (outcomes : List (String × ScanOutcome)) : List Scan :=
  outcomes.map fun outcome => ⟨outcome.1, now, outcome.2⟩

variable {s : Scan}

theorem call_event (s : Scan) : s.event.call = s.call := by
  unfold event
  split <;> rfl

theorem event_eq_heldBack_iff : s.event = .heldBack s.code s.now ↔ s.outcome = .suppressed := by
  unfold event
  split_ifs with h <;> simp [h]

end Scan

/-- The code that was not suppressed last. -/
def lastThrough (past : List Scan) : Option Scan :=
  (past.filter (·.outcome ≠ .suppressed)).getLast?

theorem lastThrough_singleton {scan : Scan} (h : scan.outcome ≠ .suppressed) :
    lastThrough [scan] = some scan := by
  simp [lastThrough, h]

/-- The debounce takes the same code for the last one that went through. -/
theorem lastPassed_event (past : List Scan) : Debounce.lastPassed (past.map Scan.event) =
    (lastThrough past).map fun s => (s.code, s.now) := by
  have hpassed : Debounce.Event.passed? ∘ Scan.event = fun s =>
      (Option.guard (fun s => decide (s.outcome ≠ .suppressed)) s).map fun s => (s.code, s.now) := by
    funext s
    by_cases h : s.outcome = .suppressed <;> simp [Scan.event, Debounce.Event.passed?, Option.guard, h]
  rw [Debounce.lastPassed, List.filterMap_map, hpassed, ← List.map_filterMap,
    List.filterMap_eq_filter, List.getLast?_map]
  rfl

namespace Controller

variable {σ τ : Type} [Sink τ]

/-! ## Octets from the scanner -/

theorem scanner_offerCode (c : Controller σ τ) (code : String) (now : Nat) :
    (c.offerCode code now).2.scanner = c.scanner := by
  unfold offerCode
  split <;> rfl

theorem offerCode_ne_suppressed (c : Controller σ τ) (code : String) (now : Nat) :
    (c.offerCode code now).1 ≠ .suppressed := by
  unfold offerCode
  split <;> exact nofun

/-- A code is answered by the debounce. -/
theorem answer_scanned (c : Controller σ τ) (code : String) (now : Nat) :
    c.scanner.debounce.answer (.see code now) =
      (Scan.event ⟨code, now, (c.scanned code now).1⟩, (c.scanned code now).2.scanner.debounce) := by
  have hnote : (c.note .info s!"QR detected: '{code}'").scanner = c.scanner := rfl
  rw [Debounce.answer, scanned, hnote]
  cases hholds : c.scanner.debounce.holdsBack code now with
  | true =>
    have hsee : c.scanner.debounce.see code now = (false, c.scanner.debounce) := if_pos hholds
    rw [hsee]
    rfl
  | false =>
    obtain ⟨seen, hsee⟩ : ∃ seen, c.scanner.debounce.see code now = (true, seen) :=
      ⟨_, if_neg (Bool.not_eq_true _ ▸ hholds)⟩
    rw [hsee]
    dsimp only
    rw [Scan.event, if_neg (offerCode_ne_suppressed _ code now), scanner_offerCode]

theorem buffer_scanned (c : Controller σ τ) (code : String) (now : Nat) :
    (c.scanned code now).2.scanner.buffer = c.scanner.buffer := by
  unfold scanned
  dsimp only
  split
  · rfl
  · rw [scanner_offerCode]
    rfl

theorem scannedAll_cons (c : Controller σ τ) (now : Nat) (code : String × List Entry)
    (codes : List (String × List Entry)) : scannedAll now (code :: codes) c =
      let first := (c.log code.2).scanned code.1 now
      ((code.1, first.1) :: (scannedAll now codes first.2).1, (scannedAll now codes first.2).2) := rfl

/-- Codes are answered by the debounce, one after another. -/
theorem run_scannedAll (c : Controller σ τ) (now : Nat) (codes : List (String × List Entry)) :
    c.scanner.debounce.run (codes.map fun code => .see code.1 now) =
      ((Scan.allAt now (scannedAll now codes c).1).map Scan.event,
        (scannedAll now codes c).2.scanner.debounce) := by
  induction codes generalizing c with
  | nil => rfl
  | cons code codes ih =>
    have hfirst : c.scanner.debounce.answer (.see code.1 now) = _ :=
      answer_scanned (c.log code.2) code.1 now
    rw [List.map_cons, Debounce.run_cons, hfirst, scannedAll_cons, ih]
    rfl

theorem buffer_scannedAll (c : Controller σ τ) (now : Nat) (codes : List (String × List Entry)) :
    (scannedAll now codes c).2.scanner.buffer = c.scanner.buffer := by
  induction codes generalizing c with
  | nil => rfl
  | cons code codes ih => exact (ih _).trans (buffer_scanned _ code.1 now)

theorem codes_scannedAll (c : Controller σ τ) (now : Nat) (codes : List (String × List Entry)) :
    (scannedAll now codes c).1.map Prod.fst = codes.map Prod.fst := by
  induction codes generalizing c with
  | nil => rfl
  | cons code codes ih => exact congrArg (code.1 :: ·) (ih _)

/-- Octets are made into codes, and the codes are answered by the debounce. -/
theorem run_feed (c : Controller σ τ) (bs : Bytes) (now : Nat) :
    c.scanner.debounce.run ((c.scanner.buffer.push bs).1.drain.1.map fun code => .see code now) =
      ((Scan.allAt now (c.feed bs now).1).map Scan.event, (c.feed bs now).2.scanner.debounce) := by
  rw [ScanBuffer.drain, List.map_map]
  exact run_scannedAll { c.log (Serial.received "QR RX:" bs ++ (c.scanner.buffer.push bs).2) with
    scanner := { c.scanner with buffer := (c.scanner.buffer.push bs).1.codes.2.1 } } now _

theorem codes_feed (c : Controller σ τ) (bs : Bytes) (now : Nat) :
    (c.feed bs now).1.map Prod.fst = (c.scanner.buffer.push bs).1.drain.1 :=
  codes_scannedAll _ now _

theorem buffer_feed (c : Controller σ τ) (bs : Bytes) (now : Nat) :
    (c.feed bs now).2.scanner.buffer = (c.scanner.buffer.push bs).1.drain.2 :=
  buffer_scannedAll _ now _

end Controller

/-! ## A course of events -/

/-- The codes that are scanned in a course of events: octets come from the scanner, and in between
anything happens that is not the scanner's. -/
inductive Scans {σ τ : Type} [Sink τ] (c : Controller σ τ) : List Scan → Controller σ τ → Prop
  | start : Scans c [] c
  | feed {scans : List Scan} {d : Controller σ τ} (h : Scans c scans d) (bs : Bytes) (now : Nat) :
    Scans c (scans ++ Scan.allAt now (d.feed bs now).1) (d.feed bs now).2
  | meanwhile {scans : List Scan} {d e : Controller σ τ} (h : Scans c scans d)
    (hsame : e.scanner = d.scanner) : Scans c scans e

namespace Scans

variable {σ τ : Type} [Sink τ] {c d : Controller σ τ} {scans : List Scan}
  {scan : Scan}

/-- **The codes of a course of events are answered by the debounce, one after another.** -/
theorem run (h : Scans c scans d) :
    c.scanner.debounce.run (scans.map Scan.call) = (scans.map Scan.event, d.scanner.debounce) := by
  induction h with
  | start => rfl
  | @feed scans d h bs now ih =>
    have hcalls : (Scan.allAt now (d.feed bs now).1).map Scan.call =
        (d.scanner.buffer.push bs).1.drain.1.map fun code => .see code now := by
      rw [← Controller.codes_feed d bs now, Scan.allAt, List.map_map, List.map_map]
      rfl
    rw [List.map_append, Debounce.run_append, ih, hcalls, Controller.run_feed, List.map_append]
  | meanwhile h hsame ih => rw [ih, hsame]

theorem room (h : Scans c scans d) (hroom : c.scanner.buffer.bytes.length ≤ ScanBuffer.capacity) :
    d.scanner.buffer.bytes.length ≤ ScanBuffer.capacity := by
  induction h with
  | start => exact hroom
  | feed h bs now ih =>
    rw [Controller.buffer_feed]
    exact ScanBuffer.drain_le.trans (ScanBuffer.push_bounded ih bs)
  | meanwhile h hsame ih => rw [hsame]; exact ih

/-- Every code was read from octets that a code can be read from. -/
theorem isCode (h : Scans c scans d) (hroom : c.scanner.buffer.bytes.length ≤ ScanBuffer.capacity) :
    ∀ scan ∈ scans, ∃ data, ScanBuffer.IsCode data scan.code := by
  induction h with
  | start => exact fun _ hscan => nomatch hscan
  | @feed scans d h bs now ih =>
    intro scan hscan
    rcases List.mem_append.1 hscan with hscan | hscan
    · exact ih scan hscan
    · obtain ⟨outcome, houtcome, rfl⟩ := List.mem_map.1 hscan
      refine ScanBuffer.drain_isCode (ScanBuffer.push_bounded (h.room hroom) bs) outcome.1 ?_
      rw [← Controller.codes_feed]
      exact List.mem_map_of_mem houtcome
  | meanwhile h hsame ih => exact ih

/-- **A code is suppressed if and only if the last one that was not is the same**, as far as codes are
compared, and was scanned not long ago. -/
theorem suppressed_iff (h : Scans c scans d) (hnew : c.scanner = {}) (past : List Scan) (scan : Scan)
    (later : List Scan) (hscans : scans = past ++ scan :: later) :
    scan.outcome = .suppressed ↔ ∃ last, lastThrough past = some last ∧
      Debounce.forCodes.stored last.code = Debounce.forCodes.stored scan.code ∧
      scan.now - last.now < 1200000 := by
  subst hscans
  obtain ⟨data, hcode⟩ := h.isCode (by rw [hnew]; exact Nat.zero_le _) scan (by simp)
  have hkept : Debounce.forCodes.stored scan.code ≠ "" :=
    Debounce.stored_ne_empty (by decide) hcode.nonempty
  have hrun := congrArg Prod.fst h.run
  rw [List.map_append (f := Scan.event), List.map_cons (f := Scan.event), hnew] at hrun
  have hremembers : Debounce.forCodes.Remembers Debounce.forCodes [] := .new _ _
  rw [← Scan.event_eq_heldBack_iff, hremembers.heldBack_iff hrun scan.call_event, List.nil_append,
    lastPassed_event]
  constructor
  · rintro ⟨code, since, hpassed, hsame, -, hage⟩
    obtain ⟨last, hlast, heq⟩ := Option.map_eq_some_iff.1 hpassed
    obtain ⟨rfl, rfl⟩ := Prod.mk.inj heq
    exact ⟨last, hlast, hsame, hage⟩
  · rintro ⟨last, hlast, hsame, hage⟩
    exact ⟨last.code, last.now, by rw [hlast]; rfl, hsame, hkept, hage⟩

/-- The first code goes through. -/
theorem first_through (h : Scans c (scan :: scans) d) (hnew : c.scanner = {}) :
    scan.outcome ≠ .suppressed := by
  intro hsuppressed
  obtain ⟨last, hlast, -⟩ := (h.suppressed_iff hnew [] scan scans rfl).1 hsuppressed
  exact nomatch hlast

end Scans

/-- **A code is compared by its beginning.** Every text that a search finds was read from what a frame
carries or from a line; it is not empty, has no zero, and takes as many octets as were read of them and
two more for each broken run, 750 at most. Of a text the debounce keeps the longest beginning of 255
octets at most. In a course of events a code is suppressed if and only if the last one that was not has
the same beginning and was scanned less than the window before. So it is the same code if neither takes
more than 255 octets, and only broken runs make a code longer than that. -/
theorem code_compared_by_beginning {σ τ : Type} [Sink τ] (c : Controller σ τ) (hnew : c.scanner = {}) :
    (∀ requests text, (ScanBuffer.serveAll {} requests).next.1 = some text →
      text ≠ "" ∧ '\x00' ∉ text.toList ∧ text.utf8ByteSize ≤ 750 ∧
      ∃ data, ScanBuffer.Payload data ∧ text = ScanBuffer.toText data ∧
        text.utf8ByteSize = (Utf8.mend (ScanBuffer.kept data)).length ∧
        (ScanBuffer.kept data).length ≤ 255 ∧ text.utf8ByteSize ≤
          (ScanBuffer.kept data).length + 2 * Utf8.brokenRuns (ScanBuffer.kept data)) ∧
    (∀ text, Utf8.LongestFit 255 text (Debounce.forCodes.stored text)) ∧
    ∀ scans d, Scans c scans d → ∀ past scan later, scans = past ++ scan :: later →
      (scan.outcome = .suppressed ↔ ∃ last, lastThrough past = some last ∧
        Debounce.forCodes.stored last.code = Debounce.forCodes.stored scan.code ∧
        scan.now - last.now < 1200000) ∧
      (scan.outcome = .suppressed → ∀ last, lastThrough past = some last →
        last.code = scan.code ∨ 255 < last.code.utf8ByteSize ∨ 255 < scan.code.utf8ByteSize) := by
  refine ⟨?_, fun text => (Debounce.forCodes.longestFit_stored text _).2 rfl, ?_⟩
  · intro requests text hfound
    have hroom := ScanBuffer.serveAll_bounded (s := {}) (Nat.zero_le _) requests
    obtain ⟨data, hcode⟩ := ScanBuffer.next_isCode hroom hfound
    exact ⟨hcode.nonempty, hcode.null_not_mem, hcode.utf8ByteSize_le.trans hcode.payload.bound, data,
      hcode.payload, hcode.read, hcode.utf8ByteSize_eq, ScanBuffer.length_kept_le data,
      hcode.utf8ByteSize_le⟩
  · intro scans d h past scan later hscans
    have hiff := h.suppressed_iff hnew past scan later hscans
    refine ⟨hiff, fun hsuppressed last hlast => ?_⟩
    obtain ⟨other, hother, hsame, -⟩ := hiff.1 hsuppressed
    obtain rfl : other = last := Option.some.inj (hother.symm.trans hlast)
    by_contra hdiffer
    obtain ⟨hne, hlong⟩ := not_or.1 hdiffer
    obtain ⟨hlast, hscan⟩ := not_or.1 hlong
    -- both are kept whole
    rw [Debounce.stored_eq_self_iff.2 (Nat.not_lt.1 hlast),
      Debounce.stored_eq_self_iff.2 (Nat.not_lt.1 hscan)] at hsame
    exact hne hsame

/-- A controller to which nothing is connected but a scanner. -/
def scannerAlone : Controller Unit Outbox where
  bus := ()
  desk := { settings := ⟨{}, {}⟩, outbox := {} }

theorem code_compared_by_beginning_twice :
    (scannerAlone.feed [0x41, 0x0A] 0).1 = [("A", .offline)] ∧
      ((scannerAlone.feed [0x41, 0x0A] 0).2.feed [0x41, 0x0D] 1199999).1 = [("A", .suppressed)] ∧
      (∃ last, lastThrough [⟨"A", 0, .offline⟩] = some last ∧
        Debounce.forCodes.stored last.code = Debounce.forCodes.stored "A" ∧
        1199999 - last.now < 1200000) ∧
      (ScanBuffer.serveAll {} [.push [0x03, 0x02, 0xE9, 0x41]]).next.1 = some "\uFFFDA" ∧
      ∃ data, ScanBuffer.Payload data ∧ "\uFFFDA" = ScanBuffer.toText data := by
  have hfirst : (scannerAlone.feed [0x41, 0x0A] 0).1 = [("A", .offline)] := by decide +kernel
  have hsecond : ((scannerAlone.feed [0x41, 0x0A] 0).2.feed [0x41, 0x0D] 1199999).1 =
      [("A", .suppressed)] := by decide +kernel
  have hframe : (ScanBuffer.serveAll {} [.push [0x03, 0x02, 0xE9, 0x41]]).next.1 = some "\uFFFDA" := by
    decide +kernel
  have hscans := (Scans.start (c := scannerAlone)).feed [0x41, 0x0A] 0 |>.feed [0x41, 0x0D] 1199999
  rw [hsecond, hfirst] at hscans
  obtain ⟨hcodes, -, hcompared⟩ := code_compared_by_beginning scannerAlone rfl
  obtain ⟨hiff, -⟩ := hcompared _ _ hscans [⟨"A", 0, .offline⟩] ⟨"A", 1199999, .suppressed⟩ [] rfl
  obtain ⟨-, -, -, data, hpayload, hread, -⟩ := hcodes _ _ hframe
  exact ⟨hfirst, hsecond, hiff.1 rfl, hframe, data, hpayload, hread⟩

/-- A frame of octets none of which is text makes the longest code. -/
example : (ScanBuffer.serveAll {} [.push (0x03 :: 0xFA :: List.replicate 250 0xFF)]).next.1.map
    String.utf8ByteSize = some 750 := by
  decide +kernel

/-- 254 letters and one with an accent: 256 octets of well-formed text. -/
def accentedLine : Bytes :=
  List.replicate 254 0x51 ++ [0xC3, 0xA9, 0x0A]

/-- The same line without the last letter. -/
def plainLine : Bytes :=
  List.replicate 254 0x51 ++ [0x0A]

/-- The code in the first line: the accented letter was cut in two, and half of it is marked as broken. -/
def accentedCode : String :=
  String.ofList (List.replicate 254 'Q' ++ ['\uFFFD'])

def plainCode : String :=
  String.ofList (List.replicate 254 'Q')

/-- The mark is all that is not kept. -/
theorem stored_accentedCode : Debounce.forCodes.stored accentedCode = Debounce.forCodes.stored plainCode := by
  have hplain : Debounce.forCodes.stored plainCode = plainCode :=
    Debounce.stored_eq_self_iff.2 (by decide +kernel)
  have hfit : Utf8.fit Debounce.forCodes.capacity (List.replicate 254 'Q' ++ ['\uFFFD']) =
      List.replicate 254 'Q' := by decide +kernel
  rw [hplain]
  unfold Debounce.stored accentedCode
  rw [String.toList_ofList, hfit]
  rfl

/-- **A code of more than 255 octets** goes through, and a code that is another one is suppressed after
it. -/
theorem other_code_suppressed :
    (ScanBuffer.serveAll {} [.push accentedLine]).next.1 = some accentedCode ∧
      accentedCode.utf8ByteSize = 257 ∧
      ∃ outcome, outcome ≠ .suppressed ∧
        (scannerAlone.feed accentedLine 0).1 = [(accentedCode, outcome)] ∧
        ((scannerAlone.feed accentedLine 0).2.feed plainLine 1000).1 = [(plainCode, .suppressed)] ∧
        plainCode ≠ accentedCode := by
  have hfirst : (scannerAlone.feed accentedLine 0).1.map Prod.fst = [accentedCode] := by
    rw [Controller.codes_feed]
    decide +kernel
  have hbuffer : (scannerAlone.feed accentedLine 0).2.scanner.buffer = {} := by
    rw [Controller.buffer_feed]
    decide +kernel
  have hsecond : ((scannerAlone.feed accentedLine 0).2.feed plainLine 1000).1.map Prod.fst =
      [plainCode] := by
    rw [Controller.codes_feed, hbuffer]
    decide +kernel
  obtain ⟨⟨code, outcome⟩, hone, hcode⟩ := List.map_eq_singleton_iff.1 hfirst
  obtain ⟨⟨other, after⟩, htwo, hother⟩ := List.map_eq_singleton_iff.1 hsecond
  obtain rfl : code = accentedCode := hcode
  obtain rfl : other = plainCode := hother
  have hscans := (Scans.start (c := scannerAlone)).feed accentedLine 0
  have hmore := hscans.feed plainLine 1000
  rw [hone] at hscans
  rw [hone, htwo] at hmore
  have hthrough : outcome ≠ .suppressed := hscans.first_through rfl
  have hlast : lastThrough [⟨accentedCode, 0, outcome⟩] = some ⟨accentedCode, 0, outcome⟩ :=
    lastThrough_singleton hthrough
  have hage : 1000 - 0 < 1200000 := by decide
  have hsuppressed : after = .suppressed :=
    (hmore.suppressed_iff rfl [⟨accentedCode, 0, outcome⟩] ⟨plainCode, 1000, after⟩ [] rfl).2
      ⟨_, hlast, stored_accentedCode, hage⟩
  rw [hsuppressed] at htwo
  exact ⟨by decide +kernel, by decide +kernel, outcome, hthrough, hone, htwo, by decide +kernel⟩

end Turnstile

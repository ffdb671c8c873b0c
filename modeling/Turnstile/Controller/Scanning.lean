import Turnstile.Controller.Basic

/-!
# Scanned codes

Octets from the scanner are made into codes, and each code asks for access unless it
did so a moment ago or the link is down.

* `Controller.feed`: octets from the scanner, and what became of each code.
* `Controller.setUpScanner`: the scanner is set up.
* `Controller.listen`: one round of the endless loop that reads what the scanner sends.
-/

namespace Turnstile

/-- What became of a code. -/
inductive ScanOutcome where
  | offered (o : Offer)
  /-- The code is still the one that went through. -/
  | suppressed
  /-- The link is down. -/
  | offline
deriving DecidableEq, Repr

/-- The codes in a buffer, each with what the log says of lines dropped before it; and
at the end what is left, with what the log says of lines dropped after the last code. -/
def ScanBuffer.codes (s : ScanBuffer) : List (String × List Entry) × ScanBuffer × List Entry :=
  match s.next with
  | (none, rest, dropped) => ([], rest, dropped)
  | (some code, rest, dropped) =>
    if _h : rest.bytes.length < s.bytes.length then
      match codes rest with
      | (more, rest, last) => ((code, dropped) :: more, rest, last)
    else ([(code, dropped)], rest, [])
termination_by s.bytes.length

namespace Controller

variable {σ τ : Type} [Sink τ]

/-- What becomes of a code that went through. -/
def offerCode (c : Controller σ τ) (code : String) (now : Nat) : ScanOutcome × Controller σ τ :=
  if c.link.isReady then
    match c.desk.offer .code code "" now with
    | (offer, desk) => (.offered offer, { c with desk })
  else (.offline, c.note .warn s!"QR '{code}' not published, MQTT not connected")

/-- A code was scanned. -/
def scanned (c : Controller σ τ) (code : String) (now : Nat) : ScanOutcome × Controller σ τ :=
  let c := c.note .info s!"QR detected: '{code}'"
  match c.scanner.debounce.see code now with
  | (false, _) => (.suppressed, c.note .info "QR repeated within debounce window, ignored")
  | (true, debounce) => { c with scanner := { c.scanner with debounce } }.offerCode code now

/-- Codes were scanned, one after another. -/
def scannedAll (now : Nat) : List (String × List Entry) → Controller σ τ →
    List (String × ScanOutcome) × Controller σ τ
  | [], c => ([], c)
  | (code, dropped) :: more, c =>
    match (c.log dropped).scanned code now with
    | (outcome, c) =>
      match scannedAll now more c with
      | (outcomes, c) => ((code, outcome) :: outcomes, c)

/-- Octets come from the scanner: the codes they complete, and what became of each. -/
def feed (c : Controller σ τ) (bs : Bytes) (now : Nat) :
    List (String × ScanOutcome) × Controller σ τ :=
  match c.scanner.buffer.push bs with
  | (buffer, full) =>
    match buffer.codes with
    | (codes, rest, last) =>
      let c := c.log (Serial.received "QR RX:" bs ++ full)
      match scannedAll now codes { c with scanner := { c.scanner with buffer := rest } } with
      | (outcomes, c) => (outcomes, c.log last)

/-- Sets the scanner up. If that fails the log tells of it, and nothing else depends on it. -/
def setUpScanner (c : Controller σ τ) (p : Serial.Port) : Controller σ τ × Serial.Port :=
  match p.configure with
  | (.ok (), entries, p) => (c.log entries, p)
  | (.error fault, entries, p) => ((c.log entries).note .warn s!"QR scanner setup failed: {fault}", p)

/-- The port was read: octets are taken as they came in, and the log tells of failures. -/
def heard (c : Controller σ τ) (answer : Except String Bytes) (now : Nat) :
    List (String × ScanOutcome) × Controller σ τ :=
  match answer with
  | .ok bs => if bs.isEmpty then ([], c) else c.feed bs now
  | .error fault => ([], c.note .warn s!"QR UART read error: {fault}")

/-- One round of the loop that reads the port, up to where the next one begins: what became
of each code. -/
def listen (c : Controller σ τ) (p : Serial.Port) :
    List (String × ScanOutcome) × Controller σ τ × Serial.Port :=
  match p.read with
  | (answer, p) =>
    match c.heard answer p.clock with
    | (outcomes, c) => (outcomes, c, p.rest Serial.idleMs)

end Controller

end Turnstile

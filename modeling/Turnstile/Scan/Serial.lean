import Turnstile.Log
import Turnstile.Text.Hex
import Turnstile.Text.Utf8

/-!
# The scanner's serial port

The port that the scanner hangs on, the command that sets a parameter of the scanner, and
octets as they appear in the log. The driver of the port may fail in any call.

* `Port`: the port, and what was asked of it.
* `Port.configure`: the scanner is told in which form to send codes.
* `Port.read`: what came in is read.
-/

namespace Turnstile.Serial

/-- The parameter that says in which form codes are sent. -/
def outputZone : UInt16 := 0x0060

/-- Codes are sent as frames, or as lines with a line end. -/
def outputFrames : UInt8 := 0x21

/-- How long to wait after a parameter was set, in milliseconds. -/
def settleMs : Nat := 80

/-- How long one read waits, in milliseconds. -/
def readTimeoutMs : Nat := 200

/-- How many octets one read takes at most. -/
def readSize : Nat := 128

/-- How long to rest after a read, in milliseconds. -/
def idleMs : Nat := 10

/-- The command that sets a parameter; its last two octets stand for a checksum that
is not checked. -/
def zoneWrite (zone : UInt16) (value : UInt8) : Bytes :=
  [0x7E, 0x00, 0x08, 0x01, (zone >>> 8).toUInt8, zone.toUInt8, value, 0xAB, 0xCD]

/-- What the log says of octets received. -/
def received (label : String) (bs : Bytes) : List Entry :=
  if bs.isEmpty then []
  else [⟨.debug, label ++ String.ofList (bs.flatMap fun b => ' ' :: Hex.chars b)⟩]

/-- What is asked of the port. -/
inductive PortCall where
  /-- What came in and was not read is dropped. -/
  | clear
  | write (bs : Bytes)
  /-- No more than `size` octets are read. If none came in, that waits for some. -/
  | read (size timeoutMs : Nat)
deriving DecidableEq, Repr

/-- A call that was made, the time at which it was made, and whether it failed. -/
structure PortRecord where
  call : PortCall
  time : Nat
  failed : Bool
deriving DecidableEq, Repr

/-- The driver of a port: what it makes of a call, given how many calls came before it. -/
structure PortDriver where
  /-- Why the call failed, or the octets that were read. -/
  answers : Nat → PortCall → Except String Bytes
  /-- How long the call takes, in microseconds. -/
  takes : Nat → PortCall → Nat
  /-- No more is read than was asked for. -/
  fits (n size timeoutMs : Nat) (bs : Bytes) :
    answers n (.read size timeoutMs) = .ok bs → bs.length ≤ size
  /-- Nothing is waited for any longer than was asked for. -/
  inTime (n size timeoutMs : Nat) : takes n (.read size timeoutMs) ≤ timeoutMs * 1000

/-- A port and its driver. Times are in microseconds. -/
structure Port where
  driver : PortDriver
  /-- The calls so far, newest first. -/
  history : List PortRecord := []
  clock : Nat := 0

namespace Port

/-- Makes a call. -/
def call (p : Port) (c : PortCall) : Except String Bytes × Port :=
  let n := p.history.length
  let answer := p.driver.answers n c
  (answer, { p with
    history := ⟨c, p.clock, !answer.isOk⟩ :: p.history, clock := p.clock + p.driver.takes n c })

/-- Lets time pass. -/
def rest (p : Port) (ms : Nat) : Port :=
  { p with clock := p.clock + ms * 1000 }

/-- Reads what came in. -/
def read (p : Port) : Except String Bytes × Port :=
  p.call (.read readSize readTimeoutMs)

/-- The command that tells the scanner in which form to send codes. -/
def outputCommand : Bytes :=
  zoneWrite outputZone outputFrames

/-- What the log says before the scanner is told. -/
def outputEntries : List Entry :=
  let zone := Hex.octet (outputZone >>> 8).toUInt8 ++ Hex.octet outputZone.toUInt8
  ⟨.info, s!"QR scanner serial output: zone 0x{zone} = 0x{Hex.octet outputFrames}"⟩ ::
    received "QR TX:" outputCommand

/-- Tells the scanner in which form to send codes, and drops what came in before that and
what it answers; and what the log says of it. -/
def configure (p : Port) : Except String Unit × List Entry × Port :=
  match p.call .clear with
  | (.error fault, p) => (.error fault, [], p)
  | (.ok _, p) =>
    match p.call (.write outputCommand) with
    | (.error fault, p) => (.error fault, outputEntries, p)
    | (.ok _, p) =>
      match (p.rest settleMs).call .clear with
      | (.error fault, p) => (.error fault, outputEntries, p)
      | (.ok _, p) => (.ok (), outputEntries, p)

end Port

end Turnstile.Serial

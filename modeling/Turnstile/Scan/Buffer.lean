import Turnstile.Debounce
import Turnstile.Log

/-!
# Codes from a scanner

A scanner sends codes in two forms: frames of a start octet, a length and as many
octets, and lines of text. What it sends is buffered until a code is complete.

* `ScanBuffer.push`: octets are added as far as there is room; a full buffer is
  emptied instead.
* `ScanBuffer.takeFrame`, `ScanBuffer.takeLine`: one attempt at either form.
* `ScanBuffer.next`: the next code, a frame before a line.
-/

namespace Turnstile

/-- What a scanner sent and nobody made sense of yet. -/
structure ScanBuffer where
  bytes : Bytes := []
deriving DecidableEq, Repr

namespace ScanBuffer

/-- How many octets are buffered at most. -/
def capacity : Nat := 1024

/-- The octet that starts a frame. -/
def frameStart : UInt8 := 0x03

/-- The greatest length of a frame. -/
def maxFrame : Nat := 250

/-- How many octets of a hundred must be printable in a line. -/
def minPrintablePercent : Nat := 80

/-- Whether an octet ends a line. -/
def isSeparator (b : UInt8) : Bool :=
  b = 0x0A || b = 0x0D || b = 0x09

/-- Whether an octet is printable. -/
def isPrintable (b : UInt8) : Bool :=
  0x20 ≤ b && b ≤ 0x7E

/-- Adds octets as far as there is room. Without any, the buffer is emptied and the
octets are lost as well. -/
def push (s : ScanBuffer) (more : Bytes) : ScanBuffer × List Entry :=
  let room := capacity - s.bytes.length
  if room = 0 then
    (⟨[]⟩, [⟨.warn, s!"QR buffer full, discarding {s.bytes.length} buffered bytes"⟩])
  else (⟨s.bytes ++ more.take room⟩, [])

/-- The text of a code: up to a zero octet, cut to as many octets as are compared. -/
def toText (bs : Bytes) : String :=
  Utf8.decodeLossy ((bs.takeWhile (· ≠ 0)).take Debounce.codeCapacity)

/-- Tries to take a frame. What precedes a start octet is dropped, and so is a start
octet with a length that no frame has. -/
def takeFrame (s : ScanBuffer) : Option Bytes × ScanBuffer :=
  if !s.bytes.contains frameStart then (none, s)
  else
    let bs := s.bytes.dropWhile (· ≠ frameStart)
    match bs with
    | start :: length :: rest =>
      if length = 0 ∨ maxFrame < length.toNat then (none, ⟨length :: rest⟩)
      else if rest.length < length.toNat then (none, ⟨start :: length :: rest⟩)
      else (some (rest.take length.toNat), ⟨rest.drop length.toNat⟩)
    | _ => (none, ⟨bs⟩)

/-- A line without the spaces at its end. -/
def trimLine (line : Bytes) : Bytes :=
  (line.reverse.dropWhile fun b => isSeparator b || b = 0x20).reverse

/-- How many octets of a line are printable. -/
def printable (line : Bytes) : Nat :=
  line.countP isPrintable

/-- Whether a line is text. -/
def isText (line : Bytes) : Bool :=
  !line.isEmpty && minPrintablePercent ≤ printable line * 100 / line.length

/-- Tries to take a line. A line that is not text is dropped. -/
def takeLine (s : ScanBuffer) : Option Bytes × ScanBuffer × List Entry :=
  if !s.bytes.any isSeparator then (none, s, [])
  else
    let line := trimLine (s.bytes.takeWhile (!isSeparator ·))
    let rest : ScanBuffer := ⟨(s.bytes.dropWhile (!isSeparator ·)).dropWhile isSeparator⟩
    if isText line then (some line, rest, [])
    else
      (none, rest, [⟨.debug, s!"QR line discarded ({line.length} bytes, {printable line} printable)"⟩])

/-- One attempt at a frame and, failing that, at a line. -/
def attempt (s : ScanBuffer) : Option Bytes × ScanBuffer × List Entry :=
  match s.takeFrame with
  | (some data, s) => (some data, s, [])
  | (none, s) => s.takeLine

/-- The next code, and what the log says of lines dropped before it. An attempt that
finds nothing and drops nothing is the last one. -/
def next (s : ScanBuffer) : Option String × ScanBuffer × List Entry :=
  match s.attempt with
  | (found, after, dropped) =>
    let text := (found.map toText).getD ""
    if text ≠ "" then (some text, after, dropped)
    else if _h : after.bytes.length < s.bytes.length then
      match next after with
      | (code, rest, more) => (code, rest, dropped ++ more)
    else (none, after, dropped)
termination_by s.bytes.length

end ScanBuffer

end Turnstile

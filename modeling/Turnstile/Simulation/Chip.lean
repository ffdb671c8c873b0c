import Turnstile.Card.Checksum
import Turnstile.Reader.Session
import Turnstile.Simulation.Card
import Turnstile.Simulation.Registers

/-!
# A simulated reader chip

A chip with a buffer, interrupt flags, a checksum unit and perhaps a card before it,
to which faults can be done.

* `SimChip.read`, `SimChip.write`: the accesses that the bus makes.
* `SimChip.transmit`: what a card answers to a frame.
-/

namespace Turnstile

/-- A fault that is done to a chip once. -/
inductive SimFault where
  /-- The next exchange ends with error bits. -/
  | errorBits (bits : UInt8)
  /-- The next exchange or check of a key never ends. -/
  | stall
  /-- The next read of a block is cut short. -/
  | shortRead (length : Nat)
  /-- The next write of a block is refused. -/
  | writeNak
deriving DecidableEq, Repr

/-- A reader chip and what is before it. -/
structure SimChip where
  regs : Registers := .powerOn
  fifo : Bytes := []
  card : Option SimCard := none
  faults : List SimFault := []
  /-- The keys that were tried, newest first. -/
  attempts : List KeyKind := []
  selected : Bool := false
  /-- The block that the card awaits data for. -/
  awaiting : Option UInt8 := none
  broken : Bool := false

namespace SimChip

/-- The chip as it is when switched on; card, faults and attempts stay. -/
def reset (c : SimChip) : SimChip :=
  { c with regs := .powerOn, fifo := [], selected := false, awaiting := none }

/-- The value of a stored register. -/
def get (c : SimChip) (reg : UInt8) : UInt8 :=
  c.regs.get reg

/-- Stores a value in a register. -/
def set (c : SimChip) (reg value : UInt8) : SimChip :=
  { c with regs := c.regs.set reg value }

/-- Sets bits of a register. -/
def raise (c : SimChip) (reg mask : UInt8) : SimChip :=
  { c with regs := c.regs.raise reg mask }

/-- Whether an encrypted session is open. -/
def cryptoOn (c : SimChip) : Bool :=
  c.get Reg.status2 &&& 0x08 ≠ 0

/-- The first fault of a kind, and the chip without it. -/
def takeFault (c : SimChip) (kind : SimFault → Bool) : Option (SimFault × SimChip) :=
  (c.faults.find? kind).map fun f => (f, { c with faults := c.faults.eraseP kind })

/-- An answer of the card: octets, and how many bits of the last are valid if not all. -/
def respond (c : SimChip) (data : Bytes) (lastBits : UInt8) : SimChip :=
  ({ c with fifo := c.fifo ++ data }.set Reg.control lastBits).raise Reg.comIrq 0x30

/-- The card says nothing, and the timer runs out. -/
def silence (c : SimChip) : SimChip :=
  (c.set Reg.control 0).raise Reg.comIrq 0x01

/-- A frame whose first octets name a block. -/
def answerRead (c : SimChip) (card : SimCard) (block : UInt8) : SimChip :=
  let reply := Checksum.close (card.blocks block)
  match c.takeFault (fun f => f matches .shortRead _) with
  | some (.shortRead length, c) => c.respond (reply.take length) 0
  | _ => c.respond reply 0

/-- The card agrees to have a block written, or not. -/
def answerWrite (c : SimChip) (block : UInt8) : SimChip :=
  match c.takeFault (· = .writeNak) with
  | some (_, c) => c.respond [0x04] 4
  | none => { c with awaiting := some block }.respond [0x0A] 4

/-- The card receives the data for a block. -/
def answerData (c : SimChip) (card : SimCard) (block : UInt8) (frame : Bytes) : SimChip :=
  if frame.length = blockSize + 2 ∧ Checksum.closes frame then
    { c with card := some (card.setBlock block (frame.take blockSize)) }.respond [0x0A] 4
  else c.respond [0x04] 4

/-- What the card answers to a frame of which `lastBits` bits of the last octet were
sent. -/
def answer (c : SimChip) (card : SimCard) (lastBits : UInt8) (frame : Bytes) : SimChip :=
  match frame with
  | [command] =>
    if command = CardCommand.request ∧ lastBits = 7 then
      { c with selected := false }.respond [0x04, 0x00] 0
    else c.silence
  | [command, argument] =>
    if command = CardCommand.select ∧ argument = CardCommand.anticollision then
      c.respond (card.uid.bytes ++ [card.uid.check]) 0
    else c.silence
  | [command, block, _, _] =>
    if command = CardCommand.read ∧ c.cryptoOn ∧ Checksum.closes frame then c.answerRead card block
    else if command = CardCommand.write ∧ c.cryptoOn ∧ Checksum.closes frame then c.answerWrite block
    else c.silence
  | [command, argument, _, _, _, _, _, _, _] =>
    if command = CardCommand.select ∧ argument = CardCommand.selectAll ∧
        (frame.drop 2).take 5 = card.uid.bytes ++ [card.uid.check] ∧ Checksum.closes frame then
      { c with selected := true }.respond (Checksum.close [0x08]) 0
    else c.silence
  | _ => c.silence

/-- What comes of a frame that reaches the field. -/
def receive (c : SimChip) (lastBits : UInt8) (frame : Bytes) : SimChip :=
  match c.card with
  | none => c.silence
  | some card =>
    match c.awaiting with
    | some block => { c with awaiting := none }.answerData card block frame
    | none => c.answer card lastBits frame

/-- Sends what is buffered. -/
def transmit (c : SimChip) (lastBits : UInt8) : SimChip :=
  let frame := c.fifo
  let c := { c with fifo := [] }.set Reg.error 0
  match c.takeFault (· = .stall) with
  | some (_, c) => c
  | none =>
    match c.takeFault (fun f => f matches .errorBits _) with
    | some (.errorBits bits, c) => (c.set Reg.error bits).raise Reg.comIrq 0x32
    | _ => c.receive lastBits frame

/-- The key that an octet asks to be checked. -/
def keyOf? (command : UInt8) : Option KeyKind :=
  if command = KeyKind.a.command then some .a
  else if command = KeyKind.b.command then some .b
  else none

/-- Whether the card accepts the factory key as a certain key. -/
def accepts (card : SimCard) : KeyKind → Bool
  | .a => card.acceptsA
  | .b => card.acceptsB

/-- Checks the key that is buffered, for the card that is selected. -/
def checkKey (c : SimChip) (payload : Bytes) : SimChip :=
  if payload.length ≠ 12 then c
  else
    match payload.head?.bind keyOf? with
    | none => c
    | some kind =>
      let c := { c with attempts := kind :: c.attempts }
      match c.card with
      | none => c
      | some card =>
        if c.selected ∧ (payload.drop 2).take 6 = factoryKey ∧ accepts card kind ∧
            payload.drop 8 = card.uid.bytes then
          c.raise Reg.status2 0x08
        else c

/-- Checks a key, unless that stalls. -/
def authenticate (c : SimChip) : SimChip :=
  let payload := c.fifo
  let c := { c with fifo := [] }.set Reg.error 0
  match c.takeFault (· = .stall) with
  | some (_, c) => c
  | none => (c.raise Reg.comIrq 0x10).checkKey payload

/-- Computes the checksum of what is buffered. -/
def computeChecksum (c : SimChip) : SimChip :=
  let crc := Checksum.register c.fifo
  ((({ c with fifo := [] }.set Reg.crcLow crc.toUInt8).set Reg.crcHigh (crc >>> 8).toUInt8).raise
    Reg.divIrq 0x04)

/-- Starts a command; a transmission waits for its own signal. -/
def startCommand (c : SimChip) (command : UInt8) : SimChip :=
  if command = ReaderCommand.softReset then c.reset
  else if command = ReaderCommand.computeCrc then c.computeChecksum
  else if command = ReaderCommand.authenticate then c.authenticate
  else c

/-- The value of a flag register after a write: bit 7 says whether the other bits that
are set are raised or cleared. -/
def flagsAfter (current value : UInt8) : UInt8 :=
  let bits := value &&& 0x7F
  if value &&& 0x80 ≠ 0 then current ||| bits else current &&& ~~~bits

/-- Reads a register. -/
def read (c : SimChip) (reg : UInt8) : UInt8 × SimChip :=
  if reg = Reg.fifoData then
    match c.fifo with
    | [] => (0, c)
    | b :: bs => (b, { c with fifo := bs })
  else if reg = Reg.fifoLevel then (UInt8.ofNat c.fifo.length, c)
  else (c.get reg, c)

/-- Writes a register. -/
def write (c : SimChip) (reg value : UInt8) : SimChip :=
  if reg = Reg.comIrq ∨ reg = Reg.divIrq then c.set reg (flagsAfter (c.get reg) value)
  else if reg = Reg.fifoLevel then if value &&& 0x80 ≠ 0 then { c with fifo := [] } else c
  else if reg = Reg.fifoData then { c with fifo := c.fifo ++ [value] }
  else if reg = Reg.command then (c.set reg (value &&& 0x0F)).startCommand (value &&& 0x0F)
  else if reg = Reg.bitFraming then
    let c := c.set reg value
    if value &&& 0x80 ≠ 0 ∧ c.get Reg.command = ReaderCommand.transceive then
      c.transmit (value &&& 0x07)
    else c
  else c.set reg value

end SimChip

end Turnstile

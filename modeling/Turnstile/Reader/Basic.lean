import Turnstile.Card.Uid
import Turnstile.Log
import Turnstile.Register.Script
import Turnstile.Text.Utf8

/-!
# Reader operations

What a card reader is asked to do takes many register accesses, any of which may
fail. An `Operation` is a script of such accesses that ends with a result or with a
`CardError`.

* `Reg`, `ReaderCommand`: the registers and commands of a reader chip.
* `Operation.perform`: the outcome of an operation on a bus.
* `Operation.pollUntil`: a register is read until a flag shows, within a budget.
* `Operation.closing`: an operation that is always followed by another.
-/

namespace Turnstile

/-- Why an operation on a card failed. -/
inductive CardError where
  /-- No card answered. -/
  | noCard
  /-- The reader was not done within the poll budget. -/
  | timeout
  /-- The reader reported errors, as bits. -/
  | readerFault (bits : UInt8)
  /-- The card accepted neither key. -/
  | authFailed
  /-- The answer has the wrong length. -/
  | malformedAnswer (bytes bits : Nat)
  /-- The card refused to be written. -/
  | notAcknowledged
  /-- The reader could not be reached. -/
  | bus (e : BusError)
deriving DecidableEq, Repr

namespace CardError

/-- Whether the error just says that there is no card. -/
def isNoCard : CardError → Bool
  | noCard => true
  | _ => false

/-- The text of a card error. -/
def message : CardError → String
  | noCard => "no card in field"
  | timeout => "poll budget exhausted waiting for the reader"
  | readerFault bits => s!"reader error register 0x{Hex.octet bits}"
  | authFailed => "authentication failed with key A and key B"
  | malformedAnswer bytes bits => s!"malformed response ({bytes} bytes, {bits} bits)"
  | notAcknowledged => "card did not acknowledge write"
  | bus e => e.message

end CardError

/-- The two keys of a card. -/
inductive KeyKind where
  | a
  | b
deriving DecidableEq, Repr

/-- The letter of a key. -/
def KeyKind.label : KeyKind → String
  | .a => "A"
  | .b => "B"

/-- The octet that asks a card to check a key. -/
def KeyKind.command : KeyKind → UInt8
  | .a => 0x60
  | .b => 0x61

/-- What an operation leaves to be noted. -/
inductive Notice where
  /-- The reader was given time to settle. -/
  | settled (ms : Nat)
  | version (v : UInt8)
  | selected (uid : Uid) (answer : UInt8)
  | keyRejected (status : UInt8) (key : KeyKind) (block : UInt8)
  | budgetExhausted (command : UInt8)
deriving DecidableEq, Repr

/-- What the log says of a notice about the reader of one side. -/
def Notice.entries (role : Role) : Notice → List Entry
  | .settled _ => []
  | .version v => [⟨.info, s!"[{role.label}] RC522 VersionReg=0x{Hex.octet v}"⟩]
  | .selected uid answer => [⟨.debug, s!"[{role.label}] SELECT {uid.hex} SAK=0x{Hex.octet answer}"⟩]
  | .keyRejected status key block =>
    [⟨.debug, s!"[{role.label}] Status2=0x{Hex.octet status}, key {key.label} rejected on block {block.toNat}"⟩]
  | .budgetExhausted command =>
    [⟨.warn, s!"[{role.label}] reader command 0x{Hex.octet command} exhausted poll budget"⟩]

namespace Reg

abbrev command : UInt8 := 0x01
abbrev comIEn : UInt8 := 0x02
abbrev comIrq : UInt8 := 0x04
abbrev divIrq : UInt8 := 0x05
abbrev error : UInt8 := 0x06
abbrev status2 : UInt8 := 0x08
abbrev fifoData : UInt8 := 0x09
abbrev fifoLevel : UInt8 := 0x0A
abbrev control : UInt8 := 0x0C
abbrev bitFraming : UInt8 := 0x0D
abbrev mode : UInt8 := 0x11
abbrev txControl : UInt8 := 0x14
abbrev txAsk : UInt8 := 0x15
abbrev crcHigh : UInt8 := 0x21
abbrev crcLow : UInt8 := 0x22
abbrev timerMode : UInt8 := 0x2A
abbrev timerPrescaler : UInt8 := 0x2B
abbrev timerReloadHigh : UInt8 := 0x2C
abbrev timerReloadLow : UInt8 := 0x2D
abbrev version : UInt8 := 0x37

end Reg

namespace ReaderCommand

abbrev idle : UInt8 := 0x00
abbrev computeCrc : UInt8 := 0x03
abbrev transceive : UInt8 := 0x0C
abbrev authenticate : UInt8 := 0x0E
abbrev softReset : UInt8 := 0x0F

end ReaderCommand

namespace CardCommand

abbrev request : UInt8 := 0x26
abbrev select : UInt8 := 0x93
abbrev anticollision : UInt8 := 0x20
abbrev selectAll : UInt8 := 0x70
abbrev read : UInt8 := 0x30
abbrev write : UInt8 := 0xA0

end CardCommand

/-- A script of register accesses that ends with a result or an error. -/
abbrev Operation (α : Type) := ExceptT CardError (Script Notice) α

namespace Operation

variable {α σ : Type}

/-- The outcome of an operation on the reader of one side, the bus after it, and what
is to be noted. -/
def perform [RegisterBus σ] (role : Role) (op : Operation α) (s : σ) :
    Except CardError α × σ × List Notice :=
  op.run.run role s

/-- The outcome of one access. -/
def ofBus (r : Except BusError α) : Except CardError α :=
  match r with
  | .ok a => .ok a
  | .error e => .error (.bus e)

/-- Reads a register. -/
def readReg (reg : UInt8) : Operation UInt8 :=
  ExceptT.mk (.read reg fun r => .done (ofBus r))

/-- Writes a register. -/
def writeReg (reg value : UInt8) : Operation Unit :=
  ExceptT.mk (.write reg value fun r => .done (ofBus r))

/-- Leaves a notice. -/
def note (n : Notice) : Operation Unit :=
  ExceptT.mk (.note n (.done (.ok ())))

/-- Sets bits of a register. -/
def setBits (reg mask : UInt8) : Operation Unit := do
  let current ← readReg reg
  writeReg reg (current ||| mask)

/-- Clears bits of a register. -/
def clearBits (reg mask : UInt8) : Operation Unit := do
  let current ← readReg reg
  writeReg reg (current &&& ~~~mask)

/-- Writes octets to a register, one after another. -/
def writeAll (reg : UInt8) : Bytes → Operation Unit
  | [] => pure ()
  | b :: bs => do
    writeReg reg b
    writeAll reg bs

/-- Reads octets from a register, one after another. -/
def readMany (reg : UInt8) : Nat → Operation Bytes
  | 0 => pure []
  | n + 1 => do
    let b ← readReg reg
    let bs ← readMany reg n
    pure (b :: bs)

/-- Reads a register until one of the bits of `mask` is set, at most `budget` times:
whether one was. -/
def pollUntil (reg mask : UInt8) : Nat → Operation Bool
  | 0 => pure false
  | budget + 1 => do
    let value ← readReg reg
    if value &&& mask ≠ 0 then pure true else pollUntil reg mask budget

/-- An operation followed by another, whatever its outcome. If the other one fails
its error counts, else the outcome of the first. -/
def closing (op : Operation α) (last : Operation Unit) : Operation α :=
  ExceptT.mk do
    let outcome ← op.run
    match ← last.run with
    | .error e => pure (.error e)
    | .ok () => pure outcome

/-- An operation whose failures, those of the bus apart, mean that there is no card. -/
def absentUnlessBus (op : Operation α) : Operation α :=
  ExceptT.mk do
    match ← op.run with
    | .ok a => pure (.ok a)
    | .error (.bus e) => pure (.error (.bus e))
    | .error _ => pure (.error .noCard)

end Operation

end Turnstile

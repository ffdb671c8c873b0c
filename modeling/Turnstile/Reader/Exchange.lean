import Turnstile.Reader.Basic

/-!
# Exchanges with a card

* `Operation.communicate`: a command is started, awaited and its answer fetched.
* `Operation.checksum`: the reader computes the checksum of a frame.
-/

namespace Turnstile

/-- How often the interrupt flags are read while a command runs. -/
def commandBudget : Nat := 2000

/-- How often the flag is read while a checksum is computed. -/
def checksumBudget : Nat := 255

/-- How many octets a reader buffers. -/
def fifoCapacity : Nat := 64

/-- The answer of a card: its octets, and how many of its bits are valid. -/
structure Frame where
  data : Bytes
  bits : Nat
deriving DecidableEq, Repr

/-- The interrupts that end a command, the timer apart. -/
def waitMask (command : UInt8) : UInt8 :=
  if command = ReaderCommand.authenticate then 0x10 else 0x30

/-- The interrupts that are enabled for a command. -/
def enableMask (command : UInt8) : UInt8 :=
  if command = ReaderCommand.authenticate then 0x12 else 0x77

/-- The bits of the error register that spoil an exchange. -/
def errorMask : UInt8 := 0x1B

/-- How many bits an answer has: the last octet may be cut short. -/
def validBits (level lastBits : Nat) : Nat :=
  if lastBits ≠ 0 ∧ 0 < level then (level - 1) * 8 + lastBits else level * 8

namespace Operation

/-- Loads the buffer and starts a command. -/
def start (command : UInt8) (send : Bytes) : Operation Unit := do
  writeReg Reg.comIEn (enableMask command ||| 0x80)
  clearBits Reg.comIrq 0x80
  setBits Reg.fifoLevel 0x80
  writeReg Reg.command ReaderCommand.idle
  writeAll Reg.fifoData send
  writeReg Reg.command command
  if command = ReaderCommand.transceive then setBits Reg.bitFraming 0x80

/-- Waits for the end of a command. -/
def await (command : UInt8) : Operation Unit := do
  let ended ← pollUntil Reg.comIrq (waitMask command ||| 0x01) commandBudget
  clearBits Reg.bitFraming 0x80
  if !ended then
    note (.budgetExhausted command)
    throw .timeout

/-- Fetches the answer from the buffer. -/
def fetch : Operation Frame := do
  let level := min ((← readReg Reg.fifoLevel) &&& 0x7F).toNat fifoCapacity
  let data ← readMany Reg.fifoData level
  let lastBits := ((← readReg Reg.control) &&& 0x07).toNat
  pure ⟨data, validBits level lastBits⟩

/-- Runs a command on octets. Only a transmission has an answer. -/
def communicate (command : UInt8) (send : Bytes) : Operation Frame := do
  start command send
  await command
  let errors ← readReg Reg.error
  if errors &&& errorMask ≠ 0 then throw (.readerFault errors)
  if command = ReaderCommand.transceive then fetch else pure ⟨[], 0⟩

/-- Sends octets to the card and receives its answer. -/
def transceive (send : Bytes) : Operation Frame :=
  communicate ReaderCommand.transceive send

/-- Has the reader compute the checksum of octets, low octet first. -/
def checksum (data : Bytes) : Operation Bytes := do
  clearBits Reg.divIrq 0x04
  setBits Reg.fifoLevel 0x80
  writeAll Reg.fifoData data
  writeReg Reg.command ReaderCommand.computeCrc
  let ended ← pollUntil Reg.divIrq 0x04 checksumBudget
  if !ended then throw .timeout
  let low ← readReg Reg.crcLow
  let high ← readReg Reg.crcHigh
  pure [low, high]

/-- Octets followed by their checksum. -/
def closed (data : Bytes) : Operation Bytes := do
  let crc ← checksum data
  pure (data ++ crc)

end Operation

end Turnstile

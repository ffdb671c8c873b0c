import Turnstile.Card.UserText
import Turnstile.Reader.Exchange

/-!
# Sessions with a card

A reader is brought up, a card is found and selected, and one of its blocks is read
or written under a key.

* `Operation.identify`: which card is there.
* `Operation.authenticateDefault`: the factory key is tried as key A, then as key B.
* `Operation.readBlock`, `Operation.writeBlock`: the encrypted session is ended
  whatever becomes of the block.
-/

namespace Turnstile

/-- How long a reader settles after a reset, in milliseconds. -/
def settleMs : Nat := 50

/-- The key that cards come with. -/
def factoryKey : Bytes :=
  List.replicate 6 0xFF

namespace Operation

/-- Reads the version of the reader. -/
def version : Operation UInt8 :=
  readReg Reg.version

/-- Switches the antenna on, if it is not. -/
def antennaOn : Operation Unit := do
  let value ← readReg Reg.txControl
  if value &&& 0x03 ≠ 0x03 then writeReg Reg.txControl (value ||| 0x03)

/-- Resets the reader, sets its timer and modulation, and switches it on. -/
def init : Operation UInt8 := do
  writeReg Reg.command ReaderCommand.softReset
  note (.settled settleMs)
  writeReg Reg.timerMode 0x8D
  writeReg Reg.timerPrescaler 0x3E
  writeReg Reg.timerReloadLow 30
  writeReg Reg.timerReloadHigh 0
  writeReg Reg.txAsk 0x40
  writeReg Reg.mode 0x3D
  antennaOn
  let v ← version
  note (.version v)
  pure v

/-- Asks for a card, with a frame of seven bits: the two octets it answers. -/
def request : Operation Bytes := do
  writeReg Reg.bitFraming 0x07
  let frame ← absentUnlessBus (transceive [CardCommand.request])
  match frame.data with
  | [low, high] => pure [low, high]
  | _ => throw .noCard

/-- Asks the card for its identifier. -/
def anticollision : Operation Uid := do
  writeReg Reg.bitFraming 0x00
  let frame ← absentUnlessBus (transceive [CardCommand.select, CardCommand.anticollision])
  if frame.data.length < 5 then throw .noCard
  match Uid.ofBytes? frame.data with
  | some uid => pure uid
  | none => throw .noCard

/-- Selects a card; any octet in answer will do. -/
def select (uid : Uid) : Operation UInt8 := do
  let frame ← closed ([CardCommand.select, CardCommand.selectAll] ++ uid.bytes ++ [uid.check])
  let answer ← transceive frame
  match answer.data with
  | [] => throw (.malformedAnswer 0 answer.bits)
  | first :: _ =>
    note (.selected uid first)
    pure first

/-- Which card is there. -/
def identify : Operation Uid := do
  let _ ← request
  let uid ← anticollision
  let _ ← select uid
  pure uid

/-- Opens an encrypted session for a block; whether it is open shows in a status bit. -/
def authenticate (kind : KeyKind) (block : UInt8) (key : Bytes) (uid : Uid) : Operation Unit := do
  let _ ← communicate ReaderCommand.authenticate ([kind.command, block] ++ key ++ uid.bytes)
  let status ← readReg Reg.status2
  if status &&& 0x08 = 0 then
    note (.keyRejected status kind block)
    throw .authFailed

/-- Opens a session with the factory key as key A or, failing that, as key B. -/
def authenticateDefault (block : UInt8) (uid : Uid) : Operation Unit :=
  ExceptT.mk do
    match ← (authenticate .a block factoryKey uid).run with
    | .ok () => pure (.ok ())
    | .error (.bus e) => pure (.error (.bus e))
    | .error _ =>
      match ← (authenticate .b block factoryKey uid).run with
      | .ok () => pure (.ok ())
      | .error (.bus e) => pure (.error (.bus e))
      | .error _ => pure (.error .authFailed)

/-- Ends the encrypted session. -/
def stopCrypto : Operation Unit :=
  clearBits Reg.status2 0x08

/-- Reads a block within a session: sixteen octets and their checksum. -/
def readOpen (block : UInt8) : Operation Bytes := do
  let frame ← closed [CardCommand.read, block]
  let answer ← transceive frame
  if answer.bits - 16 ≠ blockSize * 8 ∨ answer.data.length < blockSize then
    throw (.malformedAnswer answer.data.length answer.bits)
  pure (answer.data.take blockSize)

/-- Reads a block. -/
def readBlock (block : UInt8) (uid : Uid) : Operation Bytes :=
  closing (do authenticateDefault block uid; readOpen block) stopCrypto

/-- Whether an answer is the four bits of an acknowledgement. -/
def isAck (frame : Frame) : Bool :=
  match frame.data with
  | first :: _ => frame.bits = 4 && first &&& 0x0F = 0x0A
  | [] => false

/-- Fails unless an answer is an acknowledgement. -/
def expectAck (frame : Frame) : Operation Unit :=
  if isAck frame then pure () else throw .notAcknowledged

/-- Writes a block within a session: the card agrees to the block, then to the data. -/
def writeOpen (block : UInt8) (data : Bytes) : Operation Unit := do
  let command ← closed [CardCommand.write, block]
  let answer ← transceive command
  expectAck answer
  let payload ← closed data
  let answer ← transceive payload
  expectAck answer

/-- Writes a block. -/
def writeBlock (block : UInt8) (uid : Uid) (data : Bytes) : Operation Unit :=
  closing (do authenticateDefault block uid; writeOpen block data) stopCrypto

end Operation

end Turnstile

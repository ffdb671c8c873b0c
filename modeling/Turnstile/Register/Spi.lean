import Turnstile.Register.Basic

/-!
# Registers over a serial bus

Both reader chips hang on one serial bus. An access to a register is one exchange of
two octets with the chip that is selected: the first names the register, the second
is its value, sent in a write and received in a read.

* `SpiBus.exchange`: an exchange with the device of one side.
* `SpiBus.read`, `SpiBus.write`: accesses to registers.
* `ScriptedDevice`: a device that answers reads from a list.
-/

namespace Turnstile

/-- What may go wrong in an exchange. -/
inductive SpiFault where
  | transfer (fault : TransferFault)
  /-- The device breaks down and takes the bus with it. -/
  | crash
deriving DecidableEq, Repr

/-- Something that exchanges two octets. -/
class SpiDevice (δ : Type) where
  transfer : δ → UInt8 × UInt8 → Except SpiFault (UInt8 × UInt8) × δ

/-- What was exchanged with the device of one side. -/
structure Exchange where
  role : Role
  sent : UInt8 × UInt8
  received : Except SpiFault (UInt8 × UInt8)

/-- A bus with a device at each side. -/
structure SpiBus (δ : Type) where
  devices : Sides δ
  /-- Whether a device broke down. -/
  poisoned : Bool := false
  /-- The exchanges so far, newest first. -/
  exchanges : List Exchange := []

namespace SpiBus

variable {δ : Type} [SpiDevice δ]

/-- Exchanges two octets with the device of one side. -/
def exchange (b : SpiBus δ) (role : Role) (sent : UInt8 × UInt8) :
    Except BusError (UInt8 × UInt8) × SpiBus δ :=
  if b.poisoned then (.error .poisoned, b)
  else
    match SpiDevice.transfer (b.devices.get role) sent with
    | (received, device) =>
      let b := { b with
        devices := b.devices.set role device
        exchanges := ⟨role, sent, received⟩ :: b.exchanges }
      match received with
      | .ok pair => (.ok pair, b)
      | .error (.transfer fault) => (.error (.transfer fault), b)
      | .error .crash => (.error .poisoned, { b with poisoned := true })

/-- Reads a register: the second octet received is its value. -/
def read (b : SpiBus δ) (role : Role) (reg : UInt8) : Except BusError UInt8 × SpiBus δ :=
  match b.exchange role (readAddress reg, 0) with
  | (r, b) => (r.map (·.2), b)

/-- Writes a register: what is received does not matter. -/
def write (b : SpiBus δ) (role : Role) (reg value : UInt8) : Except BusError Unit × SpiBus δ :=
  match b.exchange role (writeAddress reg, value) with
  | (r, b) => (r.map fun _ => (), b)

instance : RegisterBus (SpiBus δ) where
  read := read
  write := write

end SpiBus

/-- A device that answers reads of a register with the values of a list, the last of
them for ever, and fails at certain exchanges. -/
structure ScriptedDevice where
  answers : List (UInt8 × List UInt8) := []
  faults : List (Nat × SpiFault) := []
  /-- How many exchanges were made. -/
  count : Nat := 0

namespace ScriptedDevice

/-- The register that the first octet of an exchange names. -/
def registerOf (first : UInt8) : UInt8 :=
  (first >>> 1) &&& 0x3F

/-- What is left of a list of answers after one more. -/
def advance : List UInt8 → List UInt8
  | _ :: w :: vs => w :: vs
  | vs => vs

/-- The next answer for a register, and the answers after it. -/
def next (reg : UInt8) : List (UInt8 × List UInt8) → UInt8 × List (UInt8 × List UInt8)
  | [] => (0, [])
  | (r, vs) :: rest =>
    if r = reg then (vs.headD 0, (r, advance vs) :: rest)
    else
      match next reg rest with
      | (v, rest) => (v, (r, vs) :: rest)

/-- Exchanges two octets. What comes back during a write means nothing. -/
def transfer (d : ScriptedDevice) (sent : UInt8 × UInt8) :
    Except SpiFault (UInt8 × UInt8) × ScriptedDevice :=
  let after := { d with count := d.count + 1 }
  match d.faults.find? (·.1 = d.count) with
  | some (_, fault) => (.error fault, after)
  | none =>
    if sent.1 &&& 0x80 ≠ 0 then
      match next (registerOf sent.1) d.answers with
      | (v, answers) => (.ok (0, v), { after with answers })
    else (.ok (0xEE, 0xEE), after)

instance : SpiDevice ScriptedDevice where
  transfer := transfer

end ScriptedDevice

end Turnstile

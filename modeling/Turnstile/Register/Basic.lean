/-!
# Registers of the card readers

Two reader chips, one at each side of the turnstile, are worked by reading and
writing their registers. A `RegisterBus` is anything that carries out such accesses.

* `writeAddress`, `readAddress`: the octet that names a register on the wire.
* `BusError`: why an access fails.
-/

namespace Turnstile

/-- The two sides of the turnstile, each with a card reader. -/
inductive Role where
  | entry
  | exit
deriving DecidableEq, Repr

/-- The name of a side. -/
def Role.label : Role → String
  | .entry => "IN"
  | .exit => "OUT"

/-- Why a transfer failed. -/
inductive TransferFault where
  | overrun
  | modeFault
  | frameFormat
  | chipSelectFault
  | other
deriving DecidableEq, Repr

/-- The name of a transfer fault. -/
def TransferFault.label : TransferFault → String
  | .overrun => "Overrun"
  | .modeFault => "ModeFault"
  | .frameFormat => "FrameFormat"
  | .chipSelectFault => "ChipSelectFault"
  | .other => "Other"

/-- Why an access to a register failed. -/
inductive BusError where
  | transfer (fault : TransferFault)
  /-- The bus is out of use since a device broke down in the middle of a transfer. -/
  | poisoned
deriving DecidableEq, Repr

/-- The text of a bus error. -/
def BusError.message : BusError → String
  | .transfer fault => s!"SPI transfer failed: {fault.label}"
  | .poisoned => "SPI bus lock poisoned"

/-- Something that reads and writes the registers of both readers. -/
class RegisterBus (σ : Type) where
  read : σ → Role → UInt8 → Except BusError UInt8 × σ
  write : σ → Role → UInt8 → UInt8 → Except BusError Unit × σ

/-- The octet that starts a write of a register. -/
def writeAddress (reg : UInt8) : UInt8 :=
  (reg <<< 1) &&& 0x7E

/-- The octet that starts a read of a register. -/
def readAddress (reg : UInt8) : UInt8 :=
  (0x80 : UInt8) ||| ((reg <<< 1) &&& 0x7E)

/-- One thing for each side. -/
structure Sides (α : Type) where
  entry : α
  exit : α
deriving DecidableEq, Repr

namespace Sides

variable {α : Type}

/-- The one of a side. -/
def get (s : Sides α) : Role → α
  | .entry => s.entry
  | .exit => s.exit

/-- Puts another in the place of the one of a side. -/
def set (s : Sides α) (role : Role) (a : α) : Sides α :=
  match role with
  | .entry => { s with entry := a }
  | .exit => { s with exit := a }

@[simp] theorem get_set_self (s : Sides α) (role : Role) (a : α) : (s.set role a).get role = a := by
  cases role <;> rfl

theorem get_set_of_ne (s : Sides α) {role other : Role} (h : other ≠ role) (a : α) :
    (s.set role a).get other = s.get other := by
  cases role <;> cases other <;> simp_all [get, set]

end Sides

end Turnstile

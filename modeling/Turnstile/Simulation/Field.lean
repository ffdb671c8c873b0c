import Turnstile.Simulation.Chip

/-!
# Two simulated readers

The chips of both sides as a bus, and what can be done before them: cards come and
go, faults happen, a bus breaks.

* `Field.read`, `Field.write`: accesses, which fail once a bus is broken.
-/

namespace Turnstile

/-- The chips of both sides. -/
abbrev Field := Sides SimChip

namespace Field

/-- Two chips that were just switched on. -/
def new : Field :=
  ⟨{}, {}⟩

/-- Changes the chip of one side. -/
def modify (f : Field) (role : Role) (change : SimChip → SimChip) : Field :=
  f.set role (change (f.get role))

/-- Reads a register, unless the bus is broken. -/
def read (f : Field) (role : Role) (reg : UInt8) : Except BusError UInt8 × Field :=
  if (f.get role).broken then (.error (.transfer .other), f)
  else
    match (f.get role).read reg with
    | (value, chip) => (.ok value, f.set role chip)

/-- Writes a register, unless the bus is broken. -/
def write (f : Field) (role : Role) (reg value : UInt8) : Except BusError Unit × Field :=
  if (f.get role).broken then (.error (.transfer .other), f)
  else (.ok (), f.set role ((f.get role).write reg value))

instance : RegisterBus Field where
  read := read
  write := write

/-- A card comes before a reader. -/
def present (f : Field) (role : Role) (card : SimCard) : Field :=
  f.modify role fun c => { c with card := some card }

/-- The card before a reader goes. -/
def remove (f : Field) (role : Role) : Field :=
  f.modify role fun c => { c with card := none, selected := false }

/-- A fault is done to a reader. -/
def inject (f : Field) (role : Role) (fault : SimFault) : Field :=
  f.modify role fun c => { c with faults := c.faults ++ [fault] }

/-- The bus of a reader breaks for good. -/
def breakBus (f : Field) (role : Role) : Field :=
  f.modify role fun c => { c with broken := true }

/-- A block of the card before a reader. -/
def cardBlock? (f : Field) (role : Role) (block : UInt8) : Option Bytes :=
  (f.get role).card.map (·.blocks block)

end Field

end Turnstile

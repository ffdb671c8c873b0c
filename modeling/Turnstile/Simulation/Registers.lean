import Turnstile.Reader.Basic

/-!
# Stored registers

The registers of a simulated reader chip, those apart whose reads and writes do more
than store.

* `Registers.get_set`: a register holds what was stored in it last.
-/

namespace Turnstile

/-- The value of every register. -/
structure Registers where
  cells : Vector UInt8 256

namespace Registers

/-- The value of a register. -/
def get (r : Registers) (reg : UInt8) : UInt8 :=
  r.cells[reg.toFin]

/-- Stores a value in a register. -/
def set (r : Registers) (reg value : UInt8) : Registers :=
  ⟨r.cells.set reg.toFin value⟩

/-- Sets bits of a register. -/
def raise (r : Registers) (reg mask : UInt8) : Registers :=
  r.set reg (r.get reg ||| mask)

/-- All registers zero. -/
def blank : Registers :=
  ⟨Vector.replicate 256 0⟩

/-- The registers of a chip that was just switched on. -/
def powerOn : Registers :=
  (blank.set Reg.txControl 0x80).set Reg.version 0x92

theorem get_set (r : Registers) (reg other value : UInt8) :
    (r.set reg value).get other = if other = reg then value else r.get other := by
  have hn : reg.toNat = other.toNat ↔ other = reg := by rw [UInt8.toNat_inj]; exact eq_comm
  simp [get, set, Vector.getElem_set, hn]

end Registers

end Turnstile

import Turnstile.Card.Uid
import Turnstile.Card.UserText

/-!
# A simulated card

* `SimCard.setBlock`: writing a block changes no other.
-/

namespace Turnstile

/-- A block of zeros. -/
def blankBlock : Bytes :=
  List.replicate blockSize 0

/-- A card: its identifier, whether it accepts the factory key as key A and as key B,
and its blocks. -/
structure SimCard where
  uid : Uid
  acceptsA : Bool := true
  acceptsB : Bool := true
  blocks : UInt8 → Bytes := fun _ => blankBlock

namespace SimCard

/-- The card with a block replaced. -/
def setBlock (c : SimCard) (block : UInt8) (data : Bytes) : SimCard :=
  { c with blocks := fun b => if b = block then data else c.blocks b }

@[simp] theorem blocks_setBlock (c : SimCard) (block b : UInt8) (data : Bytes) :
    (c.setBlock block data).blocks b = if b = block then data else c.blocks b := rfl

@[simp] theorem uid_setBlock (c : SimCard) (block : UInt8) (data : Bytes) :
    (c.setBlock block data).uid = c.uid := rfl

end SimCard

end Turnstile

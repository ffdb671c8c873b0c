import Turnstile.Text.Hex

/-!
# Card identifiers

* `Uid.hex`: the form in which a card is named everywhere else.
-/

namespace Turnstile

/-- The identifier of a card: four octets. -/
structure Uid where
  b0 : UInt8
  b1 : UInt8
  b2 : UInt8
  b3 : UInt8
deriving DecidableEq, Repr

namespace Uid

/-- The octets, in the order in which the card sends them. -/
def bytes (u : Uid) : List UInt8 :=
  [u.b0, u.b1, u.b2, u.b3]

/-- The identifier made of the first four octets of an answer. -/
def ofBytes? : List UInt8 → Option Uid
  | b0 :: b1 :: b2 :: b3 :: _ => some ⟨b0, b1, b2, b3⟩
  | _ => none

/-- The octet that a card sends after its identifier, to check it. -/
def check (u : Uid) : UInt8 :=
  u.bytes.foldl (· ^^^ ·) 0

/-- Eight upper-case hexadecimal digits. -/
def hex (u : Uid) : String :=
  String.ofList (u.bytes.flatMap Hex.chars)

end Uid

end Turnstile

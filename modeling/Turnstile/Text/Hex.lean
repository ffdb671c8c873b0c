/-!
# Hexadecimal

Two upper-case digits per octet, the form in which octets appear in card
identifiers and in the log.
-/

namespace Turnstile.Hex

/-- The upper-case digit for a value below sixteen. -/
def digit (n : Nat) : Char :=
  if n < 10 then Char.ofNat (48 + n) else Char.ofNat (55 + n)

/-- The two digits of an octet. -/
def chars (b : UInt8) : List Char :=
  [digit (b.toNat / 16), digit (b.toNat % 16)]

/-- The two digits of an octet as a text. -/
def octet (b : UInt8) : String :=
  String.ofList (chars b)

end Turnstile.Hex

import Turnstile.Text.Utf8

/-!
# The octets of JSON text

Names for the octets that carry the structure of a document, and the white space
between its parts.
-/

namespace Turnstile.Json.Octet

/-- `"` -/
abbrev quote : UInt8 := 0x22

/-- `\` -/
abbrev backslash : UInt8 := 0x5C

/-- `,` -/
abbrev comma : UInt8 := 0x2C

/-- `:` -/
abbrev colon : UInt8 := 0x3A

/-- `[` -/
abbrev openBracket : UInt8 := 0x5B

/-- `]` -/
abbrev closeBracket : UInt8 := 0x5D

/-- `{` -/
abbrev openBrace : UInt8 := 0x7B

/-- `}` -/
abbrev closeBrace : UInt8 := 0x7D

/-- `-` -/
abbrev minus : UInt8 := 0x2D

/-- `+` -/
abbrev plus : UInt8 := 0x2B

/-- `.` -/
abbrev point : UInt8 := 0x2E

/-- `0` -/
abbrev zero : UInt8 := 0x30

/-- Whether an octet is white space between the parts of a document. -/
def isSpace (b : UInt8) : Bool :=
  b = 0x20 || b = 0x0A || b = 0x0D || b = 0x09

/-- Whether an octet is a decimal digit. -/
def isDigit (b : UInt8) : Bool :=
  0x30 ≤ b && b ≤ 0x39

/-- The value of a decimal digit. -/
def digitValue (b : UInt8) : Nat :=
  b.toNat - 0x30

/-- Whether an octet opens an exponent. -/
def isExponent (b : UInt8) : Bool :=
  b = 0x65 || b = 0x45

/-- The value of a hexadecimal digit. -/
def hexValue? (b : UInt8) : Option Nat :=
  if 0x30 ≤ b ∧ b ≤ 0x39 then some (b.toNat - 0x30)
  else if 0x61 ≤ b ∧ b ≤ 0x66 then some (b.toNat - 0x57)
  else if 0x41 ≤ b ∧ b ≤ 0x46 then some (b.toNat - 0x37)
  else none

/-- What follows the white space at the start. -/
def skipSpace (bs : Bytes) : Bytes :=
  bs.dropWhile isSpace

end Turnstile.Json.Octet

import Turnstile.Text.Blank
import Turnstile.Text.Utf8

/-!
# The text on a card

One block of a card holds a text about its user.

* `UserText.encode`: a text as a block, cut or filled up with spaces.
* `UserText.decode`: the text of a block, up to a zero octet and without the blanks
  around it.
-/

namespace Turnstile

/-- How many octets a block holds. -/
def blockSize : Nat := 16

/-- The block that holds the text about the user. -/
def userBlock : UInt8 := 8

namespace UserText

/-- The characters that do not count at the ends of a text. -/
def isPadding (c : Char) : Bool :=
  c = ' ' || c = '\t' || c = '\r' || c = '\n'

/-- The text of a block. -/
def decode (block : Bytes) : String :=
  String.ofList (Text.trim isPadding (Utf8.decodeLossy (block.takeWhile (· ≠ 0))).toList)

/-- A text as a block. -/
def encode (text : String) : Bytes :=
  let kept := (Utf8.encode text).take blockSize
  kept ++ List.replicate (blockSize - kept.length) 0x20

end UserText

end Turnstile

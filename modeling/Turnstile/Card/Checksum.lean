import Turnstile.Text.Utf8

/-!
# Frame checksums

The checksum of two octets that closes most frames between reader and card.

* `Checksum.of`: the checksum of octets, taken an octet at a time.
* `Checksum.closes`: whether a frame ends with the checksum of what precedes it.
-/

namespace Turnstile.Checksum

/-- The register after one more octet. -/
def step (crc : UInt16) (byte : UInt8) : UInt16 :=
  let c := byte ^^^ crc.toUInt8
  let c := (c ^^^ (c <<< 4)).toUInt16
  (crc >>> 8) ^^^ (c <<< 8) ^^^ (c <<< 3) ^^^ (c >>> 4)

/-- The register after some octets. -/
def register (bs : Bytes) : UInt16 :=
  bs.foldl step 0x6363

/-- The checksum of octets, low octet first. -/
def of (bs : Bytes) : Bytes :=
  [(register bs).toUInt8, (register bs >>> 8).toUInt8]

/-- Octets followed by their checksum. -/
def close (bs : Bytes) : Bytes :=
  bs ++ of bs

/-- Whether a frame of at least two octets ends with the checksum of the rest. -/
def closes (frame : Bytes) : Bool :=
  of (frame.take (frame.length - 2)) = frame.drop (frame.length - 2)

end Turnstile.Checksum

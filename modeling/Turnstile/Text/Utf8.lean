/-!
# UTF-8

Octets and the characters they stand for.

* `pieces`: the characters that octets spell, with `none` in place of each
  maximal run that cannot be part of a character.
* `decode?`: the text, if every octet belongs to a character.
* `decodeLossy`: the text with U+FFFD in place of each such run.
-/

namespace Turnstile

/-- Octets, in order. -/
abbrev Bytes := List UInt8

namespace Utf8

/-- A character whose first octets have been read. -/
structure Pending where
  /-- The bits gathered so far. -/
  value : Nat
  /-- The least octet that may come next. -/
  low : UInt8
  /-- The greatest octet that may come next. -/
  high : UInt8
  /-- How many octets follow the next one. -/
  left : Nat
deriving DecidableEq, Repr

/-- What an octet means where a character starts. -/
inductive Lead where
  | char (c : Char)
  | more (p : Pending)
  | stray
deriving DecidableEq, Repr

/-- Reads an octet where a character starts. The narrow ranges after `E0`, `ED`,
`F0` and `F4` rule out overlong forms, surrogates and values past U+10FFFF. -/
def lead (b : UInt8) : Lead :=
  if b < 0x80 then .char (Char.ofNat b.toNat)
  else if b < 0xC2 then .stray
  else if b < 0xE0 then .more ⟨b.toNat - 0xC0, 0x80, 0xBF, 0⟩
  else if b = 0xE0 then .more ⟨0, 0xA0, 0xBF, 1⟩
  else if b = 0xED then .more ⟨0xD, 0x80, 0x9F, 1⟩
  else if b < 0xF0 then .more ⟨b.toNat - 0xE0, 0x80, 0xBF, 1⟩
  else if b = 0xF0 then .more ⟨0, 0x90, 0xBF, 2⟩
  else if b < 0xF4 then .more ⟨b.toNat - 0xF0, 0x80, 0xBF, 2⟩
  else if b = 0xF4 then .more ⟨4, 0x80, 0x8F, 2⟩
  else .stray

/-- The characters spelled by octets that continue a pending character. -/
def piecesFrom : Option Pending → Bytes → List (Option Char)
  | none, [] => []
  | some _, [] => [none]
  | none, b :: bs =>
    match lead b with
    | .char c => some c :: piecesFrom none bs
    | .more p => piecesFrom (some p) bs
    | .stray => none :: piecesFrom none bs
  | some p, b :: bs =>
    if p.low ≤ b ∧ b ≤ p.high then
      let value := p.value * 64 + (b.toNat - 0x80)
      match p.left with
      | 0 => some (Char.ofNat value) :: piecesFrom none bs
      | left + 1 => piecesFrom (some ⟨value, 0x80, 0xBF, left⟩) bs
    else
      none :: match lead b with
        | .char c => some c :: piecesFrom none bs
        | .more p => piecesFrom (some p) bs
        | .stray => none :: piecesFrom none bs

/-- The characters spelled by octets, `none` for each maximal broken run. -/
def pieces (bs : Bytes) : List (Option Char) :=
  piecesFrom none bs

/-- The text, if the octets spell one. -/
def decode? (bs : Bytes) : Option String :=
  ((pieces bs).mapM id).map String.ofList

/-- The text with U+FFFD in place of each broken run. -/
def decodeLossy (bs : Bytes) : String :=
  String.ofList ((pieces bs).map (·.getD '\uFFFD'))

/-- The octets of a text. -/
def encode (s : String) : Bytes :=
  s.toList.flatMap String.utf8EncodeChar

/-- How many octets a character takes. -/
def width (c : Char) : Nat :=
  c.utf8Size

/-- The longest leading part of a text that fits in `room` octets and ends between
characters. -/
def fit (room : Nat) : List Char → List Char
  | [] => []
  | c :: cs => if width c ≤ room then c :: fit (room - width c) cs else []

end Utf8

end Turnstile

import Turnstile.Json.Basic
import Turnstile.Text.Utf8

/-!
# Writing documents

The compact text of a document: no white space, members in their order, and in
strings no escapes but those that JSON asks for.

* `Json.text`: the text of a document.
* `Json.bytes`: its octets.
-/

namespace Turnstile.Json

/-- The lower-case hexadecimal digit of a value below sixteen. -/
def hexDigit (n : Nat) : Char :=
  if n < 10 then Char.ofNat (48 + n) else Char.ofNat (87 + n)

/-- A character as it is written inside a string. -/
def escaped (c : Char) : List Char :=
  if c = '"' then ['\\', '"']
  else if c = '\\' then ['\\', '\\']
  else if c = '\x08' then ['\\', 'b']
  else if c = '\x0C' then ['\\', 'f']
  else if c = '\n' then ['\\', 'n']
  else if c = '\r' then ['\\', 'r']
  else if c = '\t' then ['\\', 't']
  else if c.toNat < 0x20 then ['\\', 'u', '0', '0', hexDigit (c.toNat / 16), hexDigit (c.toNat % 16)]
  else [c]

/-- A string with its quotes. -/
def quoted (s : String) : List Char :=
  '"' :: s.toList.flatMap escaped ++ ['"']

mutual

/-- The characters of a document. -/
def chars : Json → List Char
  | .null => ['n', 'u', 'l', 'l']
  | .bool true => ['t', 'r', 'u', 'e']
  | .bool false => ['f', 'a', 'l', 's', 'e']
  | .number n => n.chars
  | .string s => quoted s
  | .array xs => '[' :: itemChars xs
  | .object ms => '{' :: memberChars ms

/-- The characters of items, up to the closing bracket. -/
def itemChars : List Json → List Char
  | [] => [']']
  | [x] => chars x ++ [']']
  | x :: y :: xs => chars x ++ ',' :: itemChars (y :: xs)

/-- The characters of members, up to the closing brace. -/
def memberChars : List (String × Json) → List Char
  | [] => ['}']
  | [(name, x)] => quoted name ++ ':' :: chars x ++ ['}']
  | (name, x) :: m :: ms => quoted name ++ ':' :: chars x ++ ',' :: memberChars (m :: ms)

end

/-- The text of a document. -/
def text (j : Json) : String :=
  String.ofList j.chars

/-- The octets of a document. -/
def bytes (j : Json) : Bytes :=
  Utf8.encode j.text

end Turnstile.Json

import Turnstile.Decimal.Shortest
import Turnstile.Text.LeadingInt

/-!
# JSON documents

The values that messages, commands and settings are made of.

* `Json.get?`: the member of an object; of several of one name the last counts.
* `Number.toInt32`: a number as a 32-bit word, by its low bits.
-/

namespace Turnstile

/-- A number of a document: exact where it fits in 64 bits, else a double. -/
inductive Number where
  /-- The number `n`. -/
  | natural (n : Nat)
  /-- The number `-n`, for a positive `n`. -/
  | negative (n : Nat)
  | real (x : Double)
deriving DecidableEq, Repr

/-- A document. The members of an object stand in the order of the text, those of a
repeated name included. -/
inductive Json where
  | null
  | bool (b : Bool)
  | number (n : Number)
  | string (s : String)
  | array (items : List Json)
  | object (members : List (String × Json))
deriving Repr

namespace Number

/-- An integer as a number. -/
def ofInt : Int → Number
  | .ofNat n => .natural n
  | .negSucc n => .negative (n + 1)

/-- The text of a number. -/
def chars : Number → List Char
  | .natural n => Double.decimal n
  | .negative n => '-' :: Double.decimal n
  | .real x => x.text

/-- The text of a number as a string. -/
def text (n : Number) : String :=
  String.ofList n.chars

/-- The nearest 64-bit integer, toward zero. -/
def toInt64 : Number → Int
  | .natural n => min n 9223372036854775807
  | .negative n => -n
  | .real x => max (-9223372036854775808) (min x.truncate 9223372036854775807)

/-- The low 32 bits of the nearest 64-bit integer, as a signed word. -/
def toInt32 (n : Number) : Int :=
  Text.wrap32 n.toInt64

end Number

namespace Json

/-- An integer as a document. -/
def ofInt (n : Int) : Json :=
  .number (.ofInt n)

/-- The members of an object. -/
def members? : Json → Option (List (String × Json))
  | .object ms => some ms
  | _ => none

/-- The last of the members of one name. -/
def lastOf (name : String) (ms : List (String × Json)) : Option Json :=
  (ms.reverse.find? (·.1 = name)).map (·.2)

/-- The member of an object, the last one if the name is repeated. -/
def get? (j : Json) (name : String) : Option Json :=
  j.members?.bind (lastOf name)

/-- The text of a string. -/
def string? : Json → Option String
  | .string s => some s
  | _ => none

/-- The truth value of a boolean. -/
def bool? : Json → Option Bool
  | .bool b => some b
  | _ => none

end Json

end Turnstile

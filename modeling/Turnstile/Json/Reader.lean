import Turnstile.Json.Lexeme

/-!
# Reading documents

One grammar, read in two ways: into a `Json` value, or past a value that nobody
wants to know. A `Reading` says what is made of the parts.

* `items`, `entries`: the loops over arrays and objects.
* `value`: the grammar.
* `json`: a document of at most the given nesting.
* `skip`: a value of any nesting, passed over.
* `read`: a document that is all of the octets.
-/

namespace Turnstile.Json

open Octet

/-- Reads something from octets, within a nesting, and returns what follows. -/
abbrev Reader (α : Type) := Nat → Bytes → Except Fault (α × Bytes)

/-- How deeply a document may be nested. -/
def maxNesting : Nat := 127

variable {σ κ α : Type}

namespace Reader

/-- Reads items, separated by commas, up to the closing bracket. -/
def items (item : σ → Bytes → Except Fault (σ × Bytes)) :
    Nat → σ → Bytes → Except Fault (σ × Bytes)
  | 0, _, _ => .error .truncated
  | fuel + 1, s, bs =>
    match item s bs with
    | .error fault => .error fault
    | .ok (s, bs) =>
      match skipSpace bs with
      | [] => .error .truncated
      | b :: rest =>
        if b = closeBracket then .ok (s, rest)
        else if b = comma then items item fuel s rest
        else .error .malformed

/-- Reads an array from behind its opening bracket. Every item takes an octet at
least, so the octets bound their number. -/
def array (item : σ → Bytes → Except Fault (σ × Bytes)) (s : σ) (bs : Bytes) :
    Except Fault (σ × Bytes) :=
  match skipSpace bs with
  | [] => .error .truncated
  | b :: rest => if b = closeBracket then .ok (s, rest) else items item bs.length s (b :: rest)

/-- Reads entries, separated by commas, up to the closing brace. -/
def entries (entry : σ → Bytes → Except Fault (σ × Bytes)) :
    Nat → σ → Bytes → Except Fault (σ × Bytes)
  | 0, _, _ => .error .truncated
  | fuel + 1, s, bs =>
    match skipSpace bs with
    | [] => .error .truncated
    | b :: rest =>
      if b = quote then
        match entry s rest with
        | .error fault => .error fault
        | .ok (s, bs) =>
          match skipSpace bs with
          | [] => .error .truncated
          | b :: rest =>
            if b = closeBrace then .ok (s, rest)
            else if b = comma then entries entry fuel s rest
            else .error .malformed
      else .error .malformed

/-- Reads an object from behind its opening brace; `entry` reads from behind the
opening quote of a name. -/
def object (entry : σ → Bytes → Except Fault (σ × Bytes)) (s : σ) (bs : Bytes) :
    Except Fault (σ × Bytes) :=
  match skipSpace bs with
  | [] => .error .truncated
  | b :: rest => if b = closeBrace then .ok (s, rest) else entries entry bs.length s (b :: rest)

/-- Reads the colon between a name and its value. -/
def colon (bs : Bytes) : Except Fault Bytes :=
  match skipSpace bs with
  | [] => .error .truncated
  | b :: rest => if b = Octet.colon then .ok rest else .error .malformed

/-- What is made of the parts of a document: `κ` of its strings, `α` of its values. -/
structure Reading (κ α : Type) where
  /-- Reads a string from behind its opening quote. -/
  string : Bytes → Except Fault (κ × Bytes)
  /-- Reads a number from its first octet. -/
  number : Bytes → Except Fault (α × Bytes)
  null : α
  bool : Bool → α
  text : κ → α
  array : List α → α
  object : List (κ × α) → α

/-- The grammar of documents, nested at most as deeply as the number says. -/
def value (r : Reading κ α) : Reader α
  | depth, bs =>
    match skipSpace bs with
    | [] => .error .truncated
    | b :: rest =>
      if b = 0x6E then (Lexeme.word [0x75, 0x6C, 0x6C] rest).map (r.null, ·)
      else if b = 0x74 then (Lexeme.word [0x72, 0x75, 0x65] rest).map (r.bool true, ·)
      else if b = 0x66 then (Lexeme.word [0x61, 0x6C, 0x73, 0x65] rest).map (r.bool false, ·)
      else if b = minus || isDigit b then r.number (b :: rest)
      else if b = quote then (r.string rest).map fun (s, rest) => (r.text s, rest)
      else if b = openBracket then
        match depth with
        | 0 => .error .malformed
        | depth + 1 =>
          let item (xs : List α) (bs : Bytes) : Except Fault (List α × Bytes) :=
            (value r depth bs).map fun (x, rest) => (x :: xs, rest)
          (array item [] rest).map fun (xs, rest) => (r.array xs.reverse, rest)
      else if b = openBrace then
        match depth with
        | 0 => .error .malformed
        | depth + 1 =>
          let entry (xs : List (κ × α)) (bs : Bytes) : Except Fault (List (κ × α) × Bytes) :=
            match r.string bs with
            | .error fault => .error fault
            | .ok (name, bs) =>
              match colon bs with
              | .error fault => .error fault
              | .ok bs => (value r depth bs).map fun (x, rest) => ((name, x) :: xs, rest)
          (object entry [] rest).map fun (xs, rest) => (r.object xs.reverse, rest)
      else .error .malformed

/-- The parts made into a `Json` value. -/
def keeping : Reading String Json where
  string := Lexeme.string
  number bs := (Lexeme.number bs).map fun (n, rest) => (.number n, rest)
  null := .null
  bool := .bool
  text := .string
  array := .array
  object := .object

/-- The parts passed over. -/
def passing : Reading Unit Unit where
  string := Lexeme.skipString
  number := Lexeme.skipNumber
  null := ()
  bool _ := ()
  text _ := ()
  array _ := ()
  object _ := ()

/-- Reads any document. -/
def json : Reader Json :=
  value keeping

/-- Passes over a value. Each level of nesting takes an octet, so that the octets
bound the nesting. -/
def skip (bs : Bytes) : Except Fault Bytes :=
  (value passing bs.length bs).map (·.2)

end Reader

/-- Reads a document that is all of the octets. -/
def read (r : Reader α) (bs : Bytes) : Except Fault α :=
  match r maxNesting bs with
  | .error fault => .error fault
  | .ok (x, rest) => if (skipSpace rest).isEmpty then .ok x else .error .malformed

/-- The document that octets are. -/
def ofBytes (bs : Bytes) : Except Fault Json :=
  read Reader.json bs

end Turnstile.Json

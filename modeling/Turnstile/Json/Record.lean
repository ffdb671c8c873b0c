import Turnstile.Json.Reader

/-!
# Reading records

Records of known fields, read from an object by name or from an array by position.
A field that is missing keeps the value it has at the start; a member of another
name is passed over.

* `Field.of`: a field with a reader and a way to store what was read.
* `record`: the reader of a record.
* `text`, `bool`, `int`, `nat`: readers of one kind of
  value, to which any other document is a mismatch.
-/

namespace Turnstile.Json

open Octet

variable {α ρ : Type}

/-- A field of a record `ρ`. -/
structure Field (ρ : Type) where
  name : String
  read : ρ → Reader ρ

/-- The field that is read by `reader` and stored by `set`. -/
def Field.of (name : String) (reader : Reader α) (set : ρ → α → ρ) : Field ρ where
  name
  read s depth bs := (reader depth bs).map fun (x, rest) => (set s x, rest)

/-- Why a value of the wrong kind is refused, from its first octet on: it is a
mismatch, unless it is no value. -/
def refusal (bs : Bytes) : Fault :=
  match bs with
  | [] => .truncated
  | b :: _ =>
    if b = openBracket || b = openBrace then .mismatch
    else
      match Reader.value Reader.keeping 0 bs with
      | .ok _ => .mismatch
      | .error fault => fault

/-- Reads a value that starts with an octet of a certain kind, and refuses others. -/
def starting (starts : UInt8 → Bool) (reader : Bytes → Except Fault (α × Bytes)) (bs : Bytes) :
    Except Fault (α × Bytes) :=
  match skipSpace bs with
  | [] => .error .truncated
  | b :: rest => if starts b then reader (b :: rest) else .error (refusal (b :: rest))

namespace Reader

/-- Reads a string. -/
def text : Reader String := fun _ =>
  starting (· = quote) fun bs => Lexeme.string (bs.drop 1)

/-- Reads a boolean. -/
def bool : Reader Bool := fun _ =>
  starting (fun b => b = 0x74 || b = 0x66) fun bs =>
    if bs.head? = some 0x74 then (Lexeme.word [0x74, 0x72, 0x75, 0x65] bs).map (true, ·)
    else (Lexeme.word [0x66, 0x61, 0x6C, 0x73, 0x65] bs).map (false, ·)

/-- Reads an integer between two bounds. -/
def int (low high : Int) : Reader Int := fun _ =>
  starting (fun b => b = minus || isDigit b) fun bs =>
    match Lexeme.number bs with
    | .error fault => .error fault
    | .ok (.natural n, rest) => if (n : Int) ≤ high then .ok (n, rest) else .error .mismatch
    | .ok (.negative n, rest) => if low ≤ -(n : Int) then .ok (-n, rest) else .error .mismatch
    | .ok (.real _, _) => .error .mismatch

/-- Reads an integer of 32 bits. -/
def int32 : Reader Int :=
  int Text.int32Min Text.int32Max

/-- Reads a natural number up to a bound. -/
def nat (high : Nat) : Reader Nat := fun depth bs =>
  (int 0 high depth bs).map fun (n, rest) => (n.toNat, rest)

end Reader

/-- Reads fields by position, from behind the opening bracket or an item. -/
def positional (depth : Nat) : List (Field ρ) → Bool → ρ → Bytes → Except Fault (ρ × Bytes)
  | [], _, s, bs =>
    match skipSpace bs with
    | [] => .error .truncated
    | b :: rest => if b = closeBracket then .ok (s, rest) else .error .malformed
  | f :: fs, first, s, bs =>
    match skipSpace bs with
    | [] => .error .truncated
    | b :: rest =>
      if b = closeBracket then .ok (s, rest)
      else if first || b = comma then
        match f.read s depth (if first then b :: rest else rest) with
        | .error fault => .error fault
        | .ok (s, bs) => positional depth fs false s bs
      else .error .malformed

/-- Reads one member of an object, from behind the opening quote of its name. A field
that was seen before is a mismatch. -/
def member (fields : List (Field ρ)) (depth : Nat) (s : ρ × List String) (bs : Bytes) :
    Except Fault ((ρ × List String) × Bytes) :=
  match Lexeme.string bs with
  | .error fault => .error fault
  | .ok (name, bs) =>
    match fields.find? (·.name = name) with
    | some f =>
      if s.2.contains name then .error .mismatch
      else
        match Reader.colon bs with
        | .error fault => .error fault
        | .ok bs => (f.read s.1 depth bs).map fun (r, rest) => ((r, name :: s.2), rest)
    | none =>
      match Reader.colon bs with
      | .error fault => .error fault
      | .ok bs => (Reader.skip bs).map fun rest => (s, rest)

/-- Reads a record of fields, with `start` for what is missing. -/
def record (fields : List (Field ρ)) (start : ρ) : Reader ρ := fun depth bs =>
  match skipSpace bs with
  | [] => .error .truncated
  | b :: rest =>
    if b = openBracket then
      match depth with
      | 0 => .error .malformed
      | depth + 1 => positional depth fields true start rest
    else if b = openBrace then
      match depth with
      | 0 => .error .malformed
      | depth + 1 => (Reader.object (member fields depth) (start, []) rest).map fun (s, rest) => (s.1, rest)
    else .error (refusal (b :: rest))

end Turnstile.Json

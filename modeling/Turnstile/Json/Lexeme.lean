import Turnstile.Json.Basic
import Turnstile.Json.Fault
import Turnstile.Json.Octet

/-!
# Words, strings and numbers

The parts of a document that hold no other parts. Each reader takes the octets from
its first one on and returns what follows.

* `word`: the letters of `null`, `true` and `false`.
* `string`: a string whose escapes and octets must be text.
* `skipString`: a string that nobody wants to know, held to its quotes only.
* `number`: a number; integers are exact up to 64 bits.
* `skipNumber`: a number that nobody wants to know, of any size.
-/

namespace Turnstile.Json.Lexeme

open Octet

/-- Reads exactly the given octets. -/
def word : Bytes → Bytes → Except Fault Bytes
  | [], bs => .ok bs
  | _ :: _, [] => .error .truncated
  | e :: es, b :: bs => if b = e then word es bs else .error .malformed

/-- The octet that an escape of one letter stands for. -/
def shortEscape? (b : UInt8) : Option UInt8 :=
  if b = quote then some quote
  else if b = backslash then some backslash
  else if b = 0x2F then some 0x2F
  else if b = 0x62 then some 0x08
  else if b = 0x66 then some 0x0C
  else if b = 0x6E then some 0x0A
  else if b = 0x72 then some 0x0D
  else if b = 0x74 then some 0x09
  else none

/-- The value of four hexadecimal digits. -/
def hex4? (a b c d : UInt8) : Option Nat := do
  let a ← hexValue? a
  let b ← hexValue? b
  let c ← hexValue? c
  let d ← hexValue? d
  pure (((a * 16 + b) * 16 + c) * 16 + d)

/-- Whether a code unit is the first half of a pair. -/
def isHighSurrogate (n : Nat) : Bool :=
  0xD800 ≤ n && n ≤ 0xDBFF

/-- Whether a code unit is the second half of a pair. -/
def isLowSurrogate (n : Nat) : Bool :=
  0xDC00 ≤ n && n ≤ 0xDFFF

/-- The octets of the character that a pair of code units stands for. -/
def pair (high low : Nat) : Bytes :=
  String.utf8EncodeChar (Char.ofNat ((high - 0xD800) * 0x400 + (low - 0xDC00) + 0x10000))

/-- Puts octets in front of the content read. -/
def push (front : Bytes) (r : Except Fault (Bytes × Bytes)) : Except Fault (Bytes × Bytes) :=
  r.map fun (content, rest) => (front ++ content, rest)

/-- Reads the content of a string, from behind its opening quote to behind its
closing one, with escapes resolved. Code units of pairs must come in pairs. -/
def content : Bytes → Except Fault (Bytes × Bytes)
  | [] => .error .truncated
  | b :: bs =>
    if b = quote then .ok ([], bs)
    else if b = backslash then
      match bs with
      | [] => .error .truncated
      | e :: bs =>
        match shortEscape? e with
        | some c => push [c] (content bs)
        | none =>
          if e = 0x75 then
            match bs with
            | u1 :: u2 :: u3 :: u4 :: bs =>
              match hex4? u1 u2 u3 u4 with
              | none => .error .malformed
              | some n =>
                if isLowSurrogate n then .error .malformed
                else if isHighSurrogate n then
                  match bs with
                  | [] => .error .truncated
                  | [x] => if x = backslash then .error .truncated else .error .malformed
                  | x :: y :: bs =>
                    if x = backslash ∧ y = 0x75 then
                      match bs with
                      | v1 :: v2 :: v3 :: v4 :: bs =>
                        match hex4? v1 v2 v3 v4 with
                        | none => .error .malformed
                        | some m =>
                          if isLowSurrogate m then push (pair n m) (content bs)
                          else .error .malformed
                      | _ => .error .truncated
                    else .error .malformed
                else push (String.utf8EncodeChar (Char.ofNat n)) (content bs)
            | _ => .error .truncated
          else .error .malformed
    else if b < 0x20 then .error .malformed
    else push [b] (content bs)

/-- Reads a string from behind its opening quote. -/
def string (bs : Bytes) : Except Fault (String × Bytes) :=
  match content bs with
  | .error fault => .error fault
  | .ok (octets, rest) =>
    match Utf8.decode? octets with
    | some s => .ok (s, rest)
    | none => .error .malformed

/-- Passes over a string from behind its opening quote. Its octets need not be text,
and any four hexadecimal digits will do in an escape. -/
def skipString : Bytes → Except Fault (Unit × Bytes)
  | [] => .error .truncated
  | b :: bs =>
    if b = quote then .ok ((), bs)
    else if b = backslash then
      match bs with
      | [] => .error .truncated
      | e :: bs =>
        if (shortEscape? e).isSome then skipString bs
        else if e = 0x75 then
          match bs with
          | u1 :: u2 :: u3 :: u4 :: bs =>
            if (hex4? u1 u2 u3 u4).isSome then skipString bs else .error .malformed
          | _ => .error .truncated
        else .error .malformed
    else if b < 0x20 then .error .malformed
    else skipString bs

/-- Takes digits onto `value` while it does not pass `limit`: the value, how many
digits were taken, and the rest. -/
def takeDigits (limit : Nat) : Nat → Nat → Bytes → Nat × Nat × Bytes
  | value, count, [] => (value, count, [])
  | value, count, b :: bs =>
    if isDigit b ∧ value * 10 + digitValue b ≤ limit then
      takeDigits limit (value * 10 + digitValue b) (count + 1) bs
    else (value, count, b :: bs)

/-- How many digits stand at the start, and what follows them. -/
def countDigits (bs : Bytes) : Nat × Bytes :=
  ((bs.takeWhile isDigit).length, bs.dropWhile isDigit)

/-- The greatest significand. -/
def maxSignificand : Nat := 18446744073709551615

/-- The greatest exponent that is read as written. -/
def maxExponent : Nat := 2147483647

/-- A double from its parts; past the greatest one there is none. -/
def real (negative : Bool) (significand : Nat) (e : Int) (rest : Bytes) :
    Except Fault (Number × Bytes) :=
  match Double.scale? negative significand e with
  | some x => .ok (.real x, rest)
  | none => .error .malformed

/-- The sign of an exponent, and what follows it. -/
def exponentSign : Bytes → Bool × Bytes
  | [] => (false, [])
  | b :: bs => if b = minus then (true, bs) else if b = plus then (false, bs) else (false, b :: bs)

/-- Reads an exponent from behind its letter. One past 2^31 makes zero if it is
negative, or if the significand is zero. -/
def exponent (negative : Bool) (significand : Nat) (start : Int) (bs : Bytes) :
    Except Fault (Number × Bytes) :=
  let (below, bs) := exponentSign bs
  match bs with
  | [] => .error .truncated
  | b :: bs =>
    if isDigit b then
      let (e, _, bs) := takeDigits maxExponent (digitValue b) 0 bs
      let (excess, bs) := countDigits bs
      if excess = 0 then real negative significand (if below then start - e else start + e) bs
      else if significand ≠ 0 ∧ !below then .error .malformed
      else .ok (.real { Double.zero with negative }, bs)
    else .error .malformed

/-- Reads a fraction from behind its point. Digits past the greatest significand
count for nothing. -/
def fraction (negative : Bool) (significand : Nat) (start : Int) (bs : Bytes) :
    Except Fault (Number × Bytes) :=
  let (significand, taken, bs) := takeDigits maxSignificand significand 0 bs
  let (excess, bs) := countDigits bs
  if taken = 0 ∧ excess = 0 then .error (if bs.isEmpty then .truncated else .malformed)
  else
    match bs with
    | [] => real negative significand (start - taken) []
    | b :: rest =>
      if isExponent b then exponent negative significand (start - taken) rest
      else real negative significand (start - taken) (b :: rest)

/-- An integer that fits in 64 bits; zero with a sign does not. -/
def integer (negative : Bool) (n : Nat) : Number :=
  if !negative then .natural n
  else if 0 < n ∧ n ≤ 9223372036854775808 then .negative n
  else .real { Double.ofNat n with negative := true }

/-- Reads what follows the digits of the integer part, `excess` of which did not fit. -/
def afterInteger (negative : Bool) (n excess : Nat) : Bytes → Except Fault (Number × Bytes)
  | [] => if excess = 0 then .ok (integer negative n, []) else real negative n excess []
  | b :: bs =>
    if b = point then fraction negative n excess bs
    else if isExponent b then exponent negative n excess bs
    else if excess = 0 then .ok (integer negative n, b :: bs)
    else real negative n excess (b :: bs)

/-- Reads a number without its sign. -/
def magnitude (negative : Bool) : Bytes → Except Fault (Number × Bytes)
  | [] => .error .truncated
  | b :: bs =>
    if b = zero then
      if bs.head?.any isDigit then .error .malformed else afterInteger negative 0 0 bs
    else if isDigit b then
      let (n, _, bs) := takeDigits maxSignificand (digitValue b) 0 bs
      let (excess, bs) := countDigits bs
      afterInteger negative n excess bs
    else .error .malformed

/-- Reads a number. -/
def number : Bytes → Except Fault (Number × Bytes)
  | [] => .error .truncated
  | b :: bs => if b = minus then magnitude true bs else magnitude false (b :: bs)

/-- Passes over digits, of which there must be one. -/
def skipDigits (bs : Bytes) : Except Fault Bytes :=
  let (count, rest) := countDigits bs
  if count = 0 then .error .malformed else .ok rest

/-- Passes over an exponent, if there is one. -/
def skipExponent : Bytes → Except Fault Bytes
  | [] => .ok []
  | b :: bs => if isExponent b then skipDigits (exponentSign bs).2 else .ok (b :: bs)

/-- Passes over a fraction, if there is one, and an exponent. -/
def skipFraction : Bytes → Except Fault Bytes
  | [] => .ok []
  | b :: bs =>
    if b = point then
      match skipDigits bs with
      | .error fault => .error fault
      | .ok rest => skipExponent rest
    else skipExponent (b :: bs)

/-- Passes over a number without its sign. An end of input is no number either. -/
def skipMagnitude : Bytes → Except Fault (Unit × Bytes)
  | [] => .error .malformed
  | b :: bs =>
    if b = zero then
      if bs.head?.any isDigit then .error .malformed else (skipFraction bs).map ((), ·)
    else if isDigit b then (skipFraction (countDigits bs).2).map ((), ·)
    else .error .malformed

/-- Passes over a number. -/
def skipNumber : Bytes → Except Fault (Unit × Bytes)
  | [] => .error .malformed
  | b :: bs => if b = minus then skipMagnitude bs else skipMagnitude (b :: bs)

end Turnstile.Json.Lexeme

import Turnstile.Text.Utf8

/-!
# Debouncing

A card that lies on a reader, or a code in front of a scanner, is seen again and
again. An identifier that was let through is held back for a while when it is seen
again.

* `Debounce.see`: whether an identifier seen now goes through.
* `Debounce.stored`: identifiers are compared by as much as there is room for.
-/

namespace Turnstile

/-- What is remembered of the identifiers of one source. Times are in microseconds. -/
structure Debounce where
  /-- How long an identifier is held back after it went through. -/
  window : Nat
  /-- How many octets of an identifier are kept. -/
  capacity : Nat
  last : String := ""
  passedAt : Nat := 0
  present : Bool := false
deriving DecidableEq, Repr

namespace Debounce

/-- The window of cards, in milliseconds. -/
def cardWindowMs : Nat := 900

/-- The window of codes, in milliseconds. -/
def codeWindowMs : Nat := 1200

/-- How many octets of a card identifier are kept. -/
def cardCapacity : Nat := 15

/-- How many octets of a code are kept. -/
def codeCapacity : Nat := 255

/-- Nothing was seen yet. -/
def new (windowMs capacity : Nat) : Debounce :=
  { window := windowMs * 1000, capacity }

/-- For the cards of one reader. -/
def forCards : Debounce :=
  new cardWindowMs cardCapacity

/-- For the codes of a scanner. -/
def forCodes : Debounce :=
  new codeWindowMs codeCapacity

/-- What is kept of an identifier: as many whole characters as there is room for. -/
def stored (d : Debounce) (id : String) : String :=
  String.ofList (Utf8.fit d.capacity id.toList)

/-- Whether an identifier seen at `now` is held back. -/
def holdsBack (d : Debounce) (id : String) (now : Nat) : Bool :=
  d.last ≠ "" && d.last = d.stored id && decide (now - d.passedAt < d.window)

/-- Sees an identifier: whether it goes through. One that is held back changes
nothing. -/
def see (d : Debounce) (id : String) (now : Nat) : Bool × Debounce :=
  if d.holdsBack id now then (false, d)
  else (true, { d with last := d.stored id, passedAt := now, present := true })

/-- Nothing is there any more. What went through is still remembered. -/
def absent (d : Debounce) : Debounce :=
  { d with present := false }

end Debounce

end Turnstile

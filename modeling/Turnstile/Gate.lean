/-!
# Gate

One request for access at a time: whoever asks first holds the gate until the answer
comes. Answers get lost, so a hold that is too old gives way to the next who asks.

* `Gate.acquire?`: the gate is taken, unless a hold that is not too old stands.
* `Gate.release`: the hold ends.
-/

namespace Turnstile

/-- Who may ask for access. Times are in microseconds. -/
structure Gate where
  /-- How old a hold may be and still stand. -/
  patience : Nat
  held : Bool := false
  since : Nat := 0
deriving DecidableEq, Repr

namespace Gate

/-- The patience of the gate of a controller, in milliseconds. -/
def patienceMs : Nat := 3000

/-- A free gate. Its patience is a count of 64 bits and wraps like one. -/
def new (patienceMs : Nat) : Gate :=
  { patience := patienceMs * 1000 % 18446744073709551616 }

/-- Whether a hold stands at `now`. -/
def stands (g : Gate) (now : Nat) : Bool :=
  g.held && decide (now - g.since ≤ g.patience)

/-- The gate taken at `now`, if it can be. -/
def acquire? (g : Gate) (now : Nat) : Option Gate :=
  if g.stands now then none else some { g with held := true, since := now }

/-- Ends the hold. -/
def release (g : Gate) : Gate :=
  { g with held := false }

end Gate

end Turnstile

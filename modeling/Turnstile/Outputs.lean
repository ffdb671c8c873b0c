/-!
# Outputs

Pins that relays, doors, lights and the buzzer hang on. A pin is configured when it
is first used, and driven high or low by a driver that may refuse any call.

* `Outputs.pulse`: a pin is driven active, held, and driven inactive again.
* `Outputs.setLevel`: a pin is driven active for the state zero, else inactive.
* `Outputs.events`: what the driver carried out, with times.
-/

namespace Turnstile

/-- Pins are numbered from zero up to this. -/
def pinLimit : Int := 50

/-- A call to the driver of the pins. -/
inductive PinCall where
  | configure (pin : Int)
  | drive (pin : Int) (high : Bool)
deriving DecidableEq, Repr

/-- The pin that a call is about. -/
def PinCall.pin : PinCall → Int
  | .configure pin => pin
  | .drive pin _ => pin

/-- A call that was made, the time at which it was made, and whether the driver
refused it. -/
structure PinRecord where
  call : PinCall
  time : Nat
  refused : Bool
deriving DecidableEq, Repr

/-- Why an output was not driven. -/
inductive OutputError where
  | outOfRange (pin : Int)
  | configureFailed (pin : Int)
  | driveFailed (pin : Int)
deriving DecidableEq, Repr

/-- The text of an output error. -/
def OutputError.message : OutputError → String
  | .outOfRange pin => s!"GPIO {pin} out of range 0..{pinLimit}"
  | .configureFailed pin => s!"GPIO {pin} driver error: configure failed"
  | .driveFailed pin => s!"GPIO {pin} driver error: write failed"

/-- The pins and their driver. Times are in milliseconds. -/
structure Outputs where
  /-- Whether the driver refuses a call, given how many calls came before it. -/
  refuses : Nat → PinCall → Bool := fun _ _ => false
  /-- The calls so far, newest first. -/
  history : List PinRecord := []
  configured : List Int := []
  clock : Nat := 0

namespace Outputs

/-- Makes a call: whether the driver carried it out. -/
def call (o : Outputs) (c : PinCall) : Bool × Outputs :=
  let refused := o.refuses o.history.length c
  (!refused, { o with history := ⟨c, o.clock, refused⟩ :: o.history })

/-- Lets time pass. -/
def pause (o : Outputs) (ms : Nat) : Outputs :=
  { o with clock := o.clock + ms }

/-- Makes a pin ready for use, configuring it the first time. -/
def ensure (o : Outputs) (pin : Int) : Except OutputError Unit × Outputs :=
  if pin < 0 ∨ pinLimit ≤ pin then (.error (.outOfRange pin), o)
  else if o.configured.contains pin then (.ok (), o)
  else
    match o.call (.configure pin) with
    | (true, o) => (.ok (), { o with configured := pin :: o.configured })
    | (false, o) => (.error (.configureFailed pin), o)

/-- Drives a pin that is ready. -/
def drive (o : Outputs) (pin : Int) (high : Bool) : Except OutputError Unit × Outputs :=
  match o.call (.drive pin high) with
  | (true, o) => (.ok (), o)
  | (false, o) => (.error (.driveFailed pin), o)

/-- Drives a pin active for a while and inactive after that. -/
def pulse (o : Outputs) (pin : Int) (ms : Nat) (inverted : Bool) : Except OutputError Unit × Outputs :=
  match o.ensure pin with
  | (.error e, o) => (.error e, o)
  | (.ok (), o) =>
    match o.drive pin !inverted with
    | (.error e, o) => (.error e, o)
    | (.ok (), o) => (o.pause ms).drive pin inverted

/-- Drives a pin active if the state is zero, else inactive. -/
def setLevel (o : Outputs) (pin state : Int) (inverted : Bool) : Except OutputError Unit × Outputs :=
  match o.ensure pin with
  | (.error e, o) => (.error e, o)
  | (.ok (), o) => o.drive pin (if state = 0 then !inverted else inverted)

/-- The calls that the driver carried out, oldest first. -/
def events (o : Outputs) : List PinRecord :=
  (o.history.filter (!·.refused)).reverse

end Outputs

end Turnstile

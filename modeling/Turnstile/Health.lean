import Turnstile.Register.Basic
import Turnstile.Report

/-!
# Health of the readers

Whether the last exchange with a card went well, for each reader. Finding no card is
no exchange.

* `Health.state`: what a status report says of a reader.
* `Health.report`: the status report.
-/

namespace Turnstile

/-- How often the status is reported, in milliseconds. -/
def statusIntervalMs : Nat := 30000

/-- The signal strength that is reported without a network. -/
def rssiUnknown : Int := -999

/-- Whether the last exchange of each reader went well. -/
structure Health where
  ok : Sides Bool := ⟨true, true⟩
deriving DecidableEq, Repr

namespace Health

/-- Notes how an exchange went. -/
def record (h : Health) (role : Role) (ok : Bool) : Health :=
  ⟨h.ok.set role ok⟩

/-- What is reported of a reader. -/
def state (h : Health) (role : Role) (cardsEnabled : Bool) : ReaderState :=
  if !cardsEnabled then .disabled else if h.ok.get role then .ok else .fail

/-- The status report. -/
def report (h : Health) (deviceId : String) (cardsEnabled : Bool) (rssi : Int)
    (uptime freeHeap : Nat) : Report :=
  .status deviceId rssi uptime freeHeap (h.state .entry cardsEnabled) (h.state .exit cardsEnabled)

end Health

end Turnstile

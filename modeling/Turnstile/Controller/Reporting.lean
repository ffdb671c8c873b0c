import Turnstile.Controller.Basic

/-!
# Status reports

From time to time the controller tells the back office how it is, unless the link is down.

* `Controller.statusMessage`: the message that carries the report.
* `Controller.reportStatus`: a report is sent, if the link is up.
* `Controller.reportRound`: one round of the endless loop that reports.
-/

namespace Turnstile

/-- What is measured for a report. -/
structure Metrics where
  /-- The signal strength, if there is a network. -/
  signal : Option Int8
  freeHeap : UInt32
deriving DecidableEq, Repr

/-- The signal strength that is reported. -/
def Metrics.rssi (m : Metrics) : Int :=
  m.signal.elim rssiUnknown Int8.toInt

namespace Controller

variable {σ τ : Type}

/-- The status report, and the message that carries it. -/
def statusMessage (c : Controller σ τ) (rssi : Int) (uptime freeHeap : Nat) : Message :=
  let s := c.desk.current
  ⟨s.statusTopic, (c.health.report s.deviceId s.enableCards rssi uptime freeHeap).text, .atLeastOnce,
    true⟩

variable [Sink τ]

/-- Sends a report, if the link is up: the message that was sent. -/
def reportStatus (c : Controller σ τ) (m : Metrics) (now : Nat) : Option Message × Controller σ τ :=
  if c.link.isReady then
    let report := c.statusMessage m.rssi (now / 1000000) m.freeHeap.toNat
    (some report, { c with desk := (c.desk.send report).2 })
  else (none, c)

/-- One round of the endless loop that reports. It begins with a rest; `c` is the controller after
that, and `late` says how much longer than it was to be the rest was, in microseconds. The message
that was sent, and the time after the round. -/
def reportRound (c : Controller σ τ) (m : Metrics) (now late : Nat) :
    Option Message × Nat × Controller σ τ :=
  let now := now + statusIntervalMs * 1000 + late
  match c.reportStatus m now with
  | (sent, c) => (sent, now, c)

end Controller

end Turnstile

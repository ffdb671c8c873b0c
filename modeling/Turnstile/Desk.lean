import Turnstile.Gate
import Turnstile.Outbox
import Turnstile.Report
import Turnstile.Settings.Store

/-!
# Desk

Where access is asked for: the gate, the settings, the messages to the back office
and the log, which readers, scanner and commands share.

* `Desk.offer`: a request for access is sent, if the gate is free and the message is
  taken.
* `Desk.publish`: a report is sent, and the log tells of it.
-/

namespace Turnstile

/-- Where a request for access comes from. -/
inductive Source where
  | entry
  | exit
  | code
deriving DecidableEq, Repr

namespace Source

/-- The name of a source. -/
def label : Source → String
  | entry => "IN"
  | exit => "OUT"
  | code => "QR"

/-- The source of a name. -/
def ofLabel? (name : String) : Option Source :=
  if name = "IN" then some .entry
  else if name = "OUT" then some .exit
  else if name = "QR" then some .code
  else none

end Source

/-- What became of a request for access. -/
inductive Offer where
  | published
  | gateBusy
  | queueFull
deriving DecidableEq, Repr

/-- What readers, scanner and commands share. -/
structure Desk (τ : Type) where
  gate : Gate := .new Gate.patienceMs
  settings : SettingsStore
  outbox : τ
  journal : Journal := {}

namespace Desk

variable {τ : Type}

/-- Adds entries to the log. -/
def log (d : Desk τ) (entries : List Entry) : Desk τ :=
  { d with journal := d.journal.append entries }

/-- Adds an entry to the log. -/
def note (d : Desk τ) (level : Level) (text : String) : Desk τ :=
  { d with journal := d.journal.note level text }

/-- The settings in force. -/
def current (d : Desk τ) : Settings :=
  d.settings.current

variable [Sink τ]

/-- Sends a message: whether it was taken. -/
def send (d : Desk τ) (m : Message) : Bool × Desk τ :=
  match Sink.send d.outbox m with
  | (verdict, outbox) => (verdict = .taken, { d with outbox }.log (verdict.entries m.topic))

/-- Asks for access: sends a request if the gate is free, and frees the gate again if
the request is not taken. -/
def offer (d : Desk τ) (source : Source) (id user : String) (now : Nat) : Offer × Desk τ :=
  match d.gate.acquire? now with
  | none => (.gateBusy, d.note .warn s!"{source.label} -> {id} ignored, waiting for hasAccess")
  | some gate =>
    let s := d.current
    let request : Report := .accessRequest source.label id user s.deviceId s.turnstileId
    match { d with gate }.send ⟨s.responseTopic, request.text, .atLeastOnce, false⟩ with
    | (true, d) => (.published, d.note .info s!"{source.label} -> id={id} user='{user}' (published)")
    | (false, d) =>
      (.queueFull, { d with gate := d.gate.release }.note .warn
        s!"{source.label} -> {id} dropped, getAccessTorn not queued")

/-- Sends a report; `what` names it in the log if it is not taken. -/
def publish (d : Desk τ) (topic : String) (r : Report) (delivery : Delivery) (what : String) : Desk τ :=
  let payload := r.text
  match (d.note .debug s!"MQTT enqueue -> topic='{topic}' payload={payload}").send
      ⟨topic, payload, delivery, false⟩ with
  | (true, d) => d
  | (false, d) => d.note .warn s!"{what} not queued"

end Desk

end Turnstile

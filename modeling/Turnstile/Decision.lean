import Turnstile.Command
import Turnstile.Desk
import Turnstile.Outputs

/-!
# Decisions on access

The back office answers a request for access. The gate is freed, the turnstile is
opened or the buzzer sounds, and the answer is confirmed in any case.

* `isGranted`: the answers that grant access.
* `Decision.work`: what the outputs do about an answer.
* `Desk.carryOut`: a decision is carried out and confirmed.
-/

namespace Turnstile

/-- A text with its ASCII capitals made small. -/
def lowerAscii (s : String) : List Char :=
  s.toList.map Char.toLower

/-- Whether an answer grants access: `true` or `ok` in any case, or `1`. -/
def isGranted (result : String) : Bool :=
  lowerAscii result = "true".toList || result = "1" || lowerAscii result = "ok".toList

namespace Decision

/-- Sounds the buzzer twice. -/
def beepTwice (s : Settings) (o : Outputs) : Except OutputError Unit × Outputs :=
  match o.pulse s.outputs.buzzer s.timing.buzzer s.polarity.buzzer with
  | (.error e, o) => (.error e, o)
  | (.ok (), o) => (o.pause s.timing.buzzerGap).pulse s.outputs.buzzer s.timing.buzzer s.polarity.buzzer

/-- What the outputs do about an answer, and what the log says of it. -/
def work (s : Settings) (granted : Bool) (kind : String) (o : Outputs) :
    (Except OutputError Unit × Outputs) × Entry :=
  if granted then
    match Source.ofLabel? kind with
    | some .entry =>
      (o.pulse s.outputs.relayIn s.timing.relay s.polarity.relayIn,
        ⟨.info, "Access granted (IN), opening entry"⟩)
    | some .exit =>
      (o.pulse s.outputs.relayOut s.timing.relay s.polarity.relayOut,
        ⟨.info, "Access granted (OUT), opening exit"⟩)
    | _ => ((.ok (), o), ⟨.warn, s!"hasAccess granted for unhandled type '{kind}'"⟩)
  else (beepTwice s o, ⟨.info, "Access denied, sounding buzzer"⟩)

end Decision

namespace Desk

variable {τ : Type} [Sink τ]

/-- Carries out a decision and confirms it: whether access was granted. -/
def carryOut (d : Desk τ) (o : Outputs) (c : Command) : Bool × Desk τ × Outputs :=
  let d := d.note .info s!"hasAccess: result={c.result} type={c.kind} idPeticion={c.requestId}"
  let d := { d with gate := d.gate.release }
  let granted := isGranted c.result
  match Decision.work d.current granted c.kind o with
  | ((outcome, o), entry) =>
    let d := d.log [entry]
    let d := match outcome with
      | .ok () => d
      | .error e => d.note .warn s!"hasAccess actuator failed: {e.message}"
    let confirmation : Report := .accessConfirmed c.requestId granted c.kind
    match d.send ⟨d.current.responseTopic, confirmation.text, .atLeastOnce, false⟩ with
    | (true, d) => (granted, d, o)
    | (false, d) => (granted, d.note .warn "retornoAccessTorn not queued", o)

end Desk

end Turnstile

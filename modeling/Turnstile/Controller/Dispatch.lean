import Turnstile.Controller.Polling

/-!
# Carrying out commands

Every command is carried out to its end before the next. What drives an output is
answered whether or not the output could be driven.

* `Action.drive`: what an action does to an output.
* `Controller.dispatch`: carries out a command, up to where a card is to be written.
* `Controller.endWrite`: what follows when a card was written, or was not.
-/

namespace Turnstile

/-- The state that an interactive switch is set to: the toggling state sets it to one. -/
def switchState (state : Int) : Int :=
  if state = 2 then 1 else state

/-- What an action does to an output: what is done, and the answer to it. -/
structure Drive where
  act : Outputs → Except OutputError Unit × Outputs
  answer : String
  report : Report

/-- What an action does to an output under given settings, if it does anything. -/
def Action.drive? (s : Settings) (c : Command) : Action → Option Drive
  | .lightPulse => some
    { act := (·.pulse c.pin s.timing.push false)
      answer := "retornoLuz"
      report := .courtOutput "retornoLuz" c.pin c.state c.court c.requestId }
  | .lightSwitch => some
    { act := (·.setLevel c.pin (switchState c.state) s.polarity.switch)
      answer := "retornoLuz"
      report := .courtOutput "retornoLuz" c.pin (switchState c.state) c.court c.requestId }
  | .pulse => some (plain "retornoPulsador" (·.pulse c.pin s.timing.push false))
  | .invertedPulse => some (plain "retornoPulsador" (·.pulse c.pin s.timing.push s.polarity.horn))
  | .switch => some
    (plain "retornoInterruptor" (·.setLevel c.pin (switchState c.state) s.polarity.switch))
  | .openDoor => some
    (plain "retornoObrirPorta" (·.pulse c.pin s.timing.push s.polarity.entryDoor))
  | .openMaterialDoor => some
    (plain "retornoObrirPortaMaterial"
      (·.pulse c.pin s.timing.materialDoor s.polarity.materialDoor))
  | .openSalesDoor => some (plain "retornoObrirPortaVenta" (·.pulse c.pin s.timing.push false))
  | _ => none
where
  /-- An output that is answered by its pin alone. -/
  plain (answer : String) (act : Outputs → Except OutputError Unit × Outputs) : Drive :=
    { act, answer, report := .output answer c.pin c.requestId }

/-- How far a command was carried out. -/
inductive Dispatched (σ τ : Type) where
  | done (c : Controller σ τ)
  /-- A card is to be written first. -/
  | writing (request : WriteRequest) (c : Controller σ τ)

namespace Controller

variable {σ τ : Type}

/-- Carries out a change of an output, which may fail. -/
def act (c : Controller σ τ) (act : Outputs → Except OutputError Unit × Outputs) : Controller σ τ :=
  match act c.outputs with
  | (.ok (), outputs) => { c with outputs }
  | (.error e, outputs) => { c with outputs }.note .warn s!"Actuator command failed: {e.message}"

/-- Reads what is to be written on a card. -/
def beginWrite (c : Controller σ τ) (raw : String) : Option WriteRequest × Controller σ τ :=
  match WriteRequest.ofText? raw with
  | none => (none, c.note .warn "writeCard: 'idUser' or 'idPeticion' missing")
  | some request =>
    (some request,
      c.note .info s!"writeCard: idUser='{request.user}' idPeticion='{request.requestId}'")

variable [Sink τ]

/-- Sends a report on the topic for answers. -/
def respond (c : Controller σ τ) (r : Report) (delivery : Delivery) (what : String) :
    Controller σ τ :=
  { c with desk := c.desk.publish c.desk.current.responseTopic r delivery what }

/-- Changes settings and says which are in force then, whether they could be stored or
not. -/
def changeSettings (c : Controller σ τ) (raw : String) : Controller σ τ :=
  match SettingsRequest.ofText noRequestId raw with
  | .error fault => c.note .warn s!"setConfig: invalid JSON: {fault.label}"
  | .ok request =>
    let c := match request.patch with
      | none => c.note .warn "setConfig: 'config' is not an object"
      | some patch =>
        match c.desk.settings.update patch.apply with
        | (outcome, settings, entries) =>
          let c := { c with desk := { c.desk with settings }.log entries }
          match outcome with
          | .ok () => c
          | .error e => c.note .error s!"setConfig: saving config failed: {e.message}"
    let s := c.desk.current
    c.respond (.settingsReceived "retornoSetConfig" true s.enableCards s.enableQr request.requestId
      s.deviceId) .atLeastOnce "retornoSetConfig"

/-- Says which card was written, if one was. -/
def endWrite (c : Controller σ τ) (request : WriteRequest) (written : Option Uid) :
    Controller σ τ :=
  c.respond (.cardWritten written.isSome ((written.map Uid.hex).getD "") request.user
    request.requestId) .atLeastOnce "retornoWriteCard"

/-- What the log says of a command to update the firmware. -/
def updateEntries (command : Command) : List Entry :=
  match command.url with
  | none => [⟨.warn, "otaUpdate without 'url', ignored"⟩]
  | some url =>
    [⟨.info, s!"otaUpdate requested: url={url} idPeticion={command.requestId}"⟩,
      ⟨.warn, "Firmware update over the air is not supported"⟩]

/-- Refuses to update the firmware, if a command says from where. -/
def refuseUpdate (c : Controller σ τ) (command : Command) : Controller σ τ :=
  let c := c.log (updateEntries command)
  match command.updateRefusal? c.desk.current.deviceId with
  | none => c
  | some r => c.respond r .atLeastOnce "retornoOta"

/-- Carries out a command. A command to write a card waits for the reader at the exit;
`endWrite` goes on from there. -/
def dispatch (c : Controller σ τ) (command : Command) : Dispatched σ τ :=
  let c := c.note .info
    s!"Command '{command.action}' pin={command.pin} idPeticion={command.requestId}"
  let s := c.desk.current
  match command.request with
  | .reportSettings =>
    .done (c.respond (.settings "retornoConfig" s.enableCards s.enableQr s.deviceId s.turnstileId
      command.requestId) .atLeastOnce "retornoConfig")
  | .changeSettings => .done (c.changeSettings command.raw)
  | .reportPresence =>
    .done (c.respond (.presence "status" true s.deviceId command.requestId) .atMostOnce "status")
  | .writeCard =>
    match c.beginWrite command.raw with
    | (none, c) => .done c
    | (some request, c) => .writing request c
  | .decideAccess =>
    match c.desk.carryOut c.outputs command with
    | (_, desk, outputs) => .done { c with desk, outputs }
  | .updateFirmware => .done (c.refuseUpdate command)
  | .unknown name => .done (c.note .warn s!"Unknown action '{name}'")
  | action =>
    match action.drive? s command with
    | none => .done c
    | some drive => .done ((c.act drive.act).respond drive.report .atMostOnce drive.answer)

end Controller

end Turnstile

import Turnstile.Json.Record
import Turnstile.Report

/-!
# Commands

What the back office asks of the controller: a JSON object, or an array of its fields
in order. Its fields are read leniently: a value of another type counts as missing,
and numbers may be written as texts.

* `Command.ofBytes`: the command that octets spell.
* `Action.ofName`: what a command asks for.
* `WriteRequest.ofText?`: the second reading of a command to write a card.
-/

namespace Turnstile

/-- The request identifier of a command that has none. -/
def noRequestId : String := "-"

/-- What a command asks for. -/
inductive Action where
  | lightPulse
  | lightSwitch
  | pulse
  | invertedPulse
  | switch
  | openDoor
  | openMaterialDoor
  | openSalesDoor
  | reportSettings
  | changeSettings
  | reportPresence
  | writeCard
  | decideAccess
  | updateFirmware
  | unknown (name : String)
deriving DecidableEq, Repr

/-- The action of a name. -/
def Action.ofName (name : String) : Action :=
  if name = "pulsadorLuz" then .lightPulse
  else if name = "interruptorLuz" then .lightSwitch
  else if name = "pulsador" then .pulse
  else if name = "pulsadorInverso" then .invertedPulse
  else if name = "interruptor" then .switch
  else if name = "obrirPorta" then .openDoor
  else if name = "obrirPortaMaterial" then .openMaterialDoor
  else if name = "obrirPortaVenta" then .openSalesDoor
  else if name = "getConfig" then .reportSettings
  else if name = "setConfig" then .changeSettings
  else if name = "status_now" then .reportPresence
  else if name = "writeCard" then .writeCard
  else if name = "hasAccess" then .decideAccess
  else if name = "otaUpdate" then .updateFirmware
  else .unknown name

/-- A command as received. -/
structure Command where
  action : String := ""
  pin : Int := 0
  state : Int := 0
  court : Int := 0
  requestId : String := noRequestId
  result : String := ""
  kind : String := ""
  url : Option String := none
  /-- The text of the whole command; some commands are read from it a second time. -/
  raw : String := ""
deriving DecidableEq, Repr

namespace Command

/-- The text of a string; a value of another type counts for `other`. -/
def stringOr (other : String) (j : Json) : String :=
  j.string?.getD other

/-- The integer of a number, or at the start of a text; zero for another type. -/
def lenientInt : Json → Int
  | .number n => n.toInt32
  | .string s => Text.leadingInt s
  | _ => 0

/-- The fields of a command, in their order in an array. -/
def fields : List (Json.Field Command) :=
  [.of "action" Json.Reader.json fun c j => { c with action := stringOr "" j },
   .of "pin" Json.Reader.json fun c j => { c with pin := lenientInt j },
   .of "estat" Json.Reader.json fun c j => { c with state := lenientInt j },
   .of "idPista" Json.Reader.json fun c j => { c with court := lenientInt j },
   .of "idPeticion" Json.Reader.json fun c j => { c with requestId := stringOr noRequestId j },
   .of "result" Json.Reader.json fun c j => { c with result := stringOr "" j },
   .of "type" Json.Reader.json fun c j => { c with kind := stringOr "" j },
   .of "url" Json.Reader.json fun c j => { c with url := j.string? }]

/-- The command that octets spell. -/
def ofBytes (bs : Bytes) : Except Json.Fault Command :=
  (Json.read (Json.record fields {}) bs).map fun c => { c with raw := Utf8.decodeLossy bs }

/-- What the command asks for. -/
def request (c : Command) : Action :=
  .ofName c.action

/-- The answer to a command to update the firmware, which is always a refusal. A
command without an address gets none. -/
def updateRefusal? (c : Command) (deviceId : String) : Option Report :=
  c.url.map fun url => .firmwareUpdate "retornoOta" false deviceId c.requestId url

end Command

/-- A command to write a card, as read the second time. -/
structure WriteRequest where
  user : String
  requestId : String
deriving DecidableEq, Repr

/-- Reads what to write on a card; both fields must be strings. -/
def WriteRequest.ofText? (raw : String) : Option WriteRequest :=
  match Json.ofBytes (Utf8.encode raw) with
  | .error _ => none
  | .ok j => do
    let user ← (← j.get? "idUser").string?
    let requestId ← (← j.get? "idPeticion").string?
    pure ⟨user, requestId⟩

end Turnstile

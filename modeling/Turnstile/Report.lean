import Turnstile.Json.Writer

/-!
# Reports

What the controller tells the back office: a request for access, and the answers to
its commands. Each is one flat JSON object whose first member names it.

* `Report.toJson`: the object.
* `Report.text`: the payload of the message.
-/

namespace Turnstile

/-- What is known of a reader in a status report. -/
inductive ReaderState where
  | disabled
  | ok
  | fail
deriving DecidableEq, Repr

/-- The word for the state of a reader. -/
def ReaderState.label : ReaderState → String
  | .disabled => "DISABLED"
  | .ok => "OK"
  | .fail => "FAIL"

/-- The version that the controller reports of itself. -/
def firmwareVersion : String := "1.0.0"

/-- A report to the back office. Those that answer several commands carry the name of
the answer. -/
inductive Report where
  /-- Somebody asks to pass. -/
  | accessRequest (kind cardId user deviceId turnstileId : String)
  /-- A decision on access was carried out. -/
  | accessConfirmed (requestId : String) (granted : Bool) (kind : String)
  /-- A card was written, or not. -/
  | cardWritten (ok : Bool) (uid user requestId : String)
  /-- An output was driven. -/
  | output (action : String) (pin : Int) (requestId : String)
  /-- An output of a court was driven. -/
  | courtOutput (action : String) (pin state court : Int) (requestId : String)
  /-- The settings that the back office may change. -/
  | settings (action : String) (enableCards enableQr : Bool) (deviceId turnstileId requestId : String)
  /-- Settings were received. -/
  | settingsReceived (action : String) (ok enableCards enableQr : Bool) (requestId deviceId : String)
  /-- The controller is there. -/
  | presence (action : String) (online : Bool) (deviceId requestId : String)
  /-- An update of the firmware was asked for. -/
  | firmwareUpdate (action : String) (ok : Bool) (deviceId requestId url : String)
  /-- The periodic status. -/
  | status (deviceId : String) (rssi : Int) (uptime freeHeap : Nat) (entry exit : ReaderState)
deriving DecidableEq, Repr

namespace Report

/-- The JSON object of a report. -/
def toJson : Report → Json
  | .accessRequest kind cardId user deviceId turnstileId =>
    .object [("action", .string "getAccessTorn"), ("type", .string kind), ("cardId", .string cardId),
      ("user", .string user), ("name", .string deviceId), ("idTorno", .string turnstileId)]
  | .accessConfirmed requestId granted kind =>
    .object [("action", .string "retornoAccessTorn"), ("idPeticion", .string requestId),
      ("ok", .bool granted), ("type", .string kind)]
  | .cardWritten ok uid user requestId =>
    .object [("action", .string "retornoWriteCard"), ("ok", .bool ok), ("lector", .string "OUT"),
      ("uid", .string uid), ("user", .string user), ("idPeticion", .string requestId)]
  | .output action pin requestId =>
    .object [("action", .string action), ("pin", .ofInt pin), ("idPeticion", .string requestId)]
  | .courtOutput action pin state court requestId =>
    .object [("action", .string action), ("pin", .ofInt pin),
      ("estat", .string (Number.ofInt state).text), ("idPista", .string (Number.ofInt court).text),
      ("idPeticion", .string requestId)]
  | .settings action enableCards enableQr deviceId turnstileId requestId =>
    .object [("action", .string action), ("enableCards", .bool enableCards),
      ("enableQr", .bool enableQr), ("id", .string deviceId), ("idTorno", .string turnstileId),
      ("idPeticion", .string requestId)]
  | .settingsReceived action ok enableCards enableQr requestId deviceId =>
    .object [("action", .string action), ("ok", .bool ok), ("enableCards", .bool enableCards),
      ("enableQr", .bool enableQr), ("idPeticion", .string requestId), ("id", .string deviceId)]
  | .presence action online deviceId requestId =>
    .object [("action", .string action), ("online", .bool online), ("id", .string deviceId),
      ("idPeticion", .string requestId)]
  | .firmwareUpdate action ok deviceId requestId url =>
    .object [("action", .string action), ("ok", .bool ok), ("id", .string deviceId),
      ("idPeticion", .string requestId), ("url", .string url)]
  | .status deviceId rssi uptime freeHeap entry exit =>
    .object [("action", .string "status"), ("online", .bool true), ("id", .string deviceId),
      ("rssi", .ofInt rssi), ("uptime", .ofInt uptime), ("freeHeap", .ofInt freeHeap),
      ("fw", .string firmwareVersion),
      ("rc522", .object [("in", .string entry.label), ("out", .string exit.label)])]

/-- The payload of a report. -/
def text (r : Report) : String :=
  r.toJson.text

end Report

end Turnstile

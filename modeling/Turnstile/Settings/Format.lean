import Turnstile.Json.Record
import Turnstile.Json.Writer
import Turnstile.Settings.Basic

/-!
# The stored form of settings

Settings are kept as a JSON object with an object for each group. They are read
strictly: a value of another type, or an integer out of its range, is a mismatch.
What is missing has the value of new settings, so it depends on the build that reads.

* `Settings.bytes`: the octets that are stored.
* `Settings.ofBytes`: the settings that octets spell.
-/

namespace Turnstile

open Json (Reader)

/-- The greatest natural number of 8 bits. -/
def maxNat8 : Nat := 255

/-- The greatest natural number of 32 bits. -/
def maxNat32 : Nat := 4294967295

/-- The object of the reader pins. -/
def ReaderPins.toJson (p : ReaderPins) : Json :=
  .object [("mosi", .ofInt p.mosi), ("miso", .ofInt p.miso), ("sck", .ofInt p.sck),
    ("ssIn", .ofInt p.selectIn), ("rstIn", .ofInt p.resetIn), ("ssOut", .ofInt p.selectOut),
    ("rstOut", .ofInt p.resetOut)]

/-- The fields of the reader pins. -/
def ReaderPins.fields : List (Json.Field ReaderPins) :=
  [.of "mosi" Reader.int32 fun p n => { p with mosi := n },
   .of "miso" Reader.int32 fun p n => { p with miso := n },
   .of "sck" Reader.int32 fun p n => { p with sck := n },
   .of "ssIn" Reader.int32 fun p n => { p with selectIn := n },
   .of "rstIn" Reader.int32 fun p n => { p with resetIn := n },
   .of "ssOut" Reader.int32 fun p n => { p with selectOut := n },
   .of "rstOut" Reader.int32 fun p n => { p with resetOut := n }]

/-- The object of the output pins. -/
def OutputPins.toJson (p : OutputPins) : Json :=
  .object [("relayIn", .ofInt p.relayIn), ("relayOut", .ofInt p.relayOut), ("buzzer", .ofInt p.buzzer)]

/-- The fields of the output pins. -/
def OutputPins.fields : List (Json.Field OutputPins) :=
  [.of "relayIn" Reader.int32 fun p n => { p with relayIn := n },
   .of "relayOut" Reader.int32 fun p n => { p with relayOut := n },
   .of "buzzer" Reader.int32 fun p n => { p with buzzer := n }]

/-- The object of the scanner port. -/
def ScannerPort.toJson (p : ScannerPort) : Json :=
  .object [("port", .ofInt p.port), ("baud", .ofInt p.baud), ("tx", .ofInt p.tx), ("rx", .ofInt p.rx)]

/-- The fields of the scanner port. -/
def ScannerPort.fields : List (Json.Field ScannerPort) :=
  [.of "port" (Reader.nat maxNat8) fun p n => { p with port := n },
   .of "baud" (Reader.nat maxNat32) fun p n => { p with baud := n },
   .of "tx" Reader.int32 fun p n => { p with tx := n },
   .of "rx" Reader.int32 fun p n => { p with rx := n }]

/-- The object of the polarities. -/
def Polarity.toJson (p : Polarity) : Json :=
  .object [("relayIn", .bool p.relayIn), ("relayOut", .bool p.relayOut), ("buzzer", .bool p.buzzer),
    ("switch", .bool p.switch), ("horn", .bool p.horn), ("materialDoor", .bool p.materialDoor),
    ("entryDoor", .bool p.entryDoor)]

/-- The fields of the polarities. -/
def Polarity.fields : List (Json.Field Polarity) :=
  [.of "relayIn" Reader.bool fun p b => { p with relayIn := b },
   .of "relayOut" Reader.bool fun p b => { p with relayOut := b },
   .of "buzzer" Reader.bool fun p b => { p with buzzer := b },
   .of "switch" Reader.bool fun p b => { p with switch := b },
   .of "horn" Reader.bool fun p b => { p with horn := b },
   .of "materialDoor" Reader.bool fun p b => { p with materialDoor := b },
   .of "entryDoor" Reader.bool fun p b => { p with entryDoor := b }]

/-- The object of the timing. -/
def Timing.toJson (t : Timing) : Json :=
  .object [("relayMs", .ofInt t.relay), ("buzzerMs", .ofInt t.buzzer),
    ("buzzerGapMs", .ofInt t.buzzerGap), ("pushMs", .ofInt t.push),
    ("materialDoorMs", .ofInt t.materialDoor)]

/-- The fields of the timing. -/
def Timing.fields : List (Json.Field Timing) :=
  [.of "relayMs" (Reader.nat maxNat32) fun t n => { t with relay := n },
   .of "buzzerMs" (Reader.nat maxNat32) fun t n => { t with buzzer := n },
   .of "buzzerGapMs" (Reader.nat maxNat32) fun t n => { t with buzzerGap := n },
   .of "pushMs" (Reader.nat maxNat32) fun t n => { t with push := n },
   .of "materialDoorMs" (Reader.nat maxNat32) fun t n => { t with materialDoor := n }]

namespace Settings

/-- The object of settings. -/
def toJson (s : Settings) : Json :=
  .object [("deviceId", .string s.deviceId), ("deviceName", .string s.deviceName),
    ("idTorno", .string s.turnstileId), ("enableCards", .bool s.enableCards),
    ("enableQr", .bool s.enableQr), ("mqttUrl", .string s.mqttUrl), ("mqttUser", .string s.mqttUser),
    ("mqttPass", .string s.mqttPass), ("topicRoot", .string s.topicRoot),
    ("responseTopic", .string s.responseTopic), ("rc522", s.readers.toJson),
    ("outputs", s.outputs.toJson), ("qrUart", s.scanner.toJson), ("polarity", s.polarity.toJson),
    ("timing", s.timing.toJson)]

/-- The fields of settings, in their order in an array. -/
def fields : List (Json.Field Settings) :=
  [.of "deviceId" Reader.text fun s x => { s with deviceId := x },
   .of "deviceName" Reader.text fun s x => { s with deviceName := x },
   .of "idTorno" Reader.text fun s x => { s with turnstileId := x },
   .of "enableCards" Reader.bool fun s x => { s with enableCards := x },
   .of "enableQr" Reader.bool fun s x => { s with enableQr := x },
   .of "mqttUrl" Reader.text fun s x => { s with mqttUrl := x },
   .of "mqttUser" Reader.text fun s x => { s with mqttUser := x },
   .of "mqttPass" Reader.text fun s x => { s with mqttPass := x },
   .of "topicRoot" Reader.text fun s x => { s with topicRoot := x },
   .of "responseTopic" Reader.text fun s x => { s with responseTopic := x },
   .of "rc522" (Json.record ReaderPins.fields {}) fun s x => { s with readers := x },
   .of "outputs" (Json.record OutputPins.fields {}) fun s x => { s with outputs := x },
   .of "qrUart" (Json.record ScannerPort.fields {}) fun s x => { s with scanner := x },
   .of "polarity" (Json.record Polarity.fields {}) fun s x => { s with polarity := x },
   .of "timing" (Json.record Timing.fields {}) fun s x => { s with timing := x }]

/-- The text of settings. -/
def text (s : Settings) : String :=
  s.toJson.text

/-- The octets of settings. -/
def bytes (s : Settings) : Bytes :=
  s.toJson.bytes

/-- The settings that octets spell. -/
def ofBytes (bs : Bytes) (build : Build := {}) : Except Json.Fault Settings :=
  Json.read (Json.record fields (new build)) bs

end Settings

/-- A command to change settings, as read the second time. -/
structure SettingsRequest where
  /-- The change, unless what is asked for is no object. -/
  patch : Option Settings.Patch
  requestId : String
deriving DecidableEq, Repr

namespace SettingsRequest

/-- The turnstile identifier of a change: a string, or the text of a number. -/
def identifier? : Json → Option String
  | .string s => some s
  | .number n => some n.text
  | _ => none

/-- The change that the members of an object ask for; members of other types count
for nothing. -/
def patchOf (ms : List (String × Json)) : Settings.Patch where
  enableCards := (Json.lastOf "enableCards" ms).bind Json.bool?
  enableQr := (Json.lastOf "enableQr" ms).bind Json.bool?
  turnstileId := (Json.lastOf "idTorno" ms).bind identifier?

/-- Reads what to change; `other` is the request identifier of a request without one. -/
def ofText (other raw : String) : Except Json.Fault SettingsRequest :=
  (Json.ofBytes (Utf8.encode raw)).map fun j =>
    { patch := ((j.get? "config").bind Json.members?).map patchOf
      requestId := ((j.get? "idPeticion").bind Json.string?).getD other }

end SettingsRequest

end Turnstile

/-!
# Settings

What the controller is told about its hardware, its back office and its outputs, and
the part of it that the back office may change.

* `Settings.new`: the settings of a new controller, which depend on what its program was built with.
* `Settings.Patch.apply`: a change touches three fields at most.
-/

namespace Turnstile

/-- The pins of the two card readers. -/
structure ReaderPins where
  mosi : Int := 11
  miso : Int := 13
  sck : Int := 12
  selectIn : Int := 10
  resetIn : Int := 16
  selectOut : Int := 15
  resetOut : Int := 17
deriving DecidableEq, Repr

/-- The pins of the gate. -/
structure OutputPins where
  relayIn : Int := 19
  relayOut : Int := 20
  buzzer : Int := 21
deriving DecidableEq, Repr

/-- The serial port of the code scanner. -/
structure ScannerPort where
  port : Nat := 1
  baud : Nat := 9600
  tx : Int := 17
  rx : Int := 18
deriving DecidableEq, Repr

/-- Which outputs are active when low. -/
structure Polarity where
  relayIn : Bool := false
  relayOut : Bool := false
  buzzer : Bool := false
  switch : Bool := false
  horn : Bool := false
  materialDoor : Bool := false
  entryDoor : Bool := false
deriving DecidableEq, Repr

/-- How long outputs are driven, in milliseconds. -/
structure Timing where
  relay : Nat := 2000
  buzzer : Nat := 150
  buzzerGap : Nat := 100
  push : Nat := 500
  materialDoor : Nat := 3000
deriving DecidableEq, Repr

/-- What a program was built with: where nothing was given, the texts that are built in. -/
structure Build where
  deviceId : String := "SFTCLUB_DEVICE"
  mqttUrl : String := "mqtt://127.0.0.1:1883"
  mqttUser : String := ""
  mqttPass : String := ""
  topicRoot : String := "/var/deploys/topics"
  responseTopic : String := "/var/deploys/topics/SFTCLUB"
deriving DecidableEq, Repr

/-- The settings of a controller; without any, those of a new one whose build was given nothing. -/
structure Settings where
  deviceId : String := ({} : Build).deviceId
  deviceName : String := ({} : Build).deviceId
  turnstileId : String := "1"
  enableCards : Bool := false
  enableQr : Bool := true
  mqttUrl : String := ({} : Build).mqttUrl
  mqttUser : String := ({} : Build).mqttUser
  mqttPass : String := ({} : Build).mqttPass
  topicRoot : String := ({} : Build).topicRoot
  responseTopic : String := ({} : Build).responseTopic
  readers : ReaderPins := {}
  outputs : OutputPins := {}
  scanner : ScannerPort := {}
  polarity : Polarity := {}
  timing : Timing := {}
deriving DecidableEq, Repr

namespace Settings

/-- The settings of a new controller. Its name is its identifier. -/
def new (b : Build) : Settings where
  deviceId := b.deviceId
  deviceName := b.deviceId
  mqttUrl := b.mqttUrl
  mqttUser := b.mqttUser
  mqttPass := b.mqttPass
  topicRoot := b.topicRoot
  responseTopic := b.responseTopic

/-- The topic on which commands arrive. -/
def commandTopic (s : Settings) : String :=
  s.topicRoot ++ "/" ++ s.deviceId

/-- The topic of the periodic status. -/
def statusTopic (s : Settings) : String :=
  s.topicRoot ++ "/" ++ s.deviceId ++ "/status"

/-- A change that the back office asks for. -/
structure Patch where
  enableCards : Option Bool := none
  enableQr : Option Bool := none
  turnstileId : Option String := none
deriving DecidableEq, Repr

/-- The settings after a change. -/
def Patch.apply (p : Patch) (s : Settings) : Settings :=
  { s with
    enableCards := p.enableCards.getD s.enableCards
    enableQr := p.enableQr.getD s.enableQr
    turnstileId := p.turnstileId.getD s.turnstileId }

end Settings

end Turnstile

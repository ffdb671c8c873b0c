import Turnstile.Controller.Inbound
import Turnstile.Controller.Reporting
import Turnstile.Controller.Scanning
import Turnstile.Simulation.Field

/-!
# Test bench

A controller with simulated readers and a bounded queue of messages, and what may
happen to it.

* `Event`: what may happen, commands to be carried out apart.
* `Bench.apply`: an event, and the answer to it.
-/

namespace Turnstile

/-- A controller under test. -/
structure Bench where
  controller : Controller Field Outbox
  /-- Whether cards can be written by command: some controllers have no readers. -/
  hasWriter : Bool := true
  /-- Whether there is still somebody to carry out commands. -/
  dispatching : Bool := true
  /-- The jobs that were handed in by events, newest first. -/
  tickets : List Nat := []

/-- What may happen to a controller. Times are in microseconds. -/
inductive Event where
  | present (role : Role) (card : SimCard)
  | remove (role : Role)
  | inject (role : Role) (fault : SimFault)
  | breakBus (role : Role)
  | cardBlock (role : Role) (block : UInt8)
  | poll (now : Nat)
  | scan (bytes : Bytes) (now : Nat)
  | inbound (bytes : Bytes)
  | closeCommands
  | closeOutbox
  | offer (source : Source) (id user : String) (now : Nat)
  | release
  | enqueue (m : Message)
  | link (l : Link)
  | submit (text : String) (deadline : Nat)
  /-- A card is to be written by a controller without readers. -/
  | writeNow
  | readSettings
  | reportStatus (rssi : Int) (uptime freeHeap : Nat)
  | drain
  | pass

/-- The answer to an event. -/
inductive Answer where
  | done
  | none
  | flag (b : Bool)
  | text (s : String)
  | block (b : Option Bytes)
  | polled (entry exit : Poll)
  | scanned (codes : List (String × ScanOutcome))
  | offered (o : Offer)
  | messages (ms : List Message)
  | refused (fault : Json.Fault)
  /-- What the readers came to while a card was to be written. -/
  | cycles (polls : List (Poll × Poll))
  | noDispatcher

namespace Bench

/-- A controller that starts with what storage holds. -/
def start (storage : Storage) (capacity commands : Nat) (link : Link)
    (refuses : Nat → PinCall → Bool) (hasWriter : Bool) (build : Build := {}) : Bench :=
  match SettingsStore.load storage build with
  | (settings, entries) =>
    let desk : Desk Outbox := { settings, outbox := { capacity } }
    let controller : Controller Field Outbox :=
      { bus := .new
        desk := desk.log entries
        outputs := { refuses }
        commands := { capacity := commands } }
    { controller := controller.setLink link, hasWriter }

/-- Changes the simulated readers. -/
def modifyField (b : Bench) (change : Field → Field) : Bench :=
  { b with controller := { b.controller with bus := change b.controller.bus } }

/-- Changes the outbox. -/
def modifyOutbox (b : Bench) (change : Outbox → Outbox) : Bench :=
  { b with controller :=
      { b.controller with desk := { b.controller.desk with outbox := change b.controller.desk.outbox } } }

/-- Puts a controller in the place of the one under test. -/
def put (b : Bench) (controller : Controller Field Outbox) : Bench :=
  { b with controller }

/-- Puts the shared desk of the controller in its place. -/
def putDesk (b : Bench) (desk : Desk Outbox) : Bench :=
  { b with controller := { b.controller with desk } }

/-- Something happens. -/
def apply (b : Bench) : Event → Answer × Bench
  | .present role card => (.done, b.modifyField (·.present role card))
  | .remove role => (.done, b.modifyField (·.remove role))
  | .inject role fault => (.done, b.modifyField (·.inject role fault))
  | .breakBus role => (.done, b.modifyField (·.breakBus role))
  | .cardBlock role block => (.block (b.controller.bus.cardBlock? role block), b)
  | .poll now =>
    match b.controller.pollCycle now with
    | ((entry, exit), c) => (.polled entry exit, b.put c)
  | .scan bytes now =>
    match b.controller.feed bytes now with
    | (codes, c) => (.scanned codes, b.put c)
  | .inbound bytes => (.done, b.put (b.controller.route bytes))
  | .closeCommands =>
    (.done, b.put { b.controller with commands := b.controller.commands.close })
  | .closeOutbox => (.done, b.modifyOutbox (·.close))
  | .offer source id user now =>
    match b.controller.desk.offer source id user now with
    | (offer, desk) => (.offered offer, b.putDesk desk)
  | .release =>
    (.done, b.putDesk { b.controller.desk with gate := b.controller.desk.gate.release })
  | .enqueue m =>
    match b.controller.desk.send m with
    | (taken, desk) => (.flag taken, b.putDesk desk)
  | .link l => (.done, b.put (b.controller.setLink l))
  | .submit text deadline =>
    let c := b.controller
    (.flag true,
      { b.put { c with jobs := c.jobs.submit text deadline } with
        tickets := c.jobs.submitted :: b.tickets })
  | .writeNow => (.none, b.put (b.controller.note .warn "writeCard: card reader task not running"))
  | .readSettings => (.text b.controller.desk.current.text, b)
  | .reportStatus rssi uptime freeHeap =>
    match b.controller.desk.send (b.controller.statusMessage rssi uptime freeHeap) with
    | (taken, desk) => (.flag taken, b.putDesk desk)
  | .drain => (.messages b.controller.desk.outbox.waiting, b.modifyOutbox fun q => q.drain.2)
  | .pass => (.done, b)

/-- What became of the jobs that events handed in: the answers of those that have one. -/
def replies (b : Bench) : List (Option (Option Uid)) :=
  b.tickets.reverse.map b.controller.jobs.answer?

end Bench

end Turnstile

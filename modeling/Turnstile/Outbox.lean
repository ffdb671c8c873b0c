import Turnstile.Log

/-!
# Outgoing messages

Messages wait in a bounded queue until they are published. Sending never waits: a
message that finds no room is refused.

* `Sink`: anything that messages are sent to; each one is taken or refused.
* `Outbox.send`: the queue takes a message if it is open and has room.
-/

namespace Turnstile

/-- How surely a message is to be delivered. -/
inductive Delivery where
  | atMostOnce
  | atLeastOnce
deriving DecidableEq, Repr

/-- A message to be published. -/
structure Message where
  topic : String
  payload : String
  delivery : Delivery
  retain : Bool
deriving DecidableEq, Repr

/-- What became of a message. -/
inductive Verdict where
  | taken
  | full
  | closed
deriving DecidableEq, Repr

/-- What the log says of a message that was not taken. -/
def Verdict.entries (v : Verdict) (topic : String) : List Entry :=
  match v with
  | .taken => []
  | .full => [⟨.warn, s!"Outbound queue full, dropping message for '{topic}'"⟩]
  | .closed => [⟨.warn, s!"Outbound queue closed, dropping message for '{topic}'"⟩]

/-- Something that messages are sent to. -/
class Sink (τ : Type) where
  /-- Offers a message. -/
  send : τ → Message → Verdict × τ

/-- The capacity of the queue of a controller. -/
def outboxCapacity : Nat := 64

/-- A bounded queue of messages. -/
structure Outbox where
  capacity : Nat := outboxCapacity
  waiting : List Message := []
  closed : Bool := false
deriving DecidableEq, Repr

namespace Outbox

/-- Adds a message at the end, if the queue is open and has room. -/
def send (q : Outbox) (m : Message) : Verdict × Outbox :=
  if q.closed then (.closed, q)
  else if q.waiting.length < q.capacity then (.taken, { q with waiting := q.waiting ++ [m] })
  else (.full, q)

/-- Takes the oldest message. -/
def receive (q : Outbox) : Option Message × Outbox :=
  match q.waiting with
  | [] => (none, q)
  | m :: ms => (some m, { q with waiting := ms })

/-- Takes all messages. -/
def drain (q : Outbox) : List Message × Outbox :=
  (q.waiting, { q with waiting := [] })

/-- Nobody receives any more; what waits is lost. -/
def close (q : Outbox) : Outbox :=
  { q with waiting := [], closed := true }

instance : Sink Outbox where
  send := send

end Outbox

end Turnstile

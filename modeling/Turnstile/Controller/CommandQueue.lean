import Turnstile.Command
import Turnstile.Outbox

/-!
# Waiting commands

Commands wait in a bounded queue until they are carried out. A command that finds no
room is refused.

* `CommandQueue.send`, `CommandQueue.receive`: the queue.
* `Verdict.commandEntries`: the log tells of commands that were refused.
-/

namespace Turnstile

/-- The capacity of the command queue of a controller. -/
def commandCapacity : Nat := 64

/-- Commands that were received and not carried out yet. -/
structure CommandQueue where
  capacity : Nat := commandCapacity
  waiting : List Command := []
  closed : Bool := false
deriving DecidableEq, Repr

namespace CommandQueue

/-- Adds a command at the end, if the queue is open and has room. -/
def send (q : CommandQueue) (command : Command) : Verdict × CommandQueue :=
  if q.closed then (.closed, q)
  else if q.waiting.length < q.capacity then
    (.taken, { q with waiting := q.waiting ++ [command] })
  else (.full, q)

/-- Takes the oldest command. -/
def receive (q : CommandQueue) : Option Command × CommandQueue :=
  match q.waiting with
  | [] => (none, q)
  | command :: rest => (some command, { q with waiting := rest })

/-- Nobody carries out commands any more; what waits is lost. -/
def close (q : CommandQueue) : CommandQueue :=
  { q with waiting := [], closed := true }

end CommandQueue

/-- What the log says of a command that found no place in the queue. -/
def Verdict.commandEntries (v : Verdict) (action : String) : List Entry :=
  match v with
  | .taken => []
  | .full => [⟨.warn, s!"Command queue full, dropping '{action}'"⟩]
  | .closed => [⟨.warn, s!"Command dispatcher gone, dropping '{action}'"⟩]

end Turnstile

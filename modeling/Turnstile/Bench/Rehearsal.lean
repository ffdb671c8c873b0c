import Turnstile.Bench.Basic

/-!
# Rehearsing commands

While a card is to be written, whoever carries out commands waits and the readers are
polled on. A rehearsal does both in turn, on a time of its own.

* `Rehearsal.await`: the readers are polled until a job is answered.
* `Bench.dispatch`: one command is carried out.
* `Bench.dispatchAll`: all commands that wait are carried out, and no more after them.
-/

namespace Turnstile

/-- A bench on which time passes while a card is to be written. -/
structure Rehearsal where
  bench : Bench
  /-- The time, in microseconds. -/
  time : Nat
  /-- How often the readers were polled. -/
  cycle : Nat := 0
  /-- What came of it, newest first. -/
  polls : List (Poll × Poll) := []

namespace Rehearsal

/-- Lets happen what is planned for the present cycle. -/
def happen (plan : List (Nat × Event)) (r : Rehearsal) : Rehearsal :=
  { r with bench := (plan.filter (·.1 = r.cycle)).foldl (fun b e => (b.apply e.2).2) r.bench }

/-- Polls the readers once. -/
def poll (r : Rehearsal) : Rehearsal :=
  match r.bench.controller.pollCycle r.time with
  | (polled, c) =>
    { bench := r.bench.put c
      time := r.time + pollIntervalMs * 1000
      cycle := r.cycle + 1
      polls := polled :: r.polls }

/-- Polls the readers until a job is answered, at most `fuel` times. -/
def await (plan : List (Nat × Event)) (ticket : Nat) : Nat → Rehearsal → Option Uid × Rehearsal
  | 0, r => (none, r)
  | fuel + 1, r =>
    let r := (r.happen plan).poll
    match r.bench.controller.jobs.answer? ticket with
    | some answer => (answer, r)
    | none => await plan ticket fuel r

/-- How often the readers are polled at most until all jobs at hand are answered: once
all are out of time, each cycle answers one. -/
def patience (jobs : JobBook) (time : Nat) : Nat :=
  let all := jobs.pending.toList ++ jobs.waiting
  let last := all.foldl (fun t job => max t job.deadline) 0
  (last - time) / (pollIntervalMs * 1000) + 2 * all.length + 2

/-- Has a text written on a card, if there are readers. -/
def write (plan : List (Nat × Event)) (text : String) (r : Rehearsal) : Option Uid × Rehearsal :=
  let c := r.bench.controller
  if !r.bench.hasWriter then
    (none, { r with bench := r.bench.put (c.note .warn "writeCard: card reader task not running") })
  else
    let jobs := c.jobs.submit text (r.time + writeTimeoutMs * 1000)
    await plan c.jobs.submitted (patience jobs r.time)
      { r with bench := r.bench.put { c with jobs } }

/-- Carries out a command. -/
def dispatch (plan : List (Nat × Event)) (r : Rehearsal) (command : Command) : Rehearsal :=
  match r.bench.controller.dispatch command with
  | .done c => { r with bench := r.bench.put c }
  | .writing request c =>
    match write plan request.user { r with bench := r.bench.put c } with
    | (written, r) =>
      { r with bench := r.bench.put (r.bench.controller.endWrite request written) }

end Rehearsal

namespace Bench

/-- Carries out one command, while `plan` happens. Only a command to write a card takes
time. -/
def dispatch (b : Bench) (plan : List (Nat × Event)) (now : Nat) (command : Command) :
    Answer × Bench :=
  if !b.dispatching then (.noDispatcher, b)
  else
    let r := Rehearsal.dispatch plan { bench := b, time := now } command
    (if command.request = .writeCard then .cycles r.polls.reverse else .done, r.bench)

/-- Carries out the command that octets spell. -/
def dispatchBytes (b : Bench) (plan : List (Nat × Event)) (now : Nat) (bytes : Bytes) :
    Answer × Bench :=
  match Command.ofBytes bytes with
  | .error fault => (.refused fault, b)
  | .ok command => b.dispatch plan now command

/-- Carries out the oldest command that waits. -/
def dispatchNext (b : Bench) (plan : List (Nat × Event)) (now : Nat) : Answer × Bench :=
  match b.controller.commands.receive with
  | (none, _) => (.none, b)
  | (some command, commands) =>
    (b.put { b.controller with commands }).dispatch plan now command

/-- Carries out all commands that wait, unless the queue was closed. No command is
carried out after that, either way. -/
def dispatchAll (b : Bench) (plan : List (Nat × Event)) (now : Nat) : Answer × Bench :=
  if !b.dispatching || b.controller.commands.closed then
    (.noDispatcher, { b with dispatching := false })
  else
    let waiting := b.controller.commands.waiting
    let c := { b.controller with commands := b.controller.commands.close }
    let c := c.note .info "Command dispatcher started"
    let r := waiting.foldl (Rehearsal.dispatch plan) { bench := b.put c, time := now }
    let c := r.bench.controller.note .warn "Command queue closed, dispatcher exiting"
    (.cycles r.polls.reverse, { r.bench.put c with dispatching := false })

end Bench

end Turnstile

import Turnstile.Controller.Dispatch

/-!
# Commands on arrival

What arrives is read at once. A command to update the firmware is answered on the
spot, all others wait in the queue of commands.

* `Controller.enqueue`: a command that finds no place is dropped, and the log tells of it.
* `Controller.route`: octets arrive.
-/

namespace Turnstile

namespace Controller

variable {σ τ : Type}

/-- Puts a command in the queue. -/
def enqueue (c : Controller σ τ) (command : Command) : Controller σ τ :=
  match c.commands.send command with
  | (verdict, commands) => { c with commands }.log (verdict.commandEntries command.action)

/-- Octets arrive that should be a command. -/
def route [Sink τ] (c : Controller σ τ) (bs : Bytes) : Controller σ τ :=
  match Command.ofBytes bs with
  | .error fault => c.note .warn s!"Command JSON parse error: {fault.label}"
  | .ok command =>
    if command.request = .updateFirmware then c.refuseUpdate command else c.enqueue command

end Controller

end Turnstile

import Turnstile.Controller.CommandQueue
import Turnstile.Controller.Jobs
import Turnstile.Debounce
import Turnstile.Decision
import Turnstile.Health
import Turnstile.Link
import Turnstile.Reader.Session
import Turnstile.Scan.Buffer
import Turnstile.Scan.Serial

/-!
# The controller

All that the controller of a turnstile holds, over any bus `σ` to its readers and any
sink `τ` for its messages.

* `Controller.perform`: an operation on one of the readers.
-/

namespace Turnstile

/-- A scanner: what it sent, and which code went through last. -/
structure Scanner where
  buffer : ScanBuffer := {}
  debounce : Debounce := .forCodes
deriving DecidableEq, Repr

/-- The controller of a turnstile. -/
structure Controller (σ τ : Type) where
  bus : σ
  desk : Desk τ
  link : Link := .offline
  health : Health := {}
  debounce : Sides Debounce := ⟨.forCards, .forCards⟩
  jobs : JobBook := {}
  scanner : Scanner := {}
  outputs : Outputs := {}
  commands : CommandQueue := {}

namespace Controller

variable {σ τ α : Type}

/-- Adds entries to the log. -/
def log (c : Controller σ τ) (entries : List Entry) : Controller σ τ :=
  { c with desk := c.desk.log entries }

/-- Adds an entry to the log. -/
def note (c : Controller σ τ) (level : Level) (text : String) : Controller σ τ :=
  { c with desk := c.desk.note level text }

/-- Notes how an exchange with a card went. -/
def record (c : Controller σ τ) (role : Role) (ok : Bool) : Controller σ τ :=
  { c with health := c.health.record role ok }

/-- No card is before a reader. -/
def absent (c : Controller σ τ) (role : Role) : Controller σ τ :=
  { c with debounce := c.debounce.set role (c.debounce.get role).absent }

/-- The link to the back office changes. -/
def setLink (c : Controller σ τ) (link : Link) : Controller σ τ :=
  { c.log (c.link.entries link) with link }

/-- Performs an operation on the reader of one side. -/
def perform [RegisterBus σ] (c : Controller σ τ) (role : Role) (op : Operation α) :
    Except CardError α × Controller σ τ :=
  match op.perform role c.bus with
  | (outcome, bus, notices) => (outcome, { c with bus }.log (notices.flatMap (Notice.entries role)))

end Controller

end Turnstile

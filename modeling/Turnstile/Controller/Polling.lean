import Turnstile.Controller.Basic

/-!
# Polling the readers

The readers are polled in turn, the one at the entry first. A card that is found asks
for access; while a job is taken up, the reader at the exit writes instead.

* `Controller.scan`: one look at a reader.
* `Controller.tryWrite`: one attempt to write a card.
* `Controller.pollCycle`: one look at both readers.
* `Controller.tick`: one round of the endless loop, and how long it rests then.
-/

namespace Turnstile

/-- How long to rest between two looks, in milliseconds. -/
def pollIntervalMs : Nat := 60

/-- How long to rest while the link is down, in milliseconds. -/
def offlineIdleMs : Nat := 500

/-- How long a job may wait for a card, in milliseconds. -/
def writeTimeoutMs : Nat := 7000

/-- What one look at a reader came to. -/
inductive Poll where
  /-- No card is there. -/
  | idle
  /-- The card is still the one that went through. -/
  | suppressed
  | offered (o : Offer)
  /-- The card could not be identified. -/
  | failed
  /-- The reader tried to write. -/
  | writing
deriving DecidableEq, Repr

/-- The source that a reader is. -/
def Role.source : Role → Source
  | .entry => .entry
  | .exit => .exit

namespace Controller

variable {σ τ : Type}

/-- The polling loop starts, and the log tells of it. -/
def startPolling (c : Controller σ τ) : Controller σ τ :=
  c.note .info "Card poll loop started"

/-- Gives up the job that was taken up, if it is out of time. -/
def expireJob (c : Controller σ τ) (now : Nat) : Controller σ τ :=
  if c.jobs.isOverdue now then
    { c with jobs := c.jobs.finish none }.note .warn
      "writeCard: no card on OUT reader before deadline"
  else c

/-- Takes up the next job, if none is. -/
def nextJob (c : Controller σ τ) : Controller σ τ :=
  match c.jobs.takeUp with
  | (true, jobs) => { c with jobs }.note .info "writeCard: waiting for card on OUT reader"
  | (false, _) => c

/-- Gives up a job that is out of time and takes up the next. -/
def takeJob (c : Controller σ τ) (now : Nat) : Controller σ τ :=
  (c.expireJob now).nextJob

variable [RegisterBus σ]

/-- The text about the user of a card. A card whose block cannot be read has none. -/
def readUser (c : Controller σ τ) (role : Role) (uid : Uid) : String × Controller σ τ :=
  match c.perform role (Operation.readBlock userBlock uid) with
  | (.ok block, c) => (UserText.decode block, c)
  | (.error e, c) =>
    ("", c.note .warn
      s!"{role.label}: block {userBlock.toNat} unreadable for {uid.hex}: {e.message}")

/-- A card was identified: it asks for access, unless it did so a moment ago. -/
def identified [Sink τ] (c : Controller σ τ) (role : Role) (uid : Uid) (user : String) (now : Nat) :
    Poll × Controller σ τ :=
  match (c.debounce.get role).see uid.hex now with
  | (false, _) => (.suppressed, c)
  | (true, seen) =>
    match c.desk.offer role.source uid.hex user now with
    | (offer, desk) => (.offered offer, { c with debounce := c.debounce.set role seen, desk })

/-- One look at a reader. -/
def scan [Sink τ] (c : Controller σ τ) (role : Role) (now : Nat) : Poll × Controller σ τ :=
  match c.perform role Operation.identify with
  | (.error e, c) =>
    if e.isNoCard then (.idle, c.absent role)
    else
      let c := c.note .warn s!"{role.label}: card select failed: {e.message}"
      (.failed, (c.record role false).absent role)
  | (.ok uid, c) =>
    match c.readUser role uid with
    | (user, c) => (c.record role true).identified role uid user now

/-- Identifies a card and writes a text on it. -/
def writeText (text : String) : Operation Uid := do
  let uid ← Operation.identify
  Operation.writeBlock userBlock uid (UserText.encode text)
  pure uid

/-- One attempt to write a text on a card at the exit: the card, if it was written. -/
def tryWrite (c : Controller σ τ) (text : String) : Option Uid × Controller σ τ :=
  match c.perform .exit (writeText text) with
  | (.ok uid, c) =>
    let c := c.note .info
      s!"{Role.exit.label}: wrote '{text}' to block {userBlock.toNat} of {uid.hex}"
    (some uid, c.record .exit true)
  | (.error e, c) =>
    if e.isNoCard then (none, c)
    else
      let c := c.note .warn s!"{Role.exit.label}: card write failed: {e.message}"
      (none, c.record .exit false)

/-- The reader at the exit writes if a job was taken up, else it looks for cards. -/
def pollExit [Sink τ] (c : Controller σ τ) (now : Nat) : Poll × Controller σ τ :=
  match c.jobs.pending with
  | none => c.scan .exit now
  | some job =>
    match c.tryWrite job.text with
    | (some uid, c) => (.writing, { c with jobs := c.jobs.finish (some uid) })
    | (none, c) => (.writing, c)

/-- One look at both readers: what came of it at the entry and at the exit. -/
def pollCycle [Sink τ] (c : Controller σ τ) (now : Nat) : (Poll × Poll) × Controller σ τ :=
  match (c.takeJob now).scan .entry now with
  | (entry, c) =>
    match c.pollExit now with
    | (exit, c) => ((entry, exit), c)

/-- One round of the polling loop, and how many milliseconds it rests after it. While
the link is down no card is looked for, but jobs run out of time. -/
def tick [Sink τ] (c : Controller σ τ) (now : Nat) : Nat × Controller σ τ :=
  if c.link.isReady then (pollIntervalMs, (c.pollCycle now).2)
  else (offlineIdleMs, c.takeJob now)

end Controller

end Turnstile

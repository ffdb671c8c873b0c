import Turnstile.Controller.Inbound
import Turnstile.Controller.Scanning

/-!
# Looks at the readers

What a look at a reader changes, and that nothing else touches the bus to the readers.

* `readUser_eq`, `tryWrite_eq`, `scan_cases`: what a look at a reader comes to, on any bus.
* `bus_feed`: scanned codes do not touch the bus.
* `bus_route`: nor do commands on arrival.
-/

namespace Turnstile.Controller

variable {σ τ : Type} (c : Controller σ τ)

/-- Taking up a job changes the jobs and the log, and nothing else. -/
theorem takeJob_eq (now : Nat) :
    ∃ jobs journal, c.takeJob now = { c with jobs, desk := { c.desk with journal } } := by
  obtain ⟨jobs, journal, hexpire⟩ :
      ∃ jobs journal, c.expireJob now = { c with jobs, desk := { c.desk with journal } } := by
    unfold expireJob
    split
    · exact ⟨c.jobs.finish none, _, rfl⟩
    · exact ⟨c.jobs, c.desk.journal, rfl⟩
  rw [takeJob, hexpire, nextJob]
  split
  · next jobs' _ => exact ⟨jobs', _, rfl⟩
  · exact ⟨jobs, journal, rfl⟩

@[simp] theorem bus_takeJob (now : Nat) : (c.takeJob now).bus = c.bus := by
  obtain ⟨jobs, journal, h⟩ := c.takeJob_eq now
  rw [h]

/-! ## What a look changes -/

section Look

variable [RegisterBus σ]

/-- The text of a card is read: that changes the bus and the log, and nothing else. -/
theorem readUser_eq (role : Role) (uid : Uid) :
    ∃ user journal, c.readUser role uid =
      (user, { c with
        bus := ((Operation.readBlock userBlock uid).perform role c.bus).2.1
        desk := { c.desk with journal } }) := by
  unfold readUser perform
  dsimp only
  cases ((Operation.readBlock userBlock uid).perform role c.bus).1 with
  | ok block => exact ⟨_, _, rfl⟩
  | error e => exact ⟨_, _, rfl⟩

/-- A card is written, or is not. -/
theorem tryWrite_eq (text : String) :
    ∃ answer health journal, c.tryWrite text =
      (answer, { c with
        bus := ((writeText text).perform .exit c.bus).2.1
        health, desk := { c.desk with journal } }) := by
  unfold tryWrite perform
  dsimp only
  cases ((writeText text).perform .exit c.bus).1 with
  | ok uid => exact ⟨_, _, _, rfl⟩
  | error e =>
    dsimp only
    split
    · exact ⟨_, c.health, _, rfl⟩
    · exact ⟨_, _, _, rfl⟩

/-- **What a look at a reader comes to**: no card is identified, and none is taken to be there any
more; or one is, and asks for access when its text was read. -/
theorem scan_cases [Sink τ] (role : Role) (now : Nat) :
    let bus := (Operation.identify.perform role c.bus).2.1
    (∃ poll health journal, (poll = .idle ∨ poll = .failed) ∧ c.scan role now =
      (poll, { c.absent role with bus, health, desk := { c.desk with journal } })) ∨
    ∃ uid user health journal, c.scan role now = identified { c with
      bus := ((Operation.readBlock userBlock uid).perform role bus).2.1
      health, desk := { c.desk with journal } } role uid user now := by
  unfold scan perform
  dsimp only
  cases (Operation.identify.perform role c.bus).1 with
  | error e =>
    refine .inl ?_
    dsimp only
    split
    · exact ⟨_, c.health, _, .inl rfl, rfl⟩
    · exact ⟨_, _, _, .inr rfl, rfl⟩
  | ok uid =>
    refine .inr ⟨uid, ?_⟩
    dsimp only
    obtain ⟨user, journal, huser⟩ := readUser_eq
      (log { c with bus := (Operation.identify.perform role c.bus).2.1 } _) role uid
    rw [huser]
    exact ⟨user, _, journal, rfl⟩

end Look

/-! ## What leaves the bus alone -/

variable [Sink τ]

@[simp] theorem bus_identified [RegisterBus σ] (role : Role) (uid : Uid) (user : String) (now : Nat) :
    (c.identified role uid user now).2.bus = c.bus := by
  unfold identified
  split <;> rfl

theorem bus_scanned (code : String) (now : Nat) : (c.scanned code now).2.bus = c.bus := by
  unfold scanned
  dsimp only
  split
  · rfl
  · unfold offerCode
    split <;> rfl

theorem bus_scannedAll (now : Nat) (codes : List (String × List Entry)) :
    (scannedAll now codes c).2.bus = c.bus := by
  induction codes generalizing c with
  | nil => rfl
  | cons code codes ih => exact (ih _).trans (bus_scanned _ _ now)

/-- Scanned codes leave the readers alone. -/
@[simp] theorem bus_feed (bs : Bytes) (now : Nat) : (c.feed bs now).2.bus = c.bus :=
  bus_scannedAll _ now _

/-- Commands on arrival leave the readers alone. -/
@[simp] theorem bus_route (bs : Bytes) : (c.route bs).bus = c.bus := by
  unfold route
  split
  · rfl
  split
  · unfold refuseUpdate
    dsimp only
    split <;> rfl
  · rfl

end Turnstile.Controller

import Turnstile.Bench.Basic
import Turnstile.Proofs.Controller.Readers
import Turnstile.Proofs.Reader.Session
import Turnstile.Proofs.Reader.Stop
import Turnstile.Proofs.Simulation.Sessions

/-!
# Sessions are always ended

Reading and writing a block open an encrypted session, and nothing that happens to a
controller leaves one open.

* `secure_apply`: no event leaves a session open on either reader.
* `session_always_ended`: **on any bus** the last accesses of a read or a write end the session,
  and **after any events** neither of the simulated readers has one.
-/

namespace Turnstile

namespace Controller

variable {τ : Type} {c : Controller Field τ} {role : Role}

variable [Sink τ]

/-- One look at a reader leaves no session open. -/
theorem secure_scan {now : Nat} (h : c.bus.Secure) : (c.scan role now).2.bus.Secure := by
  have hidentify := Operation.secure_of_calm Operation.identify_calm role c.bus h
  obtain ⟨poll, health, journal, -, hscan⟩ | ⟨uid, user, health, journal, hscan⟩ := c.scan_cases role now
  · rw [hscan]
    exact hidentify
  · -- the user is read in a session, and asking for access is nothing to the readers
    rw [hscan, bus_identified]
    exact Operation.secure_closing _ role _ hidentify

omit [Sink τ] in
theorem secure_tryWrite (text : String) (h : c.bus.Secure) : (c.tryWrite text).2.bus.Secure := by
  have hwrite : (writeText text).Secure :=
    Operation.secure_bind (Operation.secure_of_calm Operation.identify_calm) fun uid =>
    Operation.secure_bind (Operation.secure_closing _) fun _ =>
    Operation.secure_of_calm (Operation.keeps_pure uid)
  obtain ⟨answer, health, journal, hdone⟩ := c.tryWrite_eq text
  rw [hdone]
  exact hwrite .exit c.bus h

theorem secure_pollExit {now : Nat} (h : c.bus.Secure) : (c.pollExit now).2.bus.Secure := by
  unfold pollExit
  split
  · exact secure_scan h
  · next job _ =>
    have hwrite := secure_tryWrite job.text h
    split
    · next heq => rwa [heq] at hwrite
    · next heq => rwa [heq] at hwrite

/-- **One look at both readers leaves no session open.** -/
theorem secure_pollCycle {now : Nat} (h : c.bus.Secure) : (c.pollCycle now).2.bus.Secure :=
  secure_pollExit (secure_scan (by rwa [bus_takeJob]))

end Controller

namespace Field

variable {f : Field}

theorem secure_modify {role : Role} {change : SimChip → SimChip}
    (hchange : ∀ c, (change c).cryptoOn = c.cryptoOn) (h : f.Secure) : (f.modify role change).Secure :=
  secure_set (fun other _ => h other) ((hchange _).trans (h role))

theorem secure_new : Field.new.Secure := by
  intro role
  cases role <;> decide +kernel

end Field

namespace Bench

/-- Whatever happens to a controller leaves no session open. -/
theorem secure_apply {b : Bench} (e : Event) (h : b.controller.bus.Secure) :
    (b.apply e).2.controller.bus.Secure := by
  -- only four kinds of events change the readers, and polling is the only one that uses them
  cases e with
  | present role card => exact Field.secure_modify (fun _ => rfl) h
  | remove role => exact Field.secure_modify (fun _ => rfl) h
  | inject role fault => exact Field.secure_modify (fun _ => rfl) h
  | breakBus role => exact Field.secure_modify (fun _ => rfl) h
  | poll now => exact Controller.secure_pollCycle h
  | scan bytes now => exact (Controller.bus_feed b.controller bytes now).symm ▸ h
  | inbound bytes => exact (Controller.bus_route b.controller bytes).symm ▸ h
  | _ => exact h

/-- The bench after events. -/
def after (b : Bench) (events : List Event) : Bench :=
  events.foldl (fun b e => (b.apply e).2) b

theorem secure_after {b : Bench} (events : List Event) (h : b.controller.bus.Secure) :
    (b.after events).controller.bus.Secure := by
  induction events generalizing b with
  | nil => exact h
  | cons e events ih => exact ih (secure_apply e h)

end Bench

open Operation

/-- **A session is always ended.** On any bus the last accesses of a read or a write of a block
read the status and write it back without the bit of the session, or one of the two fails and
its error is the outcome. So after any events neither reader of a controller whose readers were
just switched on has a session. -/
theorem session_always_ended :
    (∀ (σ : Type) [RegisterBus σ] (role : Role) (block : UInt8) (uid : Uid) (data : Bytes) (s : σ),
      EndsSession ((readBlock block uid).trace role s) ((readBlock block uid).perform role s).1 ∧
      EndsSession ((writeBlock block uid data).trace role s)
        ((writeBlock block uid data).perform role s).1) ∧
    ∀ (b : Bench) (events : List Event) (role : Role),
      ((((b.modifyField fun _ => .new).after events).controller.bus).get role).cryptoOn = false := by
  refine ⟨fun σ _ role block uid data s => ⟨?_, ?_⟩, fun b events role => ?_⟩
  · exact endsSession_of_closing (makes_trace role (readBlock block uid) s)
  · exact endsSession_of_closing (makes_trace role (writeBlock block uid data) s)
  · have hnew : Field.Secure (b.modifyField fun _ => .new).controller.bus := Field.secure_new
    exact Bench.secure_after events hnew role

end Turnstile

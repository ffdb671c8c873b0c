import Turnstile.Decision

/-!
# What the desk does, in closed form

Whatever the sink makes of a message, what is done at the desk comes to a few changes of its parts.

* `Desk.send_eq`, `Desk.publish_eq`: a message, or a report, is sent.
* `Desk.offer_cases`: a request for access is held back by the gate, or it is sent.
* `Desk.carryOut_eq`: a decision on access frees the gate, does its work and is confirmed.
-/

namespace Turnstile.Desk

variable {τ : Type} [Sink τ] (d : Desk τ)

/-- Sending changes the sink and the log, and nothing else. -/
theorem send_eq (m : Message) : ∃ journal, d.send m =
    (decide ((Sink.send d.outbox m).1 = .taken),
      { d with outbox := (Sink.send d.outbox m).2, journal }) :=
  ⟨_, rfl⟩

/-- **A report is one message**, whether it is taken or not. -/
theorem publish_eq (topic : String) (r : Report) (delivery : Delivery) (what : String) :
    ∃ journal, d.publish topic r delivery what =
      { d with outbox := (Sink.send d.outbox ⟨topic, r.text, delivery, false⟩).2, journal } := by
  unfold publish
  dsimp only
  obtain ⟨journal, hsend⟩ := send_eq
    (d.note .debug s!"MQTT enqueue -> topic='{topic}' payload={r.text}") ⟨topic, r.text, delivery, false⟩
  rw [hsend]
  generalize decide (_ = Verdict.taken) = taken
  cases taken with
  | true => exact ⟨_, rfl⟩
  | false => exact ⟨_, rfl⟩

/-- The message that asks for access. -/
def accessRequest (source : Source) (id user : String) : Message :=
  ⟨d.current.responseTopic,
    (Report.accessRequest source.label id user d.current.deviceId d.current.turnstileId).text,
    .atLeastOnce, false⟩

/-- **What asking for access comes to**: the gate is busy; or it is free, and the request is sent, and
holds the gate if it is taken. -/
theorem offer_cases (source : Source) (id user : String) (now : Nat) :
    let sent := Sink.send d.outbox (d.accessRequest source id user)
    ∃ journal,
      (d.gate.stands now = true ∧ d.offer source id user now = (.gateBusy, { d with journal })) ∨
      (d.gate.stands now = false ∧ sent.1 = .taken ∧ d.offer source id user now =
        (.published, { d with
          gate := { d.gate with held := true, since := now }, outbox := sent.2, journal })) ∨
      (d.gate.stands now = false ∧ sent.1 ≠ .taken ∧ d.offer source id user now =
        (.queueFull, { d with
          gate := { d.gate with held := false, since := now }, outbox := sent.2, journal })) := by
  intro sent
  unfold offer Gate.acquire?
  cases hstands : d.gate.stands now with
  | true => exact ⟨_, .inl ⟨rfl, rfl⟩⟩
  | false =>
    let held : Desk τ := { d with gate := { d.gate with held := true, since := now } }
    obtain ⟨journal, hsend⟩ := held.send_eq (d.accessRequest source id user)
    have hsend' : held.send ⟨d.current.responseTopic, (Report.accessRequest source.label id user
        d.current.deviceId d.current.turnstileId).text, .atLeastOnce, false⟩ =
        (decide (sent.1 = .taken), { held with outbox := sent.2, journal }) := hsend
    rw [if_neg Bool.false_ne_true]
    dsimp only
    rw [hsend']
    by_cases htaken : sent.1 = .taken
    · rw [decide_eq_true htaken]
      exact ⟨_, .inr (.inl ⟨rfl, htaken, rfl⟩)⟩
    · rw [decide_eq_false htaken]
      exact ⟨_, .inr (.inr ⟨rfl, htaken, rfl⟩)⟩

/-- **A decision frees the gate, does its work and is confirmed**, whether an output fails or not. -/
theorem carryOut_eq (o : Outputs) (c : Command) :
    ∃ journal, d.carryOut o c =
      (isGranted c.result,
        { d with
          gate := d.gate.release
          outbox := (Sink.send d.outbox ⟨d.current.responseTopic,
            (Report.accessConfirmed c.requestId (isGranted c.result) c.kind).text, .atLeastOnce,
            false⟩).2
          journal },
        (Decision.work d.current (isGranted c.result) c.kind o).1.2) := by
  unfold carryOut
  dsimp only
  generalize hlogged : Decision.work _ _ _ _ = work
  have hwork : Decision.work d.current (isGranted c.result) c.kind o = work := hlogged
  rw [hwork]
  obtain ⟨⟨outcome, o'⟩, entry⟩ := work
  -- whether an output failed or the confirmation was refused, only the log tells
  cases outcome <;> dsimp only
  all_goals
    split
    all_goals
      next d' heq =>
      obtain rfl : _ = d' := congrArg Prod.snd heq
      exact ⟨_, rfl⟩

end Turnstile.Desk

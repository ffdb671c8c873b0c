import Turnstile.Proofs.Controller.Answers
import Turnstile.Proofs.Outputs.Pulses

/-!
# Decisions fail closed

The back office decides on a request for access. Whatever it says, and whatever fails then, the gate
is free again, no other pin is touched than the one that the decision is about, and the back office
is told.

* `Decision.pin?`, `Decision.levels`, `Decision.plan`: what is to be done about a decision.
* `Decision.work_history`: the plan is followed as far as the driver goes along.
* `Desk.carryOut_eq_confirm`: first the work, then the confirmation.
* `decision_fails_closed`: **a decision fails closed and is confirmed**.
-/

namespace Turnstile

namespace Decision

variable {s : Settings} {granted : Bool} {kind : String} {o : Outputs} {pin : Int}

/-- The pin that a decision is about: that of a relay if access is granted for one of the two
directions, the buzzer if access is denied. -/
def pin? (s : Settings) (granted : Bool) (kind : String) : Option Int :=
  if granted = false then some s.outputs.buzzer
  else if kind = "IN" then some s.outputs.relayIn
  else if kind = "OUT" then some s.outputs.relayOut
  else none

/-- The levels that a decision is to bring about from a time on: one pulse of a relay, or two of the
buzzer with a gap between them. -/
def levels (s : Settings) (granted : Bool) (kind : String) (start : Nat) : List Outputs.Planned :=
  if granted = false then
    Outputs.pulseLevels s.outputs.buzzer s.timing.buzzer s.polarity.buzzer start ++
      Outputs.pulseLevels s.outputs.buzzer s.timing.buzzer s.polarity.buzzer
        (start + s.timing.buzzer + s.timing.buzzerGap)
  else if kind = "IN" then
    Outputs.pulseLevels s.outputs.relayIn s.timing.relay s.polarity.relayIn start
  else if kind = "OUT" then
    Outputs.pulseLevels s.outputs.relayOut s.timing.relay s.polarity.relayOut start
  else []

/-- The calls that are to be made about a decision: none if its pin is out of range. -/
def plan (s : Settings) (granted : Bool) (kind : String) (o : Outputs) : List Outputs.Planned :=
  match pin? s granted kind with
  | none => []
  | some pin => if Outputs.InRange pin then o.firstUse pin ++ levels s granted kind o.clock else []

/-! ## What the outputs do -/

theorem beepTwice_eq : beepTwice s o =
    Outputs.andThen (o.pulse s.outputs.buzzer s.timing.buzzer s.polarity.buzzer) fun o =>
      (o.pause s.timing.buzzerGap).pulse s.outputs.buzzer s.timing.buzzer s.polarity.buzzer :=
  rfl

/-- **The buzzer sounds twice.** It is ready the second time. -/
theorem beepTwice_follows (h : Outputs.InRange s.outputs.buzzer) :
    o.Follows (o.firstUse s.outputs.buzzer ++
      (Outputs.pulseLevels s.outputs.buzzer s.timing.buzzer s.polarity.buzzer o.clock ++
        Outputs.pulseLevels s.outputs.buzzer s.timing.buzzer s.polarity.buzzer
          (o.clock + s.timing.buzzer + s.timing.buzzerGap))) (beepTwice s o) := by
  let first := o.pulse s.outputs.buzzer s.timing.buzzer s.polarity.buzzer
  let o' := first.2.pause s.timing.buzzerGap
  rw [beepTwice_eq, ← List.append_assoc]
  refine (o.pulse_follows _ _ h).andThen fun hfirst => ?_
  obtain ⟨hclock, hready⟩ := Outputs.pulse_ok hfirst
  have hnothing : o'.firstUse s.outputs.buzzer = [] := Outputs.firstUse_of_ready hready
  have hclock' : o'.clock = o.clock + s.timing.buzzer + s.timing.buzzerGap :=
    congrArg (· + s.timing.buzzerGap) hclock
  have hsecond := o'.pulse_follows s.timing.buzzer s.polarity.buzzer h
  rw [hnothing, hclock', List.nil_append] at hsecond
  exact hsecond.of_pause

theorem beepTwice_outOfRange (h : ¬ Outputs.InRange s.outputs.buzzer) :
    beepTwice s o = (.error (.outOfRange s.outputs.buzzer), o) := by
  rw [beepTwice_eq, Outputs.pulse_outOfRange h]
  rfl

theorem work_eq : (work s granted kind o).1 =
    if granted = false then beepTwice s o
    else if kind = "IN" then o.pulse s.outputs.relayIn s.timing.relay s.polarity.relayIn
    else if kind = "OUT" then o.pulse s.outputs.relayOut s.timing.relay s.polarity.relayOut
    else (.ok (), o) := by
  unfold work Source.ofLabel?
  cases granted with
  | false => rfl
  | true =>
    by_cases hin : kind = "IN"
    · simp [hin]
    · by_cases hout : kind = "OUT"
      · simp [hout]
      · -- a code is neither of the two directions, and nor is any other name
        by_cases hcode : kind = "QR" <;> simp [hin, hout, hcode]

/-- **A decision about a pin in range follows its plan.** -/
theorem work_follows (hpin : pin? s granted kind = some pin) (h : Outputs.InRange pin) :
    o.Follows (o.firstUse pin ++ levels s granted kind o.clock) (work s granted kind o).1 := by
  rw [work_eq]
  unfold pin? at hpin
  unfold levels
  split_ifs at hpin ⊢ with hdenied hin hout
  · cases hpin
    exact beepTwice_follows h
  · cases hpin
    exact o.pulse_follows _ _ h
  · cases hpin
    exact o.pulse_follows _ _ h

/-- A decision about a pin out of range does nothing and fails. -/
theorem work_outOfRange (hpin : pin? s granted kind = some pin) (h : ¬ Outputs.InRange pin) :
    (work s granted kind o).1 = (.error (.outOfRange pin), o) := by
  rw [work_eq]
  unfold pin? at hpin
  split_ifs at hpin ⊢ with hdenied hin hout
  · cases hpin
    exact beepTwice_outOfRange h
  · cases hpin
    exact Outputs.pulse_outOfRange h
  · cases hpin
    exact Outputs.pulse_outOfRange h

/-- A decision about no pin does nothing. -/
theorem work_none (hpin : pin? s granted kind = none) : (work s granted kind o).1 = (.ok (), o) := by
  rw [work_eq]
  unfold pin? at hpin
  split_ifs at hpin ⊢
  rfl

theorem plan_of_inRange (hpin : pin? s granted kind = some pin) (h : Outputs.InRange pin) :
    plan s granted kind o = o.firstUse pin ++ levels s granted kind o.clock := by
  unfold plan
  rw [hpin]
  exact if_pos h

theorem plan_of_outOfRange (hpin : pin? s granted kind = some pin) (h : ¬ Outputs.InRange pin) :
    plan s granted kind o = [] := by
  unfold plan
  rw [hpin]
  exact if_neg h

theorem plan_of_none (hpin : pin? s granted kind = none) : plan s granted kind o = [] := by
  unfold plan
  rw [hpin]

/-- **The plan of a decision is followed** as far as the driver goes along, and nothing else is
called. -/
theorem work_history : (work s granted kind o).1.2.history =
    (o.made (plan s granted kind o)).reverse ++ o.history := by
  cases hpin : pin? s granted kind with
  | none =>
    rw [work_none hpin, plan_of_none hpin]
    rfl
  | some pin =>
    by_cases hrange : Outputs.InRange pin
    · rw [plan_of_inRange hpin hrange]
      exact (work_follows hpin hrange).history
    · rw [work_outOfRange hpin hrange, plan_of_outOfRange hpin hrange]
      rfl

theorem pin_of_levels {start : Nat} {p : Outputs.Planned} (h : p ∈ levels s granted kind start) :
    pin? s granted kind = some p.1.pin := by
  unfold levels at h
  unfold pin?
  split_ifs at h ⊢ with hdenied hin hout
  · rcases List.mem_append.1 h with h | h
    · rw [Outputs.pin_of_pulseLevels h]
    · rw [Outputs.pin_of_pulseLevels h]
  · rw [Outputs.pin_of_pulseLevels h]
  · rw [Outputs.pin_of_pulseLevels h]
  · cases h

/-- **Every call that is planned is about the pin of the decision.** -/
theorem pin_of_plan {p : Outputs.Planned} (h : p ∈ plan s granted kind o) :
    pin? s granted kind = some p.1.pin := by
  cases hpin : pin? s granted kind with
  | none =>
    rw [plan_of_none hpin] at h
    cases h
  | some pin =>
    by_cases hrange : Outputs.InRange pin
    · rw [plan_of_inRange hpin hrange] at h
      rcases List.mem_append.1 h with h | h
      · rw [Outputs.pin_of_firstUse h]
      · rw [← hpin, pin_of_levels h]
    · rw [plan_of_outOfRange hpin hrange] at h
      cases h

end Decision

/-! ## What is told -/

/-- What the log says of a decision before it is confirmed: how it was decided, what is done about it,
and why that failed, if it did. -/
def Command.workEntries (c : Command) (s : Settings) (o : Outputs) : List Entry :=
  let work := Decision.work s (isGranted c.result) c.kind o
  [⟨.info, s!"hasAccess: result={c.result} type={c.kind} idPeticion={c.requestId}"⟩, work.2] ++
    match work.1.1 with
    | .ok () => []
    | .error e => [⟨.warn, s!"hasAccess actuator failed: {e.message}"⟩]

/-- What the log says of the confirmation of a decision: nothing if it was taken. -/
def Verdict.confirmationEntries (v : Verdict) (topic : String) : List Entry :=
  v.entries topic ++ if v = .taken then [] else [⟨.warn, "retornoAccessTorn not queued"⟩]

namespace Desk

variable {τ : Type} [Sink τ]

/-- The desk when the work on a decision is over: the gate is free, and the log tells of the work. -/
def worked (d : Desk τ) (o : Outputs) (c : Command) : Desk τ :=
  { d with gate := d.gate.release, journal := d.journal.append (c.workEntries d.current o) }

/-- The message that confirms a decision. -/
def confirmation (d : Desk τ) (c : Command) : Message :=
  ⟨d.current.responseTopic, (Report.accessConfirmed c.requestId (isGranted c.result) c.kind).text,
    .atLeastOnce, false⟩

/-- Confirms a decision. -/
def confirm (d : Desk τ) (c : Command) : Desk τ :=
  match d.send (d.confirmation c) with
  | (true, d) => d
  | (false, d) => d.note .warn "retornoAccessTorn not queued"

/-- **First the work, then the confirmation**, whether the work failed or not. -/
theorem carryOut_eq_confirm (d : Desk τ) (o : Outputs) (c : Command) : d.carryOut o c =
    (isGranted c.result, (d.worked o c).confirm c,
      (Decision.work d.current (isGranted c.result) c.kind o).1.2) := by
  -- what is left of `carryOut` behind the work, on any desk
  have hconfirm : ∀ (d' : Desk τ) (o' : Outputs),
      (match d'.send (d'.confirmation c) with
        | (true, d') => (isGranted c.result, d', o')
        | (false, d') => (isGranted c.result, d'.note .warn "retornoAccessTorn not queued", o')) =
      (isGranted c.result, d'.confirm c, o') := by
    intro d' o'
    unfold confirm
    obtain ⟨taken, d''⟩ := d'.send (d'.confirmation c)
    cases taken with
    | true => rfl
    | false => rfl
  unfold carryOut worked Command.workEntries
  dsimp only
  generalize hlogged : Decision.work _ _ _ _ = work
  have hwork : Decision.work d.current (isGranted c.result) c.kind o = work := hlogged
  rw [hwork]
  obtain ⟨⟨outcome, o'⟩, entry⟩ := work
  cases outcome with
  | ok _ => exact hconfirm _ o'
  | error e => exact hconfirm _ o'

/-- **The confirmation is sent once**, and the log tells of it if it is not taken. -/
theorem confirm_sent (d : Desk (Recorder τ)) (c : Command) : ∃ verdict,
    (d.confirm c).outbox.sent = d.outbox.sent ++ [(d.confirmation c, verdict)] ∧
    (d.confirm c).journal.entries =
      d.journal.entries ++ verdict.confirmationEntries d.current.responseTopic ∧
    (d.confirm c).gate = d.gate := by
  let verdict := (Sink.send d.outbox (d.confirmation c)).1
  let outbox := (Sink.send d.outbox (d.confirmation c)).2
  have hsend : d.send (d.confirmation c) =
      (decide (verdict = .taken), { d with outbox }.log (verdict.entries d.current.responseTopic)) := rfl
  refine ⟨verdict, ?_⟩
  unfold confirm Verdict.confirmationEntries
  rw [hsend]
  by_cases htaken : verdict = .taken
  · rw [decide_eq_true htaken, if_pos htaken, List.append_nil]
    exact ⟨rfl, Journal.entries_append .., rfl⟩
  · rw [decide_eq_false htaken, if_neg htaken, ← List.append_assoc]
    refine ⟨rfl, ?_, rfl⟩
    exact (Journal.entries_note ..).trans (by rw [log, Journal.entries_append])

omit [Sink τ] in
theorem tells_confirmation (d : Desk τ) (c : Command) :
    (d.confirmation c).Tells c.decisionMembers := by
  have hreadable : Report.Readable
      (.accessConfirmed c.requestId (isGranted c.result) c.kind) := trivial
  exact hreadable.tells d.current.responseTopic .atLeastOnce false

end Desk

/-- **A decision fails closed, and is confirmed in any case.** Whatever the desk, the settings, the
outputs, the driver and the sink are like:

* whether access was granted is what the back office said, and the gate is free;
* when the work is over, and whether it failed or not, it is confirmed: one message is sent, which
  tells the decision with its number and its direction as they came. The log tells of it behind the
  work, and behind the failure of the work;
* the calls of the plan are made, up to the first that is refused, and no others: all of them are
  about the pin of the decision;
* if the pin is in range and nothing is refused, the pin is made ready if this is its first use, and
  the levels come at their times. -/
theorem decision_fails_closed {τ : Type} [Sink τ] (d : Desk (Recorder τ)) (o : Outputs) (c : Command) :
    let s := d.current
    let granted := isGranted c.result
    let after := (d.carryOut o c).2.1
    let o' := (d.carryOut o c).2.2
    let calls := o.made (Decision.plan s granted c.kind o)
    (d.carryOut o c).1 = granted ∧
    after.gate = { d.gate with held := false } ∧
    after = (d.worked o c).confirm c ∧
    (∃ m verdict, after.outbox.sent = d.outbox.sent ++ [(m, verdict)] ∧
      m.topic = s.responseTopic ∧ m.delivery = .atLeastOnce ∧ m.retain = false ∧
      m.Tells c.decisionMembers ∧
      after.journal.entries = d.journal.entries ++ c.workEntries s o ++
        verdict.confirmationEntries s.responseTopic) ∧
    o'.history = calls.reverse ++ o.history ∧
    (∀ r ∈ calls, Decision.pin? s granted c.kind = some r.call.pin) ∧
    (∀ pin, Decision.pin? s granted c.kind = some pin → Outputs.InRange pin →
      (∀ n call, o.history.length ≤ n → o.refuses n call = false) →
      o'.events = o.events ++
        (o.firstUse pin ++ Decision.levels s granted c.kind o.clock).map Outputs.Planned.done) := by
  intro s granted after o' calls
  have hcarryOut := d.carryOut_eq_confirm o c
  have hafter : after = (d.worked o c).confirm c := by
    unfold after
    rw [hcarryOut]
  have ho' : o' = (Decision.work s granted c.kind o).1.2 := by
    unfold o'
    rw [hcarryOut]
  obtain ⟨verdict, hsent, hentries, hgate⟩ := (d.worked o c).confirm_sent c
  refine ⟨by rw [hcarryOut], ?_, hafter, ?_, ?_, ?_, ?_⟩
  · rw [hafter, hgate]
    rfl
  · refine ⟨_, verdict, ?_, rfl, rfl, rfl, (d.worked o c).tells_confirmation c, ?_⟩
    · rw [hafter, hsent]
      rfl
    · have hworked : (d.worked o c).journal.entries = d.journal.entries ++ c.workEntries s o :=
        Journal.entries_append ..
      rw [hafter, hentries, hworked]
      rfl
  · rw [ho']
    exact Decision.work_history
  · intro r hr
    exact Decision.pin_of_plan (Outputs.mem_attempts hr)
  · intro pin hpin hrange hobliging
    have hfollows := Decision.work_follows (o := o) hpin hrange
    have hmade := hfollows.events_of_obliging hobliging
    rw [ho']
    exact hmade

/-- Access is denied, and the buzzer sounds twice on its first use. -/
theorem decision_fails_closed_denied :
    let d : Desk (Recorder Outbox) :=
      { gate := ⟨3000000, true, 5⟩, settings := ⟨{}, {}⟩, outbox := ⟨{}, []⟩ }
    let c : Command := { result := "no", kind := "IN", requestId := "7" }
    (d.carryOut {} c).2.2.events =
      [⟨.configure 21, 0, false⟩, ⟨.drive 21 true, 0, false⟩, ⟨.drive 21 false, 150, false⟩,
        ⟨.drive 21 true, 250, false⟩, ⟨.drive 21 false, 400, false⟩] := by
  intro d c
  have hclosed := decision_fails_closed d {} c
  have hevents := hclosed.2.2.2.2.2.2 21 (by decide) (by decide) fun _ _ _ => rfl
  exact hevents.trans (by decide)

end Turnstile

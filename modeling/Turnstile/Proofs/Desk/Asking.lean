import Turnstile.Proofs.Controller.Answers

/-!
# Asking for access is all or nothing

A request for access takes the gate, is sent, and gives the gate back if the message is refused.
Whoever looks at the desk afterwards sees one of three things, whatever held the gate before.

* `Message.Asks`: a message is the request for access of somebody.
* `Desk.Busy`: a hold stands that is not too old.
* `Desk.offer_gateBusy_iff`: who asks is turned away if and only if the gate is busy.
* `offer_all_or_nothing`: **a request is taken and holds the gate, or is not made at all, or is refused
  and leaves the gate free**.
-/

namespace Turnstile

/-- Whether a message is the request for access of a source, under given settings. -/
structure Message.Asks (m : Message) (s : Settings) (source : Source) (id user : String) : Prop where
  topic : m.topic = s.responseTopic
  delivery : m.delivery = .atLeastOnce
  retain : m.retain = false
  tells : m.Tells (s.accessMembers source id user)

namespace Desk

variable {τ : Type} [Sink τ]

omit [Sink τ] in
/-- Whether somebody holds the gate, and not for longer than its patience. -/
def Busy (d : Desk τ) (now : Nat) : Prop :=
  d.gate.held = true ∧ now ≤ d.gate.since + d.gate.patience

omit [Sink τ] in
theorem busy_iff_stands (d : Desk τ) (now : Nat) : d.Busy now ↔ d.gate.stands now = true := by
  unfold Busy Gate.stands
  rw [Bool.and_eq_true, decide_eq_true_eq, Nat.sub_le_iff_le_add']

omit [Sink τ] in
theorem not_busy_iff_stands (d : Desk τ) (now : Nat) : ¬ d.Busy now ↔ d.gate.stands now = false := by
  rw [busy_iff_stands, Bool.not_eq_true]

/-- **Who asks is turned away if and only if the gate is busy**, whatever the sink does. -/
theorem offer_gateBusy_iff (d : Desk τ) (source : Source) (id user : String) (now : Nat) :
    (d.offer source id user now).1 = .gateBusy ↔ d.Busy now := by
  rw [busy_iff_stands]
  obtain ⟨journal, ⟨hstands, hoffer⟩ | ⟨hfree, -, hoffer⟩ | ⟨hfree, -, hoffer⟩⟩ :=
    d.offer_cases source id user now
  · simp [hoffer, hstands]
  · simp [hoffer, hfree]
  · simp [hoffer, hfree]

omit [Sink τ] in
/-- The message that is sent is the request of who asks. -/
theorem accessRequest_asks (d : Desk τ) (source : Source) (id user : String) :
    (d.accessRequest source id user).Asks d.current source id user where
  topic := rfl
  delivery := rfl
  retain := rfl
  tells :=
    have hrequest : Report.Readable
      (.accessRequest source.label id user d.current.deviceId d.current.turnstileId) := trivial
    hrequest.tells d.current.responseTopic .atLeastOnce false

end Desk

/-- **Asking for access is all or nothing**, for whoever asks, whatever the gate was before and
whatever the sink does. Nothing but the gate, the sink and the log is touched, and:

* the gate was not busy, the one message that was sent is the request and was taken, and the gate is
  held from now on: nobody else gets through until the patience of the gate is over; or
* the gate was busy, nothing was sent, and the gate is as it was; or
* the gate was not busy, the one message that was sent is the request and was refused, and the gate is
  free: whoever asks next, at whatever time and under whatever settings, is not turned away. -/
theorem offer_all_or_nothing {τ : Type} [Sink τ] (d : Desk (Recorder τ)) (source : Source)
    (id user : String) (now : Nat) :
    let (offer, after) := d.offer source id user now
    after.settings = d.settings ∧
    ((offer = .published ∧ ¬ d.Busy now ∧
        (∃ m, m.Asks d.current source id user ∧ after.outbox.sent = d.outbox.sent ++ [(m, .taken)]) ∧
        after.gate = { d.gate with held := true, since := now } ∧
        ∀ next : Desk (Recorder τ), next.gate = after.gate → ∀ source id user later,
          (next.offer source id user later).1 = .gateBusy ↔ later ≤ now + d.gate.patience) ∨
      (offer = .gateBusy ∧ d.Busy now ∧ after.outbox = d.outbox ∧ after.gate = d.gate) ∨
      (offer = .queueFull ∧ ¬ d.Busy now ∧
        (∃ m verdict, m.Asks d.current source id user ∧ verdict ≠ .taken ∧
          after.outbox.sent = d.outbox.sent ++ [(m, verdict)]) ∧
        after.gate.held = false ∧
        ∀ next : Desk (Recorder τ), next.gate = after.gate → ∀ source id user later,
          (next.offer source id user later).1 ≠ .gateBusy)) := by
  have hasks := d.accessRequest_asks source id user
  obtain ⟨journal, ⟨hstands, hoffer⟩ | ⟨hfree, htaken, hoffer⟩ | ⟨hfree, hrefused, hoffer⟩⟩ :=
    d.offer_cases source id user now
  · have hbusy : d.Busy now := (d.busy_iff_stands now).2 hstands
    rw [hoffer]
    exact ⟨rfl, .inr (.inl ⟨rfl, hbusy, rfl, rfl⟩)⟩
  · have hnot : ¬ d.Busy now := (d.not_busy_iff_stands now).2 hfree
    have hsent : (Sink.send d.outbox (d.accessRequest source id user)).2.sent =
        d.outbox.sent ++ [(d.accessRequest source id user, .taken)] := by
      rw [← htaken]
      rfl
    rw [hoffer]
    refine ⟨rfl, .inl ⟨rfl, hnot, ⟨_, hasks, hsent⟩, rfl, ?_⟩⟩
    intro next hgate source id user later
    rw [next.offer_gateBusy_iff, Desk.Busy, hgate]
    exact and_iff_right rfl
  · have hnot : ¬ d.Busy now := (d.not_busy_iff_stands now).2 hfree
    rw [hoffer]
    refine ⟨rfl, .inr (.inr ⟨rfl, hnot, ⟨_, _, hasks, hrefused, rfl⟩, rfl, ?_⟩)⟩
    intro next hgate source id user later hbusy
    -- the gate that was given back is held by nobody
    have hheld := ((next.offer_gateBusy_iff source id user later).1 hbusy).1
    rw [hgate] at hheld
    cases hheld

end Turnstile

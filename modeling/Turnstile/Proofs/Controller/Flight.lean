import Turnstile.Proofs.Controller.Readers
import Turnstile.Proofs.Desk.Requests
import Turnstile.Simulation.Field

/-!
# One request at a time

Readers, scanner and commands share the gate of one desk.

* `Controller.meet`: what the readers, the scanner and the decisions on access do, and what
  happens at the desk meanwhile.
* `steps_meet`: they do nothing to the gate and to the record but what happens at the desk.
* `one_request_in_flight`: **at most one request is in flight**, whatever the order of events.
-/

namespace Turnstile

open Desk (Step Steps InFlight AnswersInFlight)

/-- What became of the request that a look at a reader made, if it made one. -/
def Poll.offer? : Poll → Option Offer
  | .offered o => some o
  | _ => none

/-- What became of the request for a code, if there was one. -/
def ScanOutcome.offer? : ScanOutcome → Option Offer
  | .offered o => some o
  | _ => none

/-- What happens at the desk when access is asked for, or is not. -/
def asking (now : Nat) : Option Offer → List Moment
  | some o => [.asked now o]
  | none => []

theorem time_asking {now : Nat} {o : Option Offer} {m : Moment} (h : m ∈ asking now o) :
    m.time = now := by
  cases o with
  | some o => rw [List.mem_singleton.1 h]; rfl
  | none => cases h

/-- The controller after a command, up to where a card is to be written. -/
def Dispatched.controller {σ τ : Type} : Dispatched σ τ → Controller σ τ
  | .done c => c
  | .writing _ c => c

/-- What happens to a controller, with times in microseconds. -/
inductive Occasion (σ τ : Type) where
  | poll (now : Nat)
  | scan (bytes : Bytes) (now : Nat)
  /-- A command that decides on access; it is meant for the request of a number. -/
  | decide (command : Command) (now request : Nat)
  /-- What is before the readers, what becomes of messages, the link and the jobs change. -/
  | meanwhile (bus : σ) (inner : τ) (link : Link) (jobs : JobBook)

/-- When it happens, if that matters. -/
def Occasion.time? {σ τ : Type} : Occasion σ τ → Option Nat
  | .poll now => some now
  | .scan _ now => some now
  | .decide _ now _ => some now
  | .meanwhile .. => none

namespace Controller

variable {σ τ : Type} [RegisterBus σ] [Sink τ]

/-- Something happens: what happens at the desk by that, and the controller after it. -/
def meet (c : Controller σ (Recorder τ)) : Occasion σ τ → List Moment × Controller σ (Recorder τ)
  | .poll now =>
    match c.pollCycle now with
    | ((entry, exit), c) => (asking now entry.offer? ++ asking now exit.offer?, c)
  | .scan bytes now =>
    match c.feed bytes now with
    | (codes, c) => (codes.flatMap (asking now ·.2.offer?), c)
  | .decide command now request =>
    ([.answered now request], (c.dispatch { command with action := "hasAccess" }).controller)
  | .meanwhile bus inner link jobs =>
    ([], { c with bus, link, jobs, desk := { c.desk with outbox := { c.desk.outbox with inner } } })

/-- All that happens at the desk in the course of events, and the controller after them. -/
def meetAll (c : Controller σ (Recorder τ)) :
    List (Occasion σ τ) → List Moment × Controller σ (Recorder τ)
  | [] => ([], c)
  | e :: es =>
    match c.meet e with
    | (moments, c) =>
      match c.meetAll es with
      | (more, c) => (moments ++ more, c)

variable (c : Controller σ (Recorder τ))

/-! ## What leaves the desk alone -/

omit [RegisterBus σ] [Sink τ] in
theorem ledger_takeJob (now : Nat) : (c.takeJob now).desk.ledger = c.desk.ledger := by
  obtain ⟨jobs, journal, h⟩ := c.takeJob_eq now
  rw [h]
  rfl

omit [Sink τ] in
theorem ledger_tryWrite (text : String) : (c.tryWrite text).2.desk.ledger = c.desk.ledger := by
  obtain ⟨answer, health, journal, hwrite⟩ := c.tryWrite_eq text
  rw [hwrite]
  rfl

/-! ## What happens at the desk -/

omit [RegisterBus σ] in
theorem steps_identified (role : Role) (uid : Uid) (user : String) (now : Nat) :
    Steps c.desk.ledger (asking now (c.identified role uid user now).1.offer?)
      (c.identified role uid user now).2.desk.ledger := by
  unfold identified
  split
  · exact .nil
  · exact .one (c.desk.step_offer role.source uid.hex user now)

/-- One look at a reader. -/
theorem steps_scan (role : Role) (now : Nat) :
    Steps c.desk.ledger (asking now (c.scan role now).1.offer?) (c.scan role now).2.desk.ledger := by
  obtain ⟨poll, health, journal, hpoll, hscan⟩ | ⟨uid, user, health, journal, hscan⟩ := c.scan_cases role now
  · rw [hscan]
    rcases hpoll with rfl | rfl <;> exact .nil
  · obtain ⟨d, hd, hledger⟩ : ∃ d : Controller σ (Recorder τ),
        c.scan role now = d.identified role uid user now ∧ d.desk.ledger = c.desk.ledger :=
      ⟨_, hscan, rfl⟩
    rw [hd, ← hledger]
    exact steps_identified d role uid user now

theorem steps_pollExit (now : Nat) :
    Steps c.desk.ledger (asking now (c.pollExit now).1.offer?) (c.pollExit now).2.desk.ledger := by
  unfold pollExit
  split
  · exact c.steps_scan .exit now
  · next job _ =>
    rw [← ledger_tryWrite c job.text]
    split
    · next heq => rw [heq]; exact .nil
    · next heq => rw [heq]; exact .nil

omit [RegisterBus σ] in
theorem steps_offerCode (code : String) (now : Nat) :
    Steps c.desk.ledger (asking now (c.offerCode code now).1.offer?)
      (c.offerCode code now).2.desk.ledger := by
  unfold offerCode
  split
  · exact .one (c.desk.step_offer .code code "" now)
  · exact .nil

omit [RegisterBus σ] in
theorem steps_scanned (code : String) (now : Nat) :
    Steps c.desk.ledger (asking now (c.scanned code now).1.offer?) (c.scanned code now).2.desk.ledger := by
  unfold scanned
  dsimp only
  split
  · exact .nil
  · next seen _ =>
    exact steps_offerCode { c.note .info s!"QR detected: '{code}'" with
      scanner := { c.scanner with debounce := seen } } code now

omit [RegisterBus σ] in
theorem steps_scannedAll (now : Nat) (codes : List (String × List Entry)) :
    Steps c.desk.ledger ((scannedAll now codes c).1.flatMap (asking now ·.2.offer?))
      (scannedAll now codes c).2.desk.ledger := by
  induction codes generalizing c with
  | nil => exact .nil
  | cons code codes ih => exact (steps_scanned (c.log code.2) code.1 now).append (ih _)

omit [RegisterBus σ] in
theorem steps_feed (bs : Bytes) (now : Nat) :
    Steps c.desk.ledger ((c.feed bs now).1.flatMap (asking now ·.2.offer?)) (c.feed bs now).2.desk.ledger := by
  unfold feed
  dsimp only
  generalize (c.scanner.buffer.push bs).1.codes = found
  obtain ⟨codes, rest, last⟩ := found
  exact steps_scannedAll { c.log (Serial.received "QR RX:" bs ++ (c.scanner.buffer.push bs).2) with
    scanner := { c.scanner with buffer := rest } } now codes

omit [RegisterBus σ] in
theorem step_dispatch {command : Command} (h : command.request = .decideAccess) {now request : Nat} :
    Step c.desk.ledger (.answered now request) (c.dispatch command).controller.desk.ledger := by
  unfold dispatch
  dsimp only
  rw [h]
  exact (c.note .info _).desk.step_carryOut c.outputs command now request

/-- **Whatever happens does nothing to the gate and to the record but what happens at the
desk.** -/
theorem steps_meet (e : Occasion σ τ) :
    Steps c.desk.ledger (c.meet e).1 (c.meet e).2.desk.ledger := by
  cases e with
  | poll now =>
    rw [← ledger_takeJob c now]
    exact (steps_scan (c.takeJob now) .entry now).append
      (steps_pollExit ((c.takeJob now).scan .entry now).2 now)
  | scan bytes now => exact c.steps_feed bytes now
  | decide command now request => exact .one (c.step_dispatch (by simp [Command.request, Action.ofName]))
  | meanwhile bus inner link jobs => exact .nil

theorem steps_meetAll (es : List (Occasion σ τ)) :
    Steps c.desk.ledger (c.meetAll es).1 (c.meetAll es).2.desk.ledger := by
  induction es generalizing c with
  | nil => exact .nil
  | cons e es ih => exact (c.steps_meet e).append (ih _)

/-! ## Times -/

variable {c : Controller σ (Recorder τ)} {es : List (Occasion σ τ)}

theorem time_meet {e : Occasion σ τ} {m : Moment} (hm : m ∈ (c.meet e).1) :
    e.time? = some m.time := by
  cases e with
  | poll now =>
    rcases List.mem_append.1 hm with hm | hm
    · rw [time_asking hm]; rfl
    · rw [time_asking hm]; rfl
  | scan bytes now =>
    obtain ⟨code, -, hm⟩ := List.mem_flatMap.1 hm
    rw [time_asking hm]; rfl
  | decide command now request => rw [List.mem_singleton.1 hm]; rfl
  | meanwhile bus inner link jobs => cases hm

theorem time_meetAll {m : Moment} (hm : m ∈ (c.meetAll es).1) :
    m.time ∈ es.filterMap Occasion.time? := by
  induction es generalizing c with
  | nil => cases hm
  | cons e es ih =>
    rcases List.mem_append.1 hm with hm | hm
    · exact List.mem_filterMap.2 ⟨e, List.mem_cons_self, time_meet hm⟩
    · obtain ⟨e', he', htime⟩ := List.mem_filterMap.1 (ih hm)
      exact List.mem_filterMap.2 ⟨e', List.mem_cons_of_mem e he', htime⟩

/-- What happens at the desk happens in the order of the events. -/
theorem pairwise_meetAll (h : (es.filterMap Occasion.time?).Pairwise (· ≤ ·)) :
    (c.meetAll es).1.Pairwise (·.time ≤ ·.time) := by
  induction es generalizing c with
  | nil => exact .nil
  | cons e es ih =>
    have hrest : (es.filterMap Occasion.time?).Pairwise (· ≤ ·) :=
      h.sublist ((List.sublist_cons_self e es).filterMap _)
    refine List.pairwise_append.2 ⟨?_, ih hrest, fun m hm m' hm' => ?_⟩
    · -- what happens by one event happens at one time
      refine List.pairwise_of_forall_sublist fun hsub => ?_
      have hm := hsub.subset List.mem_cons_self
      have hm' := hsub.subset (List.mem_cons_of_mem _ List.mem_cons_self)
      exact Nat.le_of_eq (Option.some.inj ((time_meet hm).symm.trans (time_meet hm')))
    · rw [List.filterMap_cons, time_meet hm] at h
      exact List.rel_of_pairwise_cons h (time_meetAll hm')

/-- **One request at a time.** When events come in the order of their times and every decision is
on a request in flight, then at every moment at most one request is in flight; whoever asks for
access meanwhile finds the gate busy; and the record of what was sent holds what was sent at each
moment, which is nothing when the gate was busy, and no more. -/
theorem one_request_in_flight (c : Controller σ (Recorder τ)) (es : List (Occasion σ τ))
    (hgate : c.desk.gate = .new Gate.patienceMs)
    (htimes : (es.filterMap Occasion.time?).Pairwise (· ≤ ·))
    (hanswers : AnswersInFlight (c.meetAll es).1) :
    (∀ past later now i j, (c.meetAll es).1 = past ++ later → (∀ m ∈ past, m.time ≤ now) →
      InFlight past i now → InFlight past j now → i = j) ∧
    (∀ past later now i offer, (c.meetAll es).1 = past ++ .asked now offer :: later →
      InFlight past i now → offer = .gateBusy) ∧
    ∃ parts, List.Forall₂ Moment.Sends (c.meetAll es).1 parts ∧
      (c.meetAll es).2.desk.outbox.sent = c.desk.outbox.sent ++ parts.flatten := by
  have hsteps := c.steps_meetAll es
  have hpairwise := pairwise_meetAll (c := c) htimes
  refine ⟨fun past later now i j hsplit hnow hi hj => ?_, fun past later now i offer hsplit hi => ?_,
    hsteps.sends⟩
  · rw [hsplit] at hsteps hpairwise hanswers
    exact hsteps.inFlight_unique hgate hpairwise hanswers hnow hi hj
  · rw [hsplit] at hsteps hpairwise hanswers
    exact hsteps.gateBusy hgate hpairwise hanswers hi

/-- A card is before each reader, and the link is up. -/
def twoCards : Controller Field (Recorder Outbox) :=
  { bus := (Field.new.present .entry { uid := ⟨1, 2, 3, 4⟩ }).present .exit { uid := ⟨5, 6, 7, 8⟩ }
    desk := { settings := ⟨{}, {}⟩, outbox := { inner := {} } }
    link := .online }

/-- Both readers are polled, the request is answered two seconds later, and a code is scanned. -/
def pollAnswerScan : List (Occasion Field Outbox) :=
  [.poll 0, .decide {} 2000000 0, .scan [0x03, 0x01, 0x41] 2500000]

theorem meetAll_twoCards : (twoCards.meetAll pollAnswerScan).1 =
    [.asked 0 .published, .asked 0 .gateBusy, .answered 2000000 0, .asked 2500000 .published] := by
  decide +kernel

theorem answersInFlight_twoCards : AnswersInFlight (twoCards.meetAll pollAnswerScan).1 := by
  rw [meetAll_twoCards]
  intro past now i later h
  match past with
  | [] | [_] | [_, _, _] | _ :: _ :: _ :: _ :: _ => simp at h
  | [_, _] =>
    -- the answer comes third, two seconds after the request
    simp only [List.cons_append, List.nil_append, List.cons.injEq, Moment.answered.injEq] at h
    obtain ⟨rfl, rfl, ⟨rfl, rfl⟩, rfl⟩ := h
    exact ⟨0, rfl, by decide, by decide⟩

/-- The reader at the exit finds the gate busy; the code that is scanned after the answer does
not. -/
theorem one_request_in_flight_two_cards :
    twoCards.desk.gate = .new Gate.patienceMs ∧
    (pollAnswerScan.filterMap Occasion.time?).Pairwise (· ≤ ·) ∧
    AnswersInFlight (twoCards.meetAll pollAnswerScan).1 ∧
    ∀ past later now i offer,
      (twoCards.meetAll pollAnswerScan).1 = past ++ .asked now offer :: later →
      InFlight past i now → offer = .gateBusy :=
  ⟨rfl, by decide, answersInFlight_twoCards,
    (one_request_in_flight twoCards pollAnswerScan rfl (by decide) answersInFlight_twoCards).2.1⟩

end Controller

end Turnstile

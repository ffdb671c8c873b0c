import Mathlib.Data.List.Basic
import Turnstile.Proofs.Desk.Closed

/-!
# Requests in flight

What the gate is for: of the requests for access that were taken, at most one is in flight.

* `Recorder`: any sink, with a record of what was sent to it.
* `InFlight`: a request was taken, is not too old and was not answered.
* `Step`: all that asking for access and answering do to the gate and to the record.
* `Tracks`: the invariant. A request that was not answered holds the gate, or is too old.
* `Steps.inFlight_unique`, `Steps.gateBusy`: **at most one request is in flight**, and whoever asks
  meanwhile finds the gate busy.
-/

namespace Turnstile

/-- A sink with a record of the messages that were sent to it and what became of them, oldest
first. -/
structure Recorder (τ : Type) where
  inner : τ
  sent : List (Message × Verdict) := []

instance {τ : Type} [Sink τ] : Sink (Recorder τ) where
  send r m :=
    match Sink.send r.inner m with
    | (verdict, inner) => (verdict, ⟨inner, r.sent ++ [(m, verdict)]⟩)

/-- Whether a message asks for access. -/
def Message.AsksAccess (m : Message) : Prop :=
  ∃ topic, ∃ source : Source, ∃ id user deviceId turnstileId,
    m = ⟨topic, (Report.accessRequest source.label id user deviceId turnstileId).text, .atLeastOnce,
      false⟩

/-- Whether a message confirms a decision on access. -/
def Message.ConfirmsAccess (m : Message) : Prop :=
  ∃ topic requestId granted kind,
    m = ⟨topic, (Report.accessConfirmed requestId granted kind).text, .atLeastOnce, false⟩

/-- What happens at the desk: access is asked for, with an outcome, or the request of a number
is answered. -/
inductive Moment where
  | asked (now : Nat) (offer : Offer)
  | answered (now request : Nat)
deriving DecidableEq, Repr

namespace Moment

/-- When it happens, in microseconds. -/
def time : Moment → Nat
  | asked now _ => now
  | answered now _ => now

/-- What is sent at a moment, and what becomes of it. -/
inductive Sends : Moment → List (Message × Verdict) → Prop
  | published {now m} : m.AsksAccess → Sends (asked now .published) [(m, .taken)]
  | gateBusy {now} : Sends (asked now .gateBusy) []
  | queueFull {now m v} : m.AsksAccess → v ≠ .taken → Sends (asked now .queueFull) [(m, v)]
  | answered {now i m v} : m.ConfirmsAccess → Sends (answered now i) [(m, v)]

end Moment

namespace Desk

/-! ## Histories -/

/-- When the requests that were taken were made; their places are their numbers. -/
def accepted (past : List Moment) : List Nat :=
  past.filterMap fun
    | .asked now .published => some now
    | _ => none

/-- The numbers of the requests that were answered. -/
def answers (past : List Moment) : List Nat :=
  past.filterMap fun
    | .answered _ i => some i
    | _ => none

/-- Whether a request is in flight at `now`: it was taken, it is not older than the patience of
the gate, and it was not answered. -/
def InFlight (past : List Moment) (i now : Nat) : Prop :=
  ∃ since, (accepted past)[i]? = some since ∧ now ≤ since + Gate.patienceMs * 1000 ∧
    i ∉ answers past

/-- Whether every answer was to a request in flight. -/
def AnswersInFlight (history : List Moment) : Prop :=
  ∀ past now i later, history = past ++ .answered now i :: later → InFlight past i now

/-! ## Steps -/

/-- The gate, and the record of what was sent. -/
structure Ledger where
  gate : Gate
  sent : List (Message × Verdict)

/-- All that a moment does to the gate and to the record. -/
inductive Step : Ledger → Moment → Ledger → Prop
  | gateBusy {v now} : v.gate.stands now = true → Step v (.asked now .gateBusy) v
  | published {v now m} : v.gate.stands now = false → m.AsksAccess →
      Step v (.asked now .published)
        ⟨{ v.gate with held := true, since := now }, v.sent ++ [(m, .taken)]⟩
  | queueFull {v now m r} : v.gate.stands now = false → m.AsksAccess → r ≠ .taken →
      Step v (.asked now .queueFull)
        ⟨{ v.gate with held := false, since := now }, v.sent ++ [(m, r)]⟩
  | answered {v now i m r} : m.ConfirmsAccess →
      Step v (.answered now i) ⟨v.gate.release, v.sent ++ [(m, r)]⟩

/-- Moments one after another. -/
inductive Steps : Ledger → List Moment → Ledger → Prop
  | nil {v} : Steps v [] v
  | cons {u v w m later} : Step u m v → Steps v later w → Steps u (m :: later) w

theorem Steps.one {u v : Ledger} {m : Moment} (h : Step u m v) : Steps u [m] v :=
  .cons h .nil

theorem Steps.append {u v w : Ledger} {past later : List Moment} (h : Steps u past v)
    (h' : Steps v later w) : Steps u (past ++ later) w := by
  induction h with
  | nil => exact h'
  | cons hstep _ ih => exact .cons hstep (ih h')

theorem Steps.split {u w : Ledger} {past later : List Moment} (h : Steps u (past ++ later) w) :
    ∃ v, Steps u past v ∧ Steps v later w := by
  induction past generalizing u with
  | nil => exact ⟨u, .nil, h⟩
  | cons m past ih =>
    cases h with
    | cons hstep h =>
      obtain ⟨v, hpast, hlater⟩ := ih h
      exact ⟨v, .cons hstep hpast, hlater⟩

theorem Step.sends {u v : Ledger} {m : Moment} (h : Step u m v) :
    ∃ part, m.Sends part ∧ v.sent = u.sent ++ part := by
  cases h with
  | gateBusy hstands => exact ⟨[], .gateBusy, by simp⟩
  | published hfree hm => exact ⟨_, .published hm, rfl⟩
  | queueFull hfree hm hr => exact ⟨_, .queueFull hm hr, rfl⟩
  | answered hm => exact ⟨_, .answered hm, rfl⟩

/-- **The record accounts for every moment**, and holds nothing else. -/
theorem Steps.sends {u w : Ledger} {history : List Moment} (h : Steps u history w) :
    ∃ parts, List.Forall₂ Moment.Sends history parts ∧ w.sent = u.sent ++ parts.flatten := by
  induction h with
  | nil => exact ⟨[], .nil, by simp⟩
  | cons hstep _ ih =>
    obtain ⟨part, hpart, hone⟩ := hstep.sends
    obtain ⟨parts, hparts, hsent⟩ := ih
    exact ⟨part :: parts, .cons hpart hparts, by rw [hsent, hone]; simp⟩

/-! ## The invariant -/

variable {past later history : List Moment} {g : Gate} {m : Moment}

theorem accepted_append : accepted (past ++ later) = accepted past ++ accepted later :=
  List.filterMap_append

theorem answers_append : answers (past ++ later) = answers past ++ answers later :=
  List.filterMap_append

@[simp] theorem accepted_published {now : Nat} : accepted [.asked now .published] = [now] := rfl

@[simp] theorem accepted_gateBusy {now : Nat} : accepted [.asked now .gateBusy] = [] := rfl

@[simp] theorem accepted_queueFull {now : Nat} : accepted [.asked now .queueFull] = [] := rfl

@[simp] theorem accepted_answered {now i : Nat} : accepted [.answered now i] = [] := rfl

@[simp] theorem answers_asked {now : Nat} {offer : Offer} : answers [.asked now offer] = [] := rfl

@[simp] theorem answers_answered {now i : Nat} : answers [.answered now i] = [i] := rfl

/-- A request that was not answered is the newest and holds the gate, or is too old at some
moment of the past. -/
structure Tracks (past : List Moment) (g : Gate) : Prop where
  patience : g.patience = Gate.patienceMs * 1000
  open_or_old : ∀ i since, (accepted past)[i]? = some since → i ∉ answers past →
    i + 1 = (accepted past).length ∧ g.held = true ∧ g.since = since ∨
    ∃ m ∈ past, since + Gate.patienceMs * 1000 < m.time

namespace Tracks

theorem new : Tracks [] (.new Gate.patienceMs) :=
  ⟨by decide, nofun⟩

/-- **A request in flight is the newest, and the gate is held for it.** -/
theorem newest {i now : Nat} (h : Tracks past g) (hnow : ∀ m ∈ past, m.time ≤ now)
    (hi : InFlight past i now) : i + 1 = (accepted past).length ∧ g.stands now = true := by
  obtain ⟨since, hsince, hage, hopen⟩ := hi
  rcases h.open_or_old i since hsince hopen with ⟨hlast, hheld, rfl⟩ | ⟨m, hm, hold⟩
  · refine ⟨hlast, ?_⟩
    rw [Gate.stands, hheld, h.patience, Bool.true_and, decide_eq_true_eq]
    omega
  · -- it was too old at some moment, and it is no younger now
    have := hnow m hm
    omega

/-- When the gate is free, all requests that were not answered are too old. -/
theorem old_of_free {i since : Nat} (h : Tracks past g) (hfree : g.stands m.time = false)
    (hsince : (accepted past)[i]? = some since) (hopen : i ∉ answers past) :
    ∃ m' ∈ past ++ [m], since + Gate.patienceMs * 1000 < m'.time := by
  rcases h.open_or_old i since hsince hopen with ⟨-, hheld, rfl⟩ | ⟨m', hm', hold⟩
  · rw [Gate.stands, hheld, h.patience, Bool.true_and, decide_eq_false_iff_not] at hfree
    exact ⟨m, by simp, by omega⟩
  · exact ⟨m', List.mem_append_left _ hm', hold⟩

/-- Every moment keeps the invariant, if answers are to requests in flight. -/
theorem step {u v : Ledger} (h : Tracks past u.gate) (hstep : Step u m v)
    (hnow : ∀ m' ∈ past, m'.time ≤ m.time)
    (hanswer : ∀ now i, m = .answered now i → InFlight past i now) : Tracks (past ++ [m]) v.gate := by
  cases hstep with
  | gateBusy hstands =>
    refine ⟨h.patience, fun i since hsince hopen => ?_⟩
    rw [accepted_append, accepted_gateBusy, List.append_nil] at hsince ⊢
    rw [answers_append, answers_asked, List.append_nil] at hopen
    rcases h.open_or_old i since hsince hopen with hgate | ⟨m', hm', hold⟩
    · exact .inl hgate
    · exact .inr ⟨m', List.mem_append_left _ hm', hold⟩
  | @published now _ hfree hm =>
    refine ⟨h.patience, fun i since hsince hopen => ?_⟩
    rw [accepted_append, accepted_published] at hsince ⊢
    rw [answers_append, answers_asked, List.append_nil] at hopen
    -- the request that was just taken has the number `(accepted past).length`
    rcases Nat.lt_or_ge i (accepted past).length with hi | hi
    · rw [List.getElem?_append_left hi] at hsince
      exact .inr (h.old_of_free hfree hsince hopen)
    · obtain ⟨hlt, hsince⟩ := List.getElem?_eq_some_iff.1 hsince
      have hlast : i = (accepted past).length := by simp at hlt; omega
      subst hlast
      rw [List.getElem_append_right hi] at hsince
      exact .inl ⟨by simp, rfl, by simpa using hsince⟩
  | queueFull hfree hm hr =>
    -- the gate is free again and holds for no request, but it was free before as well
    refine ⟨h.patience, fun i since hsince hopen => ?_⟩
    rw [accepted_append, accepted_queueFull, List.append_nil] at hsince
    rw [answers_append, answers_asked, List.append_nil] at hopen
    exact .inr (h.old_of_free hfree hsince hopen)
  | @answered now j _ _ hm =>
    refine ⟨h.patience, fun i since hsince hopen => ?_⟩
    rw [accepted_append, accepted_answered, List.append_nil] at hsince
    rw [answers_append, answers_answered, List.mem_append, List.mem_singleton, not_or] at hopen
    rcases h.open_or_old i since hsince hopen.1 with ⟨hlast, -⟩ | ⟨m', hm', hold⟩
    · -- the newest request is the one that was answered
      have hj := (h.newest hnow (hanswer now j rfl)).1
      exact absurd (by omega) hopen.2
    · exact .inr ⟨m', List.mem_append_left _ hm', hold⟩

/-- **All moments keep the invariant.** -/
theorem steps {u v : Ledger} (h : Tracks past u.gate) (hsteps : Steps u later v)
    (htimes : (past ++ later).Pairwise (·.time ≤ ·.time)) (hanswers : AnswersInFlight (past ++ later)) :
    Tracks (past ++ later) v.gate := by
  induction hsteps generalizing past with
  | nil => rwa [List.append_nil]
  | @cons u v w m later hstep _ ih =>
    -- the first moment to come joins the past
    have hsplit : past ++ m :: later = (past ++ [m]) ++ later := by simp
    rw [hsplit]
    refine ih (h.step hstep (fun m' hm' => ?_) fun now i hm => ?_) (hsplit ▸ htimes) (hsplit ▸ hanswers)
    · exact (List.pairwise_append.1 htimes).2.2 m' hm' m List.mem_cons_self
    · exact hanswers past now i later (by rw [hm])

end Tracks

/-! ## Runs of the desk -/

theorem AnswersInFlight.before (h : AnswersInFlight (past ++ later)) : AnswersInFlight past := by
  rintro past' now i later' rfl
  exact h past' now i (later' ++ later) (by simp)

section Run

variable {u w : Ledger} (h : Steps u (past ++ later) w) (hgate : u.gate = .new Gate.patienceMs)
  (htimes : (past ++ later).Pairwise (·.time ≤ ·.time)) (hanswers : AnswersInFlight (past ++ later))

include h hgate htimes hanswers

theorem Steps.tracks : ∃ v, Tracks past v.gate ∧ Steps v later w := by
  obtain ⟨v, hpast, hlater⟩ := h.split
  have hnew : Tracks [] u.gate := hgate ▸ .new
  exact ⟨v, hnew.steps hpast (List.pairwise_append.1 htimes).1 hanswers.before, hlater⟩

/-- **At most one request is in flight.** -/
theorem Steps.inFlight_unique {i j now : Nat} (hnow : ∀ m ∈ past, m.time ≤ now)
    (hi : InFlight past i now) (hj : InFlight past j now) : i = j := by
  obtain ⟨v, htracks, -⟩ := h.tracks hgate htimes hanswers
  have hi := (htracks.newest hnow hi).1
  have hj := (htracks.newest hnow hj).1
  omega

end Run

/-- **Whoever asks while a request is in flight finds the gate busy.** -/
theorem Steps.gateBusy {u w : Ledger} {now i : Nat} {offer : Offer}
    (h : Steps u (past ++ .asked now offer :: later) w) (hgate : u.gate = .new Gate.patienceMs)
    (htimes : (past ++ .asked now offer :: later).Pairwise (·.time ≤ ·.time))
    (hanswers : AnswersInFlight (past ++ .asked now offer :: later)) (hi : InFlight past i now) :
    offer = .gateBusy := by
  obtain ⟨v, htracks, hlater⟩ := h.tracks hgate htimes hanswers
  have hstands : v.gate.stands now = true := (htracks.newest (fun m hm =>
    (List.pairwise_append.1 htimes).2.2 m hm _ List.mem_cons_self) hi).2
  cases hlater with
  | cons hstep _ =>
    cases hstep with
    | gateBusy => rfl
    | published hfree => rw [hstands] at hfree; cases hfree
    | queueFull hfree => rw [hstands] at hfree; cases hfree

/-! ## What the desk does -/

variable {τ : Type} [Sink τ]

/-- The gate of a desk, and the record of what it sent. -/
def ledger (d : Desk (Recorder τ)) : Ledger :=
  ⟨d.gate, d.outbox.sent⟩

/-- **Asking for access is a moment of the desk.** -/
theorem step_offer (d : Desk (Recorder τ)) (source : Source) (id user : String) (now : Nat) :
    Step d.ledger (.asked now (d.offer source id user now).1)
      (d.offer source id user now).2.ledger := by
  let m := d.accessRequest source id user
  have hasks : m.AsksAccess := ⟨_, _, _, _, _, _, rfl⟩
  obtain ⟨journal, ⟨hstands, hoffer⟩ | ⟨hfree, htaken, hoffer⟩ | ⟨hfree, hrefused, hoffer⟩⟩ :=
    d.offer_cases source id user now
  · rw [hoffer]
    exact .gateBusy hstands
  · have hstep : Step d.ledger (.asked now .published)
        ⟨{ d.gate with held := true, since := now }, d.outbox.sent ++ [(m, .taken)]⟩ :=
      .published hfree hasks
    rw [← htaken] at hstep
    rw [hoffer]
    exact hstep
  · rw [hoffer]
    exact .queueFull hfree hasks hrefused

/-- **A decision is a moment of the desk.** -/
theorem step_carryOut (d : Desk (Recorder τ)) (o : Outputs) (c : Command) (now i : Nat) :
    Step d.ledger (.answered now i) (d.carryOut o c).2.1.ledger := by
  obtain ⟨journal, hcarryOut⟩ := d.carryOut_eq o c
  rw [hcarryOut]
  exact .answered ⟨_, _, _, _, rfl⟩

end Desk

end Turnstile

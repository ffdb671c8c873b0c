import Mathlib.Data.List.Basic
import Turnstile.Gate

/-!
# How long a gate is held

What a gate answers follows from the attempts before, whatever clock they were made by.

* `Gate.Call`, `Gate.Event`: what is asked of a gate, and what became of it.
* `Gate.run`: calls that are answered one after another.
* `Gate.HeldSince`: the gate was taken at a time, and neither freed nor taken since.
* `Gate.Remembers`: the invariant. The gate is held, since a time, if it was last taken then and
  neither freed nor taken since.
* `gate_timing`: **an attempt is refused if and only if the gate is held and not for too long**; so
  two acquisitions without a release in between are further apart than that, and attempts that are
  refused change nothing for those after them.
-/

namespace Turnstile

namespace Gate

/-- What is asked of a gate. Times are in microseconds, and need not increase. -/
inductive Call where
  | acquire (now : Nat)
  | release
deriving DecidableEq, Repr

/-- What became of a call. -/
inductive Event where
  | taken (now : Nat)
  | refused (now : Nat)
  | released
deriving DecidableEq, Repr

namespace Event

/-- The call that an event came of. -/
def call : Event → Call
  | taken now => .acquire now
  | refused now => .acquire now
  | released => .release

/-- Whether an event is anything but a refusal. -/
def succeeded : Event → Bool
  | refused _ => false
  | _ => true

end Event

/-- Answers a call. -/
def answer (g : Gate) : Call → Event × Gate
  | .acquire now =>
    match g.acquire? now with
    | some g => (.taken now, g)
    | none => (.refused now, g)
  | .release => (.released, g.release)

/-- Answers calls, one after another. -/
def run (g : Gate) : List Call → List Event × Gate
  | [] => ([], g)
  | call :: calls =>
    match g.answer call with
    | (event, g) =>
      match g.run calls with
      | (events, g) => (event :: events, g)

/-- Whether the gate was taken at a time, and neither freed nor taken since. -/
def HeldSince (past : List Event) (since : Nat) : Prop :=
  ∃ before after, past = before ++ .taken since :: after ∧ .released ∉ after ∧ ∀ now, .taken now ∉ after

variable {g : Gate} {patience now since : Nat} {past : List Event} {event : Event} {calls : List Call}

/-! ## One call -/

theorem not_heldSince_nil : ¬ HeldSince [] since := by
  rintro ⟨before, after, h, -⟩
  simp at h

/-- One more event: the gate is taken, or it is refused and all stays as it was. -/
theorem heldSince_snoc : HeldSince (past ++ [event]) since ↔
    event = .taken since ∨ (∃ now, event = .refused now) ∧ HeldSince past since := by
  constructor
  · rintro ⟨before, after, h, hfreed, htaken⟩
    rcases List.eq_nil_or_concat after with rfl | ⟨after, last, rfl⟩
    · have hlast := List.append_inj_right' h rfl
      exact .inl (List.cons.inj hlast).1
    · rw [List.concat_eq_append] at h hfreed htaken
      rw [← List.cons_append, ← List.append_assoc] at h
      obtain ⟨rfl, hlast⟩ := List.append_inj' h rfl
      obtain rfl : event = last := (List.cons.inj hlast).1
      -- the last event is neither a release nor an acquisition
      have hrefused : ∃ now, event = .refused now := by
        cases event with
        | taken now => exact absurd (by simp) (htaken now)
        | refused now => exact ⟨now, rfl⟩
        | released => exact absurd (by simp) hfreed
      refine .inr ⟨hrefused, before, after, rfl, ?_, ?_⟩
      · intro hin
        exact hfreed (List.mem_append_left _ hin)
      · intro now hin
        exact htaken now (List.mem_append_left _ hin)
  · rintro (rfl | ⟨⟨now, rfl⟩, before, after, rfl, hfreed, htaken⟩)
    · exact ⟨past, [], rfl, by simp, by simp⟩
    · exact ⟨before, after ++ [.refused now], by simp, by simp [hfreed], by simp [htaken]⟩

theorem acquire?_eq_none : g.acquire? now = none ↔ g.held = true ∧ now - g.since ≤ g.patience := by
  unfold acquire? stands
  simp

/-- **All that a call does**: the gate is taken, or refused and left alone, or freed. -/
theorem answer_cases (g : Gate) (call : Call) :
    (∃ now, call = .acquire now ∧ g.acquire? now ≠ none ∧
      g.answer call = (.taken now, { g with held := true, since := now })) ∨
    (∃ now, call = .acquire now ∧ g.acquire? now = none ∧ g.answer call = (.refused now, g)) ∨
    (call = .release ∧ g.answer call = (.released, g.release)) := by
  cases call with
  | acquire now =>
    by_cases hstands : g.stands now = true
    · have hrefused : g.acquire? now = none := if_pos hstands
      exact .inr (.inl ⟨now, rfl, hrefused, by simp only [answer, hrefused]⟩)
    · have htaken : g.acquire? now = some { g with held := true, since := now } := if_neg hstands
      exact .inl ⟨now, rfl, by simp [htaken], by simp only [answer, htaken]⟩
  | release => exact .inr (.inr ⟨rfl, rfl⟩)

theorem call_answer (g : Gate) (call : Call) : (g.answer call).1.call = call := by
  obtain ⟨now, rfl, -, h⟩ | ⟨now, rfl, -, h⟩ | ⟨rfl, h⟩ := g.answer_cases call
  · rw [h]
    rfl
  · rw [h]
    rfl
  · rw [h]
    rfl

/-- The gate is held, since a time, if it was taken then and neither freed nor taken since. -/
structure Remembers (g : Gate) (patience : Nat) (past : List Event) : Prop where
  patience : g.patience = patience
  held : ∀ since, HeldSince past since ↔ g.held = true ∧ g.since = since

namespace Remembers

theorem new {patienceMs : Nat} (h : patienceMs * 1000 < 18446744073709551616) :
    (Gate.new patienceMs).Remembers (patienceMs * 1000) [] where
  patience := Nat.mod_eq_of_lt h
  held since := by simp [Gate.new, not_heldSince_nil]

/-- **An attempt is refused if and only if the gate is held and not for too long.** -/
theorem refused_iff (h : g.Remembers patience past) :
    g.acquire? now = none ↔ ∃ since, HeldSince past since ∧ now - since ≤ patience := by
  rw [acquire?_eq_none, h.patience]
  constructor
  · rintro ⟨hheld, hage⟩
    exact ⟨g.since, (h.held g.since).2 ⟨hheld, rfl⟩, hage⟩
  · rintro ⟨since, hsince, hage⟩
    obtain ⟨hheld, rfl⟩ := (h.held since).1 hsince
    exact ⟨hheld, hage⟩

/-- Every call keeps the invariant. -/
theorem next (h : g.Remembers patience past) (call : Call) :
    (g.answer call).2.Remembers patience (past ++ [(g.answer call).1]) := by
  obtain ⟨now, -, -, hanswer⟩ | ⟨now, -, -, hanswer⟩ | ⟨-, hanswer⟩ := g.answer_cases call
  · rw [hanswer]
    refine ⟨h.patience, fun since => ?_⟩
    rw [heldSince_snoc]
    simp
  · rw [hanswer]
    refine ⟨h.patience, fun since => ?_⟩
    rw [heldSince_snoc, ← h.held since]
    simp
  · rw [hanswer]
    refine ⟨h.patience, fun since => ?_⟩
    rw [heldSince_snoc]
    simp [release]

end Remembers

/-! ## Calls one after another -/

theorem run_cons (g : Gate) (call : Call) (calls : List Call) :
    g.run (call :: calls) =
      ((g.answer call).1 :: ((g.answer call).2.run calls).1, ((g.answer call).2.run calls).2) := rfl

/-- Every call has one event. -/
theorem call_run (g : Gate) (calls : List Call) : (g.run calls).1.map Event.call = calls := by
  induction calls generalizing g with
  | nil => rfl
  | cons call calls ih =>
    rw [run_cons, List.map_cons, call_answer, ih]

/-- **Any attempt among calls** is refused if and only if the gate is held then and not for too long. -/
theorem Remembers.attempt (h : g.Remembers patience past) {before after : List Event}
    (hrun : (g.run calls).1 = before ++ event :: after) (hcall : event.call = .acquire now) :
    event = .refused now ↔ ∃ since, HeldSince (past ++ before) since ∧ now - since ≤ patience := by
  induction calls generalizing g past before with
  | nil => simp [run] at hrun
  | cons call calls ih =>
    rw [run_cons] at hrun
    dsimp only at hrun
    cases before with
    | nil =>
      obtain ⟨rfl, -⟩ := List.cons.inj hrun
      rw [call_answer] at hcall
      rw [List.append_nil, ← h.refused_iff]
      obtain ⟨_, rfl, hfree, hanswer⟩ | ⟨_, rfl, hstands, hanswer⟩ | ⟨rfl, -⟩ := g.answer_cases call
      · obtain rfl := Call.acquire.inj hcall
        simp [hanswer, hfree]
      · obtain rfl := Call.acquire.inj hcall
        simp [hanswer, hstands]
      · cases hcall
    | cons first before =>
      obtain ⟨rfl, htail⟩ := List.cons.inj hrun
      -- the first event joins the past
      have hpast : past ++ (g.answer call).1 :: before = (past ++ [(g.answer call).1]) ++ before := by
        simp
      rw [hpast]
      exact ih (h.next call) htail

/-- **Without the attempts that were refused** all else goes as it went. -/
theorem run_succeeded (g : Gate) (calls : List Call) :
    g.run (((g.run calls).1.filter Event.succeeded).map Event.call) =
      ((g.run calls).1.filter Event.succeeded, (g.run calls).2) := by
  induction calls generalizing g with
  | nil => rfl
  | cons call calls ih =>
    rw [run_cons]
    dsimp only
    by_cases hsucceeded : (g.answer call).1.succeeded = true
    · rw [List.filter_cons_of_pos hsucceeded, List.map_cons, call_answer, run_cons, ih]
    · -- only an attempt is refused, and that leaves the gate alone
      have hsame : (g.answer call).2 = g := by
        obtain ⟨now, -, -, h⟩ | ⟨now, -, -, h⟩ | ⟨-, h⟩ := g.answer_cases call
        · rw [h] at hsucceeded
          exact absurd rfl hsucceeded
        · rw [h]
        · rw [h] at hsucceeded
          exact absurd rfl hsucceeded
      rw [List.filter_cons_of_neg hsucceeded, hsame]
      exact ih g

end Gate

open Gate

/-- **An attempt to take a gate is refused if and only if an earlier attempt took it, it was neither
freed nor taken since, and that is not longer ago than the patience of the gate**; a clock that runs
backwards counts as one that stands. So when a gate is taken twice with no release in between, the
two times are further apart than its patience. Attempts that are refused, however many there are,
prolong no hold: all else goes as if they had not been made. -/
theorem gate_timing {patienceMs : Nat} (h : patienceMs * 1000 < 18446744073709551616)
    (calls : List Call) :
    let g := Gate.new patienceMs
    let events := (g.run calls).1
    events.map Event.call = calls ∧
    (∀ past event now later, events = past ++ event :: later → event.call = .acquire now →
      (event = .refused now ↔ ∃ since, HeldSince past since ∧ now - since ≤ patienceMs * 1000)) ∧
    (∀ past first between second later,
      events = past ++ .taken first :: between ++ .taken second :: later →
      .released ∉ between → (∀ now, .taken now ∉ between) → first + patienceMs * 1000 < second) ∧
    g.run ((events.filter Event.succeeded).map Event.call) =
      (events.filter Event.succeeded, (g.run calls).2) := by
  intro g events
  have hnew : g.Remembers (patienceMs * 1000) [] := .new h
  have hattempt : ∀ past event now later, events = past ++ event :: later →
      event.call = .acquire now →
      (event = .refused now ↔ ∃ since, HeldSince past since ∧ now - since ≤ patienceMs * 1000) := by
    intro past event now later hevents hcall
    exact hnew.attempt hevents hcall
  refine ⟨g.call_run calls, hattempt, ?_, g.run_succeeded calls⟩
  intro past first between second later hevents hfreed htaken
  -- the second attempt was not refused, so the hold since the first was too old
  have hheld : HeldSince (past ++ .taken first :: between) first :=
    ⟨past, between, rfl, hfreed, htaken⟩
  have hstands := hattempt _ _ second later hevents rfl
  by_contra hnear
  have hrefused := hstands.2 ⟨first, hheld, by omega⟩
  cases hrefused

/-- Attempts before and after the end of a hold, one of them by a clock that went back. -/
def lateAttempts : List Call :=
  [.acquire 5000000, .acquire 1000000, .acquire 8000000, .acquire 8000001, .release, .acquire 0]

theorem gate_timing_backwards :
    3000 * 1000 < 18446744073709551616 ∧
      ((Gate.new 3000).run lateAttempts).1 = [.taken 5000000, .refused 1000000, .refused 8000000,
        .taken 8000001, .released, .taken 0] ∧
      (∃ since, HeldSince [.taken 5000000, .refused 1000000] since ∧ 8000000 - since ≤ 3000 * 1000) ∧
      5000000 + 3000 * 1000 < 8000001 ∧
      ((Gate.new 3000).run [.acquire 5000000, .acquire 8000001, .release, .acquire 0]).2 =
        ((Gate.new 3000).run lateAttempts).2 := by
  have hpatience : 3000 * 1000 < 18446744073709551616 := by decide
  have hevents : ((Gate.new 3000).run lateAttempts).1 = [.taken 5000000, .refused 1000000,
      .refused 8000000, .taken 8000001, .released, .taken 0] := by decide
  obtain ⟨-, hattempt, hapart, hrefusals⟩ := gate_timing hpatience lateAttempts
  refine ⟨hpatience, hevents, ?_, ?_, ?_⟩
  · exact (hattempt [.taken 5000000, .refused 1000000] (.refused 8000000) 8000000
      [.taken 8000001, .released, .taken 0] hevents rfl).1 rfl
  · exact hapart [] 5000000 [.refused 1000000, .refused 8000000] 8000001 [.released, .taken 0] hevents
      (by decide) (by simp)
  · rw [hevents] at hrefusals
    exact congrArg (·.2) hrefusals

end Turnstile

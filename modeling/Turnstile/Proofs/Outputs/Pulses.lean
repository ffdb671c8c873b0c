import Mathlib.Data.List.Basic
import Turnstile.Outputs

/-!
# Pulses, levels and a driver that fails

The driver of the pins may refuse any call. Whoever drives a pin gives up at the first call that is
refused, so all that can go wrong is that a plan of calls is cut short.

* `Outputs.made`: the calls of a plan that are made. They end with the first that is refused.
* `Outputs.Follows`: an action makes the calls of a plan, and fails if one of them is refused.
* `Outputs.Follows.andThen`: one action after another follows one plan after another.
* `Outputs.pulse_follows`: **a pulse follows its plan**: the pin is configured if this is its first
  use, driven active, and driven inactive when the time is over.
* `Outputs.setLevel_follows`: **a level follows its plan**: the pin is configured if this is its first
  use, and driven active for the state zero, inactive for every other.
-/

namespace Turnstile.Outputs

/-- Whether there is a pin of this number. -/
def InRange (pin : Int) : Prop :=
  0 ≤ pin ∧ pin < pinLimit

instance (pin : Int) : Decidable (InRange pin) :=
  inferInstanceAs (Decidable (_ ∧ _))

/-- A call that is to be made at a time. -/
abbrev Planned :=
  PinCall × Nat

/-- The record of a planned call that the driver carried out. -/
def Planned.done (p : Planned) : PinRecord :=
  ⟨p.1, p.2, false⟩

/-- The calls of a plan that are made after `n` others. -/
def attempts (refuses : Nat → PinCall → Bool) : Nat → List Planned → List PinRecord
  | _, [] => []
  | n, (c, t) :: plan =>
    ⟨c, t, refuses n c⟩ :: if refuses n c then [] else attempts refuses (n + 1) plan

/-- The calls of a plan that are made: they end with the first that the driver refuses. -/
def made (o : Outputs) (plan : List Planned) : List PinRecord :=
  attempts o.refuses o.history.length plan

/-- Whether the driver refuses none of the calls of a plan. -/
def Obeys (o : Outputs) (plan : List Planned) : Prop :=
  ∀ r ∈ o.made plan, r.refused = false

/-! ## Plans that are cut short -/

section Plans

variable {refuses : Nat → PinCall → Bool} {n t : Nat} {c : PinCall} {plan later : List Planned}

theorem attempts_cons_of_obeyed (h : refuses n c = false) :
    attempts refuses n ((c, t) :: plan) = ⟨c, t, false⟩ :: attempts refuses (n + 1) plan := by
  rw [attempts, h, if_neg Bool.false_ne_true]

theorem attempts_cons_of_refused (h : refuses n c = true) :
    attempts refuses n ((c, t) :: plan) = [⟨c, t, true⟩] := by
  rw [attempts, h, if_pos rfl]

/-- No call of a plan is refused if neither the first is nor one of the others. -/
theorem obeyed_cons : (∀ r ∈ attempts refuses n ((c, t) :: plan), r.refused = false) ↔
    refuses n c = false ∧ ∀ r ∈ attempts refuses (n + 1) plan, r.refused = false := by
  cases hfirst : refuses n c with
  | true => simp [attempts_cons_of_refused hfirst]
  | false => simp [attempts_cons_of_obeyed hfirst]

/-- What comes later is attempted if nothing was refused before. -/
theorem attempts_append_of_obeyed (h : ∀ r ∈ attempts refuses n plan, r.refused = false) :
    attempts refuses n (plan ++ later) =
      attempts refuses n plan ++ attempts refuses (n + plan.length) later := by
  induction plan generalizing n with
  | nil => rfl
  | cons p plan ih =>
    obtain ⟨hfirst, hplan⟩ := obeyed_cons.1 h
    have hlength : n + (p :: plan).length = n + 1 + plan.length := by
      rw [List.length_cons]
      omega
    rw [List.cons_append, attempts_cons_of_obeyed hfirst, attempts_cons_of_obeyed hfirst, ih hplan,
      hlength, List.cons_append]

/-- Nothing is attempted later if something was refused before. -/
theorem attempts_append_of_refused (h : ¬ ∀ r ∈ attempts refuses n plan, r.refused = false) :
    attempts refuses n (plan ++ later) = attempts refuses n plan := by
  induction plan generalizing n with
  | nil => exact absurd (fun r hr => absurd hr List.not_mem_nil) h
  | cons p plan ih =>
    rw [obeyed_cons, not_and] at h
    rw [List.cons_append]
    cases hfirst : refuses n p.1 with
    | true => rw [attempts_cons_of_refused hfirst, attempts_cons_of_refused hfirst]
    | false =>
      rw [attempts_cons_of_obeyed hfirst, attempts_cons_of_obeyed hfirst, ih (h hfirst)]

/-- If nothing is refused, the whole plan is carried out. -/
theorem attempts_of_obeyed (h : ∀ r ∈ attempts refuses n plan, r.refused = false) :
    attempts refuses n plan = plan.map Planned.done := by
  induction plan generalizing n with
  | nil => rfl
  | cons p plan ih =>
    obtain ⟨hfirst, hplan⟩ := obeyed_cons.1 h
    rw [attempts_cons_of_obeyed hfirst, ih hplan]
    rfl

/-- Every call that is made was planned, and is made at its time. -/
theorem mem_attempts {r : PinRecord} (h : r ∈ attempts refuses n plan) : (r.call, r.time) ∈ plan := by
  induction plan generalizing n with
  | nil => cases h
  | cons p plan ih =>
    obtain ⟨c, t⟩ := p
    unfold attempts at h
    rcases List.mem_cons.1 h with rfl | h
    · exact List.mem_cons_self
    · split at h
      · cases h
      · exact List.mem_cons_of_mem _ (ih h)

/-- A driver that refuses nothing refuses nothing of a plan. -/
theorem obeyed_of_obliging (h : ∀ m c, n ≤ m → refuses m c = false) :
    ∀ r ∈ attempts refuses n plan, r.refused = false := by
  induction plan generalizing n with
  | nil => exact fun r hr => absurd hr List.not_mem_nil
  | cons p plan ih =>
    have hlater : ∀ m c, n + 1 ≤ m → refuses m c = false := fun m c hm => h m c (by omega)
    exact obeyed_cons.2 ⟨h n p.1 (Nat.le_refl n), ih hlater⟩

end Plans

/-! ## Actions that follow a plan -/

/-- Whether an action makes the calls of a plan up to the first that is refused, and fails if there
is one. -/
structure Follows (o : Outputs) (plan : List Planned) (r : Except OutputError Unit × Outputs) :
    Prop where
  history : r.2.history = (o.made plan).reverse ++ o.history
  refuses : r.2.refuses = o.refuses
  ok_iff : r.1 = .ok () ↔ o.Obeys plan

/-- One action after another, unless the first fails. -/
def andThen (r : Except OutputError Unit × Outputs)
    (next : Outputs → Except OutputError Unit × Outputs) : Except OutputError Unit × Outputs :=
  match r with
  | (.error e, o) => (.error e, o)
  | (.ok (), o) => next o

variable {o : Outputs} {plan later : List Planned} {r : Except OutputError Unit × Outputs}

/-- If both went well, then the first did, and the second was done. -/
theorem andThen_ok {next : Outputs → Except OutputError Unit × Outputs}
    (h : (andThen r next).1 = .ok ()) : r.1 = .ok () ∧ andThen r next = next r.2 := by
  obtain ⟨outcome, o'⟩ := r
  cases outcome with
  | error e => cases h
  | ok _ => exact ⟨rfl, rfl⟩

/-- **One action after another follows one plan after another.** -/
theorem Follows.andThen {next : Outputs → Except OutputError Unit × Outputs} (h : o.Follows plan r)
    (hnext : r.1 = .ok () → r.2.Follows later (next r.2)) :
    o.Follows (plan ++ later) (andThen r next) := by
  obtain ⟨outcome, o'⟩ := r
  obtain ⟨hhistory, hrefuses, hok⟩ := h
  cases outcome with
  | error e =>
    have hrefused : ¬ o.Obeys plan := fun hobeys => nomatch hok.2 hobeys
    have hmade : o.made (plan ++ later) = o.made plan := attempts_append_of_refused hrefused
    refine ⟨?_, hrefuses, ?_⟩
    · rw [hmade]
      exact hhistory
    · unfold Obeys
      rw [hmade]
      exact hok
  | ok _ =>
    have hobeys : o.Obeys plan := hok.1 rfl
    -- as many calls were made as the first plan has, and so the second goes on behind them
    have hlength : o'.history.length = o.history.length + plan.length := by
      have hdone : o.made plan = plan.map Planned.done := attempts_of_obeyed hobeys
      dsimp only at hhistory
      rw [hhistory, List.length_append, List.length_reverse, hdone, List.length_map, Nat.add_comm]
    have hmade : o.made (plan ++ later) = o.made plan ++ o'.made later := by
      have hlater : o'.made later = attempts o.refuses (o.history.length + plan.length) later := by
        dsimp only at hrefuses
        rw [made, hrefuses, hlength]
      rw [hlater]
      exact attempts_append_of_obeyed hobeys
    obtain ⟨hhistory', hrefuses', hok'⟩ := hnext rfl
    refine ⟨?_, hrefuses'.trans hrefuses, ?_⟩
    · rw [hmade, List.reverse_append, List.append_assoc, ← hhistory]
      exact hhistory'
    · unfold Obeys
      rw [hmade, List.forall_mem_append]
      exact hok'.trans (and_iff_right hobeys).symm

/-- Nothing is done. -/
theorem follows_nothing : o.Follows [] (.ok (), o) :=
  ⟨rfl, rfl, iff_of_true rfl fun _ hr => absurd hr List.not_mem_nil⟩

/-- One call is made, and it fails if it is refused. -/
theorem follows_call {c : PinCall}
    (hhistory : r.2.history = ⟨c, o.clock, o.refuses o.history.length c⟩ :: o.history)
    (hrefuses : r.2.refuses = o.refuses) (hok : r.1 = .ok () ↔ o.refuses o.history.length c = false) :
    o.Follows [(c, o.clock)] r := by
  have hmade : o.made [(c, o.clock)] = [⟨c, o.clock, o.refuses o.history.length c⟩] := by
    simp [made, attempts]
  refine ⟨?_, hrefuses, ?_⟩
  · rw [hmade, hhistory]
    rfl
  · unfold Obeys
    rw [hmade, List.forall_mem_singleton]
    exact hok

/-- A pause changes nothing but the times that are planned after it. -/
theorem Follows.of_pause {ms : Nat} (h : (o.pause ms).Follows plan r) : o.Follows plan r :=
  ⟨h.history, h.refuses, h.ok_iff⟩

/-- What the driver carried out of a plan. -/
theorem Follows.events (h : o.Follows plan r) :
    r.2.events = o.events ++ (o.made plan).filter (!·.refused) := by
  unfold Outputs.events
  rw [h.history, List.filter_append, List.reverse_append, List.filter_reverse, List.reverse_reverse]

/-- **A driver that refuses nothing carries the plan out.** -/
theorem Follows.events_of_obliging (h : o.Follows plan r)
    (hobliging : ∀ n c, o.history.length ≤ n → o.refuses n c = false) :
    r.2.events = o.events ++ plan.map Planned.done := by
  have hmade : o.made plan = plan.map Planned.done := attempts_of_obeyed (obeyed_of_obliging hobliging)
  have hdone : (o.made plan).filter (!·.refused) = plan.map Planned.done := by
    rw [hmade, List.filter_eq_self, List.forall_mem_map]
    exact fun _ _ => rfl
  rw [h.events, hdone]

/-! ## Pulses -/

/-- What makes a pin ready: a call on its first use, and none later. -/
def firstUse (o : Outputs) (pin : Int) : List Planned :=
  if pin ∈ o.configured then [] else [(.configure pin, o.clock)]

theorem firstUse_of_ready {pin : Int} (h : pin ∈ o.configured) : o.firstUse pin = [] :=
  if_pos h

/-- The levels of a pulse that begins at a time: active, and inactive when the time is over. -/
def pulseLevels (pin : Int) (ms : Nat) (inverted : Bool) (start : Nat) : List Planned :=
  [(.drive pin !inverted, start), (.drive pin inverted, start + ms)]

variable {pin : Int} {ms : Nat} {inverted : Bool}

theorem call_of_firstUse {p : Planned} (h : p ∈ o.firstUse pin) : p.1 = .configure pin := by
  unfold firstUse at h
  split at h
  · cases h
  · rw [List.mem_singleton.1 h]

theorem pin_of_firstUse {p : Planned} (h : p ∈ o.firstUse pin) : p.1.pin = pin := by
  rw [call_of_firstUse h]
  rfl

theorem pin_of_pulseLevels {start : Nat} {p : Planned} (h : p ∈ pulseLevels pin ms inverted start) :
    p.1.pin = pin := by
  unfold pulseLevels at h
  rcases List.mem_pair.1 h with rfl | rfl
  · rfl
  · rfl

theorem ensure_follows (h : InRange pin) : o.Follows (o.firstUse pin) (o.ensure pin) := by
  obtain ⟨hlow, hhigh⟩ := h
  have hrange : ¬ (pin < 0 ∨ pinLimit ≤ pin) := by omega
  unfold ensure firstUse call
  rw [if_neg hrange, List.contains_eq_mem]
  by_cases hready : pin ∈ o.configured
  · simp only [hready, decide_true, if_true]
    exact follows_nothing
  · simp only [hready, decide_false, Bool.false_eq_true, if_false]
    cases hrefused : o.refuses o.history.length (.configure pin) with
    | true => exact follows_call (by rw [hrefused]; rfl) rfl (by simp [hrefused])
    | false => exact follows_call (by rw [hrefused]; rfl) rfl (by simp [hrefused])

theorem drive_follows (o : Outputs) (pin : Int) (high : Bool) :
    o.Follows [(.drive pin high, o.clock)] (o.drive pin high) := by
  unfold drive call
  cases hrefused : o.refuses o.history.length (.drive pin high) with
  | true => exact follows_call (by rw [hrefused]; rfl) rfl (by simp [hrefused])
  | false => exact follows_call (by rw [hrefused]; rfl) rfl (by simp [hrefused])

@[simp] theorem ensure_clock : (o.ensure pin).2.clock = o.clock := by
  unfold ensure call
  grind

theorem ensure_ready (h : (o.ensure pin).1 = .ok ()) : pin ∈ (o.ensure pin).2.configured := by
  unfold ensure call at h ⊢
  grind

@[simp] theorem drive_clock (high : Bool) : (o.drive pin high).2.clock = o.clock := by
  unfold drive call
  grind

@[simp] theorem drive_configured (high : Bool) : (o.drive pin high).2.configured = o.configured := by
  unfold drive call
  grind

theorem pulse_eq (o : Outputs) : o.pulse pin ms inverted =
    andThen (o.ensure pin) fun o => andThen (o.drive pin !inverted) fun o =>
      (o.pause ms).drive pin inverted :=
  rfl

/-- There is no pulse on a pin out of range: nothing is called at all. -/
theorem pulse_outOfRange (h : ¬ InRange pin) :
    o.pulse pin ms inverted = (.error (.outOfRange pin), o) := by
  have hrange : pin < 0 ∨ pinLimit ≤ pin := by
    unfold InRange at h
    omega
  unfold pulse ensure
  rw [if_pos hrange]

/-- **A pulse follows its plan.** -/
theorem pulse_follows (o : Outputs) (ms : Nat) (inverted : Bool) (h : InRange pin) :
    o.Follows (o.firstUse pin ++ pulseLevels pin ms inverted o.clock) (o.pulse pin ms inverted) := by
  rw [pulse_eq]
  refine (ensure_follows h).andThen fun _ => ?_
  let ready := (o.ensure pin).2
  have hactive := ready.drive_follows pin !inverted
  rw [ensure_clock] at hactive
  refine hactive.andThen fun _ => ?_
  let held := (ready.drive pin !inverted).2.pause ms
  have hinactive := held.drive_follows pin inverted
  have hclock : held.clock = o.clock + ms := by
    simp [held, ready, pause]
  rw [hclock] at hinactive
  exact hinactive.of_pause

/-- A driver that refuses the last call leaves the pin active. -/
example : (pulse { refuses := fun n _ => n == 2 } 19 2000 false).2.events =
    [⟨.configure 19, 0, false⟩, ⟨.drive 19 true, 0, false⟩] := by decide

/-- After a pulse the time is over and the pin is ready for the next. -/
theorem pulse_ok (h : (o.pulse pin ms inverted).1 = .ok ()) :
    (o.pulse pin ms inverted).2.clock = o.clock + ms ∧
      pin ∈ (o.pulse pin ms inverted).2.configured := by
  rw [pulse_eq] at h ⊢
  obtain ⟨hensure, heq⟩ := andThen_ok h
  rw [heq] at h ⊢
  obtain ⟨-, heq⟩ := andThen_ok h
  rw [heq]
  simp [pause, ensure_ready hensure]

/-! ## Levels -/

variable {state : Int}

theorem setLevel_eq (o : Outputs) (pin state : Int) (inverted : Bool) : o.setLevel pin state inverted =
    andThen (o.ensure pin) fun o => o.drive pin (if state = 0 then !inverted else inverted) :=
  rfl

/-- No level is set on a pin out of range: nothing is called at all. -/
theorem setLevel_outOfRange (h : ¬ InRange pin) :
    o.setLevel pin state inverted = (.error (.outOfRange pin), o) := by
  have hrange : pin < 0 ∨ pinLimit ≤ pin := by
    unfold InRange at h
    omega
  unfold setLevel ensure
  rw [if_pos hrange]

/-- **A level follows its plan.** -/
theorem setLevel_follows (o : Outputs) (state : Int) (inverted : Bool) (h : InRange pin) :
    o.Follows (o.firstUse pin ++ [(.drive pin (if state = 0 then !inverted else inverted), o.clock)])
      (o.setLevel pin state inverted) := by
  rw [setLevel_eq]
  refine (ensure_follows h).andThen fun _ => ?_
  have hlevel := (o.ensure pin).2.drive_follows pin (if state = 0 then !inverted else inverted)
  rw [ensure_clock] at hlevel
  exact hlevel

end Turnstile.Outputs

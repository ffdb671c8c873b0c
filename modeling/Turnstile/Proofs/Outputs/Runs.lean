import Mathlib.Algebra.Ring.Nat
import Turnstile.Proofs.Outputs.Pulses

/-!
# Runs of the outputs

Pulses, levels and pauses are asked for in any order, and the driver refuses any calls it likes.

* `OutputTask`, `Outputs.perform`: what is asked of the outputs, and what becomes of it.
* `Orderly`: a history of calls in which every pin is in range, is configured before it is driven, and
  is configured once.
* `Outputs.Sound`: the invariant. The history is orderly, and the pins that are taken for configured are
  those that the driver configured.
* `Deed`, `Outputs.performAll`: a run, told by what was asked and by the calls that were made for it.
* `outputs_run`: **a run is orderly, every pulse that goes well ends inactive, every level that is set is
  the one that its state asks for, and it takes as much time as its pauses and pulses.**
-/

namespace Turnstile

/-- What is asked of the outputs. -/
inductive OutputTask where
  | pulse (pin : Int) (ms : Nat) (inverted : Bool)
  | setLevel (pin state : Int) (inverted : Bool)
  | pause (ms : Nat)
deriving DecidableEq, Repr

/-- Whether a call drives a pin. -/
def PinCall.drives : PinCall → Bool
  | .configure _ => false
  | .drive .. => true

/-- Histories of calls, newest first, in which every pin is in range, no pin is configured again that
the driver configured, and only such a pin is driven. -/
inductive Orderly : List PinRecord → Prop
  | start : Orderly []
  | configure {past : List PinRecord} (h : Orderly past) {pin : Int} (hrange : Outputs.InRange pin)
    (hnew : ¬ ∃ t, ⟨.configure pin, t, false⟩ ∈ past) (time : Nat) (refused : Bool) :
    Orderly (⟨.configure pin, time, refused⟩ :: past)
  | drive {past : List PinRecord} (h : Orderly past) {pin : Int}
    (hready : ∃ t, ⟨.configure pin, t, false⟩ ∈ past) (high : Bool) (time : Nat) (refused : Bool) :
    Orderly (⟨.drive pin high, time, refused⟩ :: past)

namespace Orderly

variable {history : List PinRecord}

/-- Only pins in range are called. -/
theorem inRange (h : Orderly history) : ∀ r ∈ history, Outputs.InRange r.call.pin := by
  induction h with
  | start => exact fun _ hr => absurd hr List.not_mem_nil
  | configure _ hrange _ _ _ ih => exact List.forall_mem_cons.2 ⟨hrange, ih⟩
  | drive _ hready _ _ _ ih =>
    obtain ⟨t, ht⟩ := hready
    have hpin := ih _ ht
    exact List.forall_mem_cons.2 ⟨hpin, ih⟩

/-- **A pin is driven only after the driver configured it.** -/
theorem configured_before (h : Orderly history) {later past : List PinRecord} {pin : Int} {high : Bool}
    {time : Nat} {refused : Bool} (hsplit : history = later ++ ⟨.drive pin high, time, refused⟩ :: past) :
    ∃ t, ⟨.configure pin, t, false⟩ ∈ past := by
  induction h generalizing later with
  | start => exact absurd hsplit.symm (List.append_ne_nil_of_right_ne_nil _ (List.cons_ne_nil _ _))
  | configure _ _ _ _ _ ih =>
    -- the newest call configures, so the one in question is older
    rcases List.cons_eq_append_iff.1 hsplit with ⟨-, hcons⟩ | ⟨later', -, hpast⟩
    · cases (List.cons.inj hcons).1
    · exact ih hpast
  | drive _ hready _ _ _ ih =>
    rcases List.cons_eq_append_iff.1 hsplit with ⟨-, hcons⟩ | ⟨later', -, hpast⟩
    · obtain ⟨hcall, hpast⟩ := List.cons.inj hcons
      cases hcall
      rw [hpast]
      exact hready
    · exact ih hpast

/-- **The driver configures a pin once.** -/
theorem configured_once (h : Orderly history) (pin : Int) :
    history.countP (fun r => decide (r.call = .configure pin) && !r.refused) ≤ 1 := by
  induction h with
  | start => exact Nat.zero_le _
  | @configure past _ other _ hnew time refused ih =>
    rw [List.countP_cons]
    by_cases hsame : other = pin ∧ refused = false
    · obtain ⟨rfl, rfl⟩ := hsame
      -- what comes before does not configure this pin
      have hnone : past.countP (fun r => decide (r.call = .configure other) && !r.refused) = 0 := by
        refine List.countP_eq_zero.2 fun r hr hconfigured => hnew ⟨r.time, ?_⟩
        obtain ⟨hcall, hrefused⟩ := Bool.and_eq_true_iff.1 hconfigured
        have hcall := of_decide_eq_true hcall
        have hrefused : r.refused = false := by simpa using hrefused
        rw [← hcall, ← hrefused]
        exact hr
      rw [hnone]
      simp
    · have hother : (decide (PinCall.configure other = .configure pin) && !refused) = false := by
        simpa using hsame
      rw [hother]
      simpa using ih
  | drive _ _ _ _ _ ih => simpa [List.countP_cons] using ih

end Orderly

namespace Outputs

variable {o : Outputs} {pin : Int}

/-! ## What one task does -/

/-- Does what is asked. A pause cannot fail. -/
def perform (o : Outputs) : OutputTask → Except OutputError Unit × Outputs
  | .pulse pin ms inverted => o.pulse pin ms inverted
  | .setLevel pin state inverted => o.setLevel pin state inverted
  | .pause ms => (.ok (), o.pause ms)

@[simp] theorem configured_pause (ms : Nat) : (o.pause ms).configured = o.configured := rfl

/-- The invariant of the outputs. -/
structure Sound (o : Outputs) : Prop where
  orderly : Orderly o.history
  configured_iff : ∀ pin, pin ∈ o.configured ↔ ∃ t, ⟨.configure pin, t, false⟩ ∈ o.history

namespace Sound

theorem new (refuses : Nat → PinCall → Bool) (clock : Nat) : Sound { refuses, clock } :=
  ⟨.start, fun _ => by simp⟩

theorem ensure (h : o.Sound) (pin : Int) : (o.ensure pin).2.Sound := by
  unfold Outputs.ensure call
  by_cases hrange : pin < 0 ∨ pinLimit ≤ pin
  · rw [if_pos hrange]
    exact h
  rw [if_neg hrange, List.contains_eq_mem]
  by_cases hready : pin ∈ o.configured
  · simpa [hready] using h
  · have hin : InRange pin := by
      unfold InRange
      omega
    have hnew : ¬ ∃ t, ⟨.configure pin, t, false⟩ ∈ o.history := fun hmem =>
      hready ((h.configured_iff pin).2 hmem)
    have horderly := h.orderly.configure hin hnew o.clock
    simp only [hready, decide_false, Bool.false_eq_true, if_false]
    cases o.refuses o.history.length (.configure pin) with
    | true =>
      refine ⟨horderly true, fun other => ?_⟩
      rw [Bool.not_true]
      exact (h.configured_iff other).trans (by simp)
    | false =>
      refine ⟨horderly false, fun other => ?_⟩
      rw [Bool.not_false]
      simp [h.configured_iff other, exists_or]

theorem drive (h : o.Sound) (hready : pin ∈ o.configured) (high : Bool) : (o.drive pin high).2.Sound := by
  have horderly := h.orderly.drive ((h.configured_iff pin).1 hready) high o.clock
    (o.refuses o.history.length (.drive pin high))
  unfold Outputs.drive call
  cases hrefused : o.refuses o.history.length (.drive pin high) with
  | true =>
    rw [hrefused] at horderly
    exact ⟨horderly, fun other => by simp [h.configured_iff other]⟩
  | false =>
    rw [hrefused] at horderly
    exact ⟨horderly, fun other => by simp [h.configured_iff other]⟩

theorem pause (h : o.Sound) (ms : Nat) : (o.pause ms).Sound :=
  ⟨h.orderly, h.configured_iff⟩

/-- One action after another keeps the invariant if both do. -/
theorem andThen {r : Except OutputError Unit × Outputs}
    {next : Outputs → Except OutputError Unit × Outputs} (h : r.2.Sound)
    (hnext : r.1 = .ok () → (next r.2).2.Sound) : (andThen r next).2.Sound := by
  obtain ⟨outcome, o'⟩ := r
  cases outcome with
  | error e => exact h
  | ok _ => exact hnext rfl

theorem pulse (h : o.Sound) (pin : Int) (ms : Nat) (inverted : Bool) :
    (o.pulse pin ms inverted).2.Sound := by
  rw [pulse_eq]
  refine (h.ensure pin).andThen fun hready => ?_
  have hpin := ensure_ready hready
  refine ((h.ensure pin).drive hpin _).andThen fun _ => ?_
  have hheld := ((h.ensure pin).drive hpin !inverted).pause ms
  refine hheld.drive ?_ _
  rw [configured_pause, drive_configured]
  exact hpin

theorem setLevel (h : o.Sound) (pin state : Int) (inverted : Bool) :
    (o.setLevel pin state inverted).2.Sound := by
  rw [setLevel_eq]
  exact (h.ensure pin).andThen fun hready => (h.ensure pin).drive (ensure_ready hready) _

/-- **Whatever is asked keeps the invariant.** -/
theorem perform (h : o.Sound) (task : OutputTask) : (o.perform task).2.Sound := by
  cases task with
  | pulse pin ms inverted => exact h.pulse pin ms inverted
  | setLevel pin state inverted => exact h.setLevel pin state inverted
  | pause ms => exact h.pause ms

end Sound

/-! ## How far a pulse comes -/

/-- How far a pulse comes that begins at a time: the levels that are driven, whether it goes well, and
how long it takes. -/
inductive Pulsed (pin : Int) (ms : Nat) (inverted : Bool) (start : Nat) :
    List PinRecord → Bool → Nat → Prop
  /-- The pin could not be made ready. -/
  | unready : Pulsed pin ms inverted start [] false 0
  | inactive : Pulsed pin ms inverted start [⟨.drive pin !inverted, start, true⟩] false 0
  | active (refused : Bool) : Pulsed pin ms inverted start
    [⟨.drive pin !inverted, start, false⟩, ⟨.drive pin inverted, start + ms, refused⟩] (!refused) ms

/-- Making a pin ready takes calls that configure it, and no others. -/
theorem ensure_leads (o : Outputs) (pin : Int) : ∃ lead, (o.ensure pin).2.history = lead ++ o.history ∧
    ∀ r ∈ lead, r.call = .configure pin := by
  unfold ensure call
  by_cases hrange : pin < 0 ∨ pinLimit ≤ pin
  · rw [if_pos hrange]
    exact ⟨[], rfl, nofun⟩
  rw [if_neg hrange]
  by_cases hready : o.configured.contains pin = true
  · rw [if_pos hready]
    exact ⟨[], rfl, nofun⟩
  rw [if_neg hready]
  cases hrefused : o.refuses o.history.length (.configure pin) with
  | true => exact ⟨[⟨.configure pin, o.clock, true⟩], rfl, by simp⟩
  | false => exact ⟨[⟨.configure pin, o.clock, false⟩], rfl, by simp⟩

/-- Driving a pin takes one call, and goes well if it is not refused. -/
theorem drive_eq (o : Outputs) (pin : Int) (high : Bool) : ∃ refused,
    (o.drive pin high).2 = { o with history := ⟨.drive pin high, o.clock, refused⟩ :: o.history } ∧
      (o.drive pin high).1.isOk = !refused := by
  unfold drive call
  cases hrefused : o.refuses o.history.length (.drive pin high) with
  | true => exact ⟨true, rfl, rfl⟩
  | false => exact ⟨false, rfl, rfl⟩

/-- **A pulse makes a pin ready and drives it**, and stops at the first call that is refused. -/
theorem pulse_pulsed (o : Outputs) (pin : Int) (ms : Nat) (inverted : Bool) :
    ∃ lead levels time, (o.pulse pin ms inverted).2.history = levels.reverse ++ lead ++ o.history ∧
      (∀ r ∈ lead, r.call = .configure pin) ∧
      (o.pulse pin ms inverted).2.clock = o.clock + time ∧
      Pulsed pin ms inverted o.clock levels (o.pulse pin ms inverted).1.isOk time := by
  obtain ⟨lead, hlead, hconfigure⟩ := o.ensure_leads pin
  have hclock : (o.ensure pin).2.clock = o.clock := ensure_clock
  rw [pulse_eq]
  generalize o.ensure pin = r at hlead hclock
  obtain ⟨outcome, ready⟩ := r
  dsimp only at hlead hclock
  cases outcome with
  | error e => exact ⟨lead, [], 0, hlead, hconfigure, hclock, .unready⟩
  | ok _ =>
    obtain ⟨refused, hactive, hok⟩ := ready.drive_eq pin !inverted
    rw [hlead, hclock] at hactive
    dsimp only [andThen]
    generalize (ready.drive pin !inverted) = r at hactive hok
    obtain ⟨outcome, driven⟩ := r
    dsimp only at hactive hok
    subst hactive
    cases outcome with
    | error e =>
      obtain rfl : refused = true := by simpa [Except.isOk, Except.toBool] using hok
      exact ⟨lead, [⟨.drive pin !inverted, o.clock, true⟩], 0, rfl, hconfigure, rfl, .inactive⟩
    | ok _ =>
      obtain rfl : refused = false := by simpa [Except.isOk, Except.toBool] using hok
      dsimp only
      obtain ⟨refused, hinactive, hok⟩ := drive_eq (pause _ ms) pin inverted
      rw [hok, hinactive]
      refine ⟨lead, _, ms, ?_, hconfigure, ?_, .active refused⟩
      · simp [pause]
      · simp [pause]

/-! ## Runs -/

/-- Something that was asked of the outputs, the calls that were made for it, oldest first, and what
became of it. -/
structure Deed where
  task : OutputTask
  calls : List PinRecord
  outcome : Except OutputError Unit

/-- Whether the first level that was to be driven was driven. -/
def Deed.drove (d : Deed) : Bool :=
  (d.calls.find? (·.call.drives)).any (!·.refused)

/-- The time that a deed takes: that of a pause, and that of a pulse if its first level was driven. -/
def Deed.time (d : Deed) : Nat :=
  match d.task with
  | .pulse _ ms _ => if d.drove then ms else 0
  | .setLevel .. => 0
  | .pause ms => ms

/-- The calls that were made since there were `n`, oldest first. -/
def callsSince (o : Outputs) (n : Nat) : List PinRecord :=
  o.history.reverse.drop n

/-- Does all that is asked, one thing after another, whatever becomes of it. -/
def performAll (o : Outputs) : List OutputTask → List Deed × Outputs
  | [] => ([], o)
  | task :: tasks =>
    match o.perform task with
    | (outcome, next) =>
      match next.performAll tasks with
      | (deeds, last) => (⟨task, next.callsSince o.history.length, outcome⟩ :: deeds, last)

/-- What becomes of one thing that is asked, as a deed. -/
def deed (o : Outputs) (task : OutputTask) : Deed :=
  ⟨task, (o.perform task).2.callsSince o.history.length, (o.perform task).1⟩

theorem performAll_cons (o : Outputs) (task : OutputTask) (tasks : List OutputTask) :
    o.performAll (task :: tasks) =
      (o.deed task :: ((o.perform task).2.performAll tasks).1, ((o.perform task).2.performAll tasks).2) :=
  rfl

theorem callsSince_eq {o' : Outputs} {calls : List PinRecord} (h : o'.history = calls ++ o.history) :
    o'.callsSince o.history.length = calls.reverse := by
  have hlength : o.history.length = o.history.reverse.length := by simp
  rw [callsSince, h, List.reverse_append, hlength, List.drop_left]

/-- The calls of a pulse that went as far as it did. -/
theorem calls_of_pulsed {lead levels : List PinRecord} {o' : Outputs}
    (h : o'.history = levels.reverse ++ lead ++ o.history) :
    o'.callsSince o.history.length = lead.reverse ++ levels := by
  rw [callsSince_eq h, List.reverse_append, List.reverse_reverse]

/-- No call before the levels of a pulse drives a pin. -/
theorem find_drives {lead levels : List PinRecord} (h : ∀ r ∈ lead, r.call = .configure pin) :
    (lead.reverse ++ levels).find? (·.call.drives) = levels.find? (·.call.drives) := by
  have hnone : lead.reverse.find? (·.call.drives) = none := by
    refine List.find?_eq_none.2 fun r hr => ?_
    rw [h r (List.mem_reverse.1 hr)]
    exact Bool.false_ne_true
  rw [List.find?_append, hnone, Option.none_or]

/-- What is asked only adds to the history. -/
theorem perform_extends (o : Outputs) (task : OutputTask) :
    ∃ calls, (o.perform task).2.history = calls ++ o.history := by
  cases task with
  | pulse pin ms inverted =>
    obtain ⟨lead, levels, _, hhistory, -⟩ := o.pulse_pulsed pin ms inverted
    exact ⟨_, hhistory⟩
  | setLevel pin state inverted =>
    obtain ⟨lead, hlead, -⟩ := o.ensure_leads pin
    rw [perform, setLevel_eq]
    generalize o.ensure pin = r at hlead
    obtain ⟨outcome, ready⟩ := r
    cases outcome with
    | error e => exact ⟨lead, hlead⟩
    | ok _ =>
      obtain ⟨refused, hdrive, -⟩ := ready.drive_eq pin (if state = 0 then !inverted else inverted)
      dsimp only [andThen] at hlead ⊢
      rw [hdrive, hlead]
      exact ⟨_ :: lead, rfl⟩
  | pause ms => exact ⟨[], rfl⟩

/-- **A deed takes its time.** -/
theorem perform_clock (o : Outputs) (task : OutputTask) :
    (o.perform task).2.clock = o.clock + (o.deed task).time := by
  cases task with
  | pulse pin ms inverted =>
    obtain ⟨lead, levels, time, hhistory, hlead, hclock, hpulsed⟩ := o.pulse_pulsed pin ms inverted
    have hcalls : (o.deed (.pulse pin ms inverted)).calls = lead.reverse ++ levels := calls_of_pulsed hhistory
    have hdrove : (o.deed (.pulse pin ms inverted)).drove =
        (levels.find? (·.call.drives)).any (!·.refused) := by
      rw [Deed.drove, hcalls, find_drives hlead]
    have htime : (o.deed (.pulse pin ms inverted)).time = time := by
      show (if (o.deed (.pulse pin ms inverted)).drove then ms else 0) = time
      rw [hdrove]
      generalize (o.pulse pin ms inverted).1.isOk = ok at hpulsed
      cases hpulsed with
      | unready => rfl
      | inactive => rfl
      | active refused => rfl
    rw [htime]
    exact hclock
  | setLevel pin state inverted =>
    show (o.setLevel pin state inverted).2.clock = o.clock
    have hready : (o.ensure pin).2.clock = o.clock := ensure_clock
    rw [setLevel_eq]
    generalize o.ensure pin = r at hready
    obtain ⟨outcome, ready⟩ := r
    cases outcome with
    | error e => exact hready
    | ok _ => exact (drive_clock _).trans hready
  | pause ms => rfl

/-- **A pulse that goes well leaves its pin inactive**, after as long as it was to be active. -/
theorem pulse_deed {ms : Nat} {inverted : Bool}
    (h : (o.deed (.pulse pin ms inverted)).outcome = .ok ()) : ∃ lead t,
      (o.deed (.pulse pin ms inverted)).calls =
        lead ++ [⟨.drive pin !inverted, t, false⟩, ⟨.drive pin inverted, t + ms, false⟩] ∧
      ∀ r ∈ lead, r.call = .configure pin := by
  obtain ⟨lead, levels, time, hhistory, hlead, -, hpulsed⟩ := o.pulse_pulsed pin ms inverted
  have hok : (o.pulse pin ms inverted).1 = .ok () := h
  refine ⟨lead.reverse, o.clock, ?_, fun r hr => hlead r (List.mem_reverse.1 hr)⟩
  have hcalls : (o.deed (.pulse pin ms inverted)).calls = lead.reverse ++ levels := calls_of_pulsed hhistory
  rw [hok] at hpulsed
  rw [hcalls]
  generalize hoked : (Except.ok () : Except OutputError Unit).isOk = ok at hpulsed
  cases hpulsed with
  | unready => cases hoked
  | inactive => cases hoked
  | active refused =>
    obtain rfl : refused = false := by simpa [Except.isOk, Except.toBool] using hoked
    rfl

/-- The calls that are made to set the level of a pin that there is. -/
theorem calls_setLevel (o : Outputs) {pin : Int} (state : Int) (inverted : Bool) (h : InRange pin) :
    (o.deed (.setLevel pin state inverted)).calls =
      o.made (o.firstUse pin ++ [(.drive pin (if state = 0 then !inverted else inverted), o.clock)]) := by
  show (o.setLevel pin state inverted).2.callsSince o.history.length = _
  rw [callsSince_eq (o.setLevel_follows state inverted h).history, List.reverse_reverse]

/-- Nothing is called for a pin that there is not. -/
theorem deed_setLevel_outOfRange (o : Outputs) {pin : Int} (state : Int) (inverted : Bool)
    (h : ¬ InRange pin) : (o.deed (.setLevel pin state inverted)).outcome = .error (.outOfRange pin) ∧
      (o.deed (.setLevel pin state inverted)).calls = [] := by
  have hsame : o.history = [] ++ o.history := rfl
  constructor
  · show (o.setLevel pin state inverted).1 = _
    rw [setLevel_outOfRange h]
  · show (o.setLevel pin state inverted).2.callsSince o.history.length = []
    rw [setLevel_outOfRange h]
    exact callsSince_eq hsame

/-- **A level that is set is the one that its state asks for**: nothing else is called but to configure
the pin before, and it goes well if and only if there is such a pin and the driver refuses nothing. -/
theorem setLevel_deed (o : Outputs) (pin state : Int) (inverted : Bool) :
    ((o.deed (.setLevel pin state inverted)).outcome = .ok () ↔
      InRange pin ∧ ∀ r ∈ (o.deed (.setLevel pin state inverted)).calls, r.refused = false) ∧
    (∀ r ∈ (o.deed (.setLevel pin state inverted)).calls, r.call = .configure pin ∨
      r.call = .drive pin (if state = 0 then !inverted else inverted)) ∧
    ((o.deed (.setLevel pin state inverted)).outcome = .ok () → ∃ lead t,
      (o.deed (.setLevel pin state inverted)).calls =
        lead ++ [⟨.drive pin (if state = 0 then !inverted else inverted), t, false⟩] ∧
      ∀ r ∈ lead, r.call = .configure pin) := by
  have houtcome : (o.deed (.setLevel pin state inverted)).outcome = (o.setLevel pin state inverted).1 := rfl
  by_cases hrange : InRange pin
  · have hok_iff := (o.setLevel_follows state inverted hrange).ok_iff
    have hcalls := o.calls_setLevel state inverted hrange
    refine ⟨?_, ?_, ?_⟩
    · rw [houtcome, hcalls, hok_iff, and_iff_right hrange]
      rfl
    · intro r hr
      rw [hcalls] at hr
      rcases List.mem_append.1 (mem_attempts hr) with hfirst | hlevel
      · exact .inl (call_of_firstUse hfirst)
      · exact .inr (congrArg Prod.fst (List.mem_singleton.1 hlevel))
    · intro hok
      rw [houtcome, hok_iff] at hok
      refine ⟨(o.firstUse pin).map Planned.done, o.clock, ?_, ?_⟩
      · rw [hcalls, made, attempts_of_obeyed hok, List.map_append]
        rfl
      · intro r hr
        obtain ⟨p, hp, rfl⟩ := List.mem_map.1 hr
        exact call_of_firstUse hp
  · obtain ⟨herror, hnone⟩ := o.deed_setLevel_outOfRange state inverted hrange
    have hfails : (o.deed (.setLevel pin state inverted)).outcome ≠ .ok () := by
      rw [herror]
      intro h
      cases h
    refine ⟨iff_of_false hfails fun h => hrange h.1, ?_, fun h => absurd h hfails⟩
    rw [hnone]
    exact fun r hr => absurd hr List.not_mem_nil

/-- What a run leaves behind: by induction on what is asked, with the outputs generalised. -/
theorem performAll_accounts (tasks : List OutputTask) : ∀ o : Outputs, o.Sound →
    (o.performAll tasks).1.map Deed.task = tasks ∧
    (o.performAll tasks).2.Sound ∧
    (o.performAll tasks).2.history.reverse =
      o.history.reverse ++ (o.performAll tasks).1.flatMap Deed.calls ∧
    (o.performAll tasks).2.clock = o.clock + ((o.performAll tasks).1.map Deed.time).sum ∧
    ∀ d ∈ (o.performAll tasks).1, ∃ before : Outputs, d = before.deed d.task := by
  induction tasks with
  | nil =>
    intro o h
    exact ⟨rfl, h, by simp [performAll], by simp [performAll], nofun⟩
  | cons task tasks ih =>
    intro o h
    obtain ⟨htasks, hsound, hhistory, hclock, hdeeds⟩ := ih (o.perform task).2 (h.perform task)
    obtain ⟨calls, hcalls⟩ := o.perform_extends task
    have hfirst : (o.deed task).calls = calls.reverse := callsSince_eq hcalls
    rw [performAll_cons]
    refine ⟨?_, hsound, ?_, ?_, List.forall_mem_cons.2 ⟨⟨o, rfl⟩, hdeeds⟩⟩
    · exact congrArg (task :: ·) htasks
    · rw [hhistory, hcalls, List.flatMap_cons, hfirst, List.reverse_append, List.append_assoc]
    · rw [hclock, o.perform_clock task, List.map_cons, List.sum_cons, Nat.add_assoc]

end Outputs

open Outputs in
/-- **Runs of the outputs.** Pulses, levels and pauses are asked for in any order, of any pins, and the
driver refuses any calls it likes, to configure a pin or to drive it. The calls that were made are those
of the deeds, one after another, and:

* only pins from 0 to 49 are called;
* a pin is driven, or tried to be, only after the driver configured it, and the driver configures no pin
  twice;
* the last calls of a pulse that went well drive its pin active and, when exactly its time is over,
  inactive;
* a level that is set goes well if and only if there is such a pin and the driver refuses no call for it;
  its pin is then driven last, and it is never driven but active for the state zero, and inactive for
  every other;
* as much time passes as the pauses take, and the pulses whose first level was driven. -/
theorem outputs_run (refuses : Nat → PinCall → Bool) (start : Nat) (tasks : List OutputTask) :
    let (deeds, last) := ({ refuses, clock := start } : Outputs).performAll tasks
    deeds.map Deed.task = tasks ∧
    last.history.reverse = deeds.flatMap Deed.calls ∧
    (∀ r ∈ last.history, 0 ≤ r.call.pin ∧ r.call.pin ≤ 49) ∧
    (∀ past r later pin high, last.history.reverse = past ++ r :: later → r.call = .drive pin high →
      ∃ t, ⟨.configure pin, t, false⟩ ∈ past) ∧
    (∀ pin, last.history.countP (fun r => decide (r.call = .configure pin) && !r.refused) ≤ 1) ∧
    (∀ d ∈ deeds, ∀ pin ms inverted, d.task = .pulse pin ms inverted → d.outcome = .ok () →
      ∃ lead t, (∀ r ∈ lead, r.call = .configure pin) ∧
        d.calls = lead ++ [⟨.drive pin !inverted, t, false⟩, ⟨.drive pin inverted, t + ms, false⟩]) ∧
    (∀ d ∈ deeds, ∀ pin state inverted, d.task = .setLevel pin state inverted →
      let level := if state = 0 then !inverted else inverted
      (d.outcome = .ok () ↔ (0 ≤ pin ∧ pin ≤ 49) ∧ ∀ r ∈ d.calls, r.refused = false) ∧
      (∀ r ∈ d.calls, r.call = .configure pin ∨ r.call = .drive pin level) ∧
      (d.outcome = .ok () → ∃ lead t, (∀ r ∈ lead, r.call = .configure pin) ∧
        d.calls = lead ++ [⟨.drive pin level, t, false⟩])) ∧
    last.clock = start + (deeds.map Deed.time).sum := by
  obtain ⟨htasks, hsound, hhistory, hclock, hdeeds⟩ :=
    performAll_accounts tasks _ (Sound.new refuses start)
  have hbounds (pin : Int) : InRange pin ↔ 0 ≤ pin ∧ pin ≤ 49 := by
    unfold InRange pinLimit
    omega
  refine ⟨htasks, hhistory, ?_, ?_, hsound.orderly.configured_once, ?_, ?_, hclock⟩
  · intro r hr
    exact (hbounds _).1 (hsound.orderly.inRange r hr)
  · intro past r later pin high hsplit hcall
    obtain ⟨call, time, refused⟩ := r
    obtain rfl : call = .drive pin high := hcall
    -- the history has the newest call first
    have hnewest := congrArg List.reverse hsplit
    rw [List.reverse_reverse, List.reverse_append, List.reverse_cons, List.append_assoc] at hnewest
    obtain ⟨t, ht⟩ := hsound.orderly.configured_before hnewest
    exact ⟨t, List.mem_reverse.1 ht⟩
  · intro d hd pin ms inverted htask hok
    obtain ⟨before, hbefore⟩ := hdeeds d hd
    rw [htask] at hbefore
    rw [hbefore] at hok
    obtain ⟨lead, t, hcalls, hlead⟩ := pulse_deed hok
    rw [hbefore]
    exact ⟨lead, t, hlead, hcalls⟩
  · intro d hd pin state inverted htask level
    obtain ⟨before, hbefore⟩ := hdeeds d hd
    rw [htask] at hbefore
    obtain ⟨hok, hlevel, hlast⟩ := before.setLevel_deed pin state inverted
    rw [hbounds] at hok
    rw [hbefore]
    refine ⟨hok, hlevel, fun hdone => ?_⟩
    obtain ⟨lead, t, hcalls, hlead⟩ := hlast hdone
    exact ⟨lead, t, hlead, hcalls⟩

/-- A light that is active when low is switched on by the state zero, and off by another. -/
example : (Outputs.performAll {} [.setLevel 5 0 true, .setLevel 5 7 true]).2.events =
    [⟨.configure 5, 0, false⟩, ⟨.drive 5 false, 0, false⟩, ⟨.drive 5 true, 0, false⟩] := by decide

end Turnstile

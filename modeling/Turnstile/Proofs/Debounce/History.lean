import Turnstile.Debounce
import Turnstile.Proofs.Card.Names
import Turnstile.Proofs.Text.Fit

/-!
# What is held back

Whether an identifier goes through follows from those that went through before, and of these from the
last one only.

* `Debounce.Call`, `Debounce.Event`: what a debounce is told, and what became of it.
* `Debounce.run`: calls that are answered one after another.
* `Debounce.lastPassed`: the identifier that went through last, and when it did.
* `Debounce.Remembers`: the invariant. The debounce knows what is kept of that identifier, and that time.
* `run_passed`: what is held back and what goes away change nothing for what comes after.
* `stored_hex`: the name of a card is kept whole.
* `repetition_held_back_iff`: **an identifier is held back if and only if the last one that went through
  was the same, as far as identifiers are kept, and not long ago.**
-/

namespace Turnstile

namespace Debounce

/-- What a debounce is told. Times are in microseconds, and need not increase. -/
inductive Call where
  | see (id : String) (now : Nat)
  | absent
deriving DecidableEq, Repr

/-- What became of a call. -/
inductive Event where
  | passed (id : String) (now : Nat)
  | heldBack (id : String) (now : Nat)
  | absent
deriving DecidableEq, Repr

namespace Event

/-- The call that an event came of. -/
def call : Event → Call
  | passed id now => .see id now
  | heldBack id now => .see id now
  | absent => .absent

/-- The identifier that went through by an event, and when it did. -/
def passed? : Event → Option (String × Nat)
  | passed id now => some (id, now)
  | _ => none

end Event

/-- Answers a call. -/
def answer (d : Debounce) : Call → Event × Debounce
  | .see id now =>
    match d.see id now with
    | (true, d) => (.passed id now, d)
    | (false, d) => (.heldBack id now, d)
  | .absent => (.absent, d.absent)

/-- Answers calls, one after another. -/
def run (d : Debounce) : List Call → List Event × Debounce
  | [] => ([], d)
  | call :: calls =>
    match d.answer call with
    | (event, d) =>
      match d.run calls with
      | (events, d) => (event :: events, d)

/-- The identifier that went through last, and when it did. -/
def lastPassed (past : List Event) : Option (String × Nat) :=
  (past.filterMap Event.passed?).getLast?

variable {d start : Debounce} {id : String} {now : Nat} {past : List Event} {event : Event}
  {calls : List Call}

/-! ## One call -/

theorem lastPassed_snoc (past : List Event) (event : Event) :
    lastPassed (past ++ [event]) = event.passed?.or (lastPassed past) := by
  have hone : ([event].filterMap Event.passed?).getLast? = event.passed? := by
    cases h : event.passed? <;> simp [h]
  rw [lastPassed, List.filterMap_append, List.getLast?_append, hone]
  rfl

/-- What is kept of an identifier is its longest beginning that there is room for. -/
theorem longestFit_stored (d : Debounce) (id kept : String) :
    Utf8.LongestFit d.capacity id kept ↔ kept = d.stored id :=
  Utf8.longestFit_iff

/-- An identifier is kept whole if and only if there is room for it. -/
theorem stored_eq_self_iff : d.stored id = id ↔ id.utf8ByteSize ≤ d.capacity := by
  rw [← String.utf8Len_toList, ← Utf8.fit_eq_self_iff, ← String.toList_inj, stored,
    String.toList_ofList]

/-- Something is kept of an identifier that is not empty if there is room for any character. -/
theorem stored_ne_empty (hroom : 4 ≤ d.capacity) (h : id ≠ "") : d.stored id ≠ "" := by
  intro hstored
  rw [stored, String.ofList_eq_empty_iff] at hstored
  cases hid : id.toList with
  | nil => exact h (String.toList_eq_nil_iff.1 hid)
  | cons c cs =>
    have hc : Utf8.width c ≤ d.capacity := (Char.utf8Size_le_four c).trans hroom
    rw [hid, Utf8.fit_cons_of_le hc] at hstored
    exact List.cons_ne_nil _ _ hstored

theorem stored_of_capacity (h : d.capacity = start.capacity) (id : String) :
    d.stored id = start.stored id := by
  rw [stored, stored, h]

/-- **All that a call does**: an identifier goes through, or is held back and leaves all as it was, or
nothing is there any more. -/
theorem answer_cases (d : Debounce) (call : Call) :
    (∃ id now, call = .see id now ∧ d.holdsBack id now = false ∧ d.answer call =
      (.passed id now, { d with last := d.stored id, passedAt := now, present := true })) ∨
    (∃ id now, call = .see id now ∧ d.holdsBack id now = true ∧
      d.answer call = (.heldBack id now, d)) ∨
    (call = .absent ∧ d.answer call = (.absent, d.absent)) := by
  cases call with
  | see id now =>
    cases hholds : d.holdsBack id now with
    | false =>
      have hsee : d.see id now =
          (true, { d with last := d.stored id, passedAt := now, present := true }) := by
        simp [see, hholds]
      exact .inl ⟨id, now, rfl, hholds, by rw [answer, hsee]⟩
    | true =>
      have hsee : d.see id now = (false, d) := by simp [see, hholds]
      exact .inr (.inl ⟨id, now, rfl, hholds, by rw [answer, hsee]⟩)
  | absent => exact .inr (.inr ⟨rfl, rfl⟩)

theorem call_answer (d : Debounce) (call : Call) : (d.answer call).1.call = call := by
  obtain ⟨id, now, rfl, -, h⟩ | ⟨id, now, rfl, -, h⟩ | ⟨rfl, h⟩ := d.answer_cases call
  · rw [h]
    rfl
  · rw [h]
    rfl
  · rw [h]
    rfl

/-- A debounce knows what is kept of the identifier that went through last, and when it did. Nothing is
kept before the first. -/
structure Remembers (d start : Debounce) (past : List Event) : Prop where
  window : d.window = start.window
  capacity : d.capacity = start.capacity
  blank : lastPassed past = none → d.last = ""
  last : ∀ id since, lastPassed past = some (id, since) → d.last = start.stored id ∧ d.passedAt = since

namespace Remembers

theorem new (windowMs capacity : Nat) :
    (Debounce.new windowMs capacity).Remembers (Debounce.new windowMs capacity) [] where
  window := rfl
  capacity := rfl
  blank _ := rfl
  last _ _ h := nomatch h

/-- **An identifier is held back if and only if the last one that went through was the same**, as far as
identifiers are kept, and not long ago. -/
theorem holdsBack_iff (h : d.Remembers start past) : d.holdsBack id now = true ↔
    ∃ last since, lastPassed past = some (last, since) ∧ start.stored last = start.stored id ∧
      start.stored id ≠ "" ∧ now - since < start.window := by
  have hholds : d.holdsBack id now = true ↔
      d.last ≠ "" ∧ d.last = start.stored id ∧ now - d.passedAt < start.window := by
    rw [holdsBack, stored_of_capacity h.capacity, h.window]
    simp [and_assoc]
  rw [hholds]
  cases hlast : lastPassed past with
  | none => simp [h.blank hlast]
  | some passed =>
    obtain ⟨hkept, hsince⟩ := h.last passed.1 passed.2 hlast
    rw [hkept, hsince]
    constructor
    · rintro ⟨hne, hsame, hage⟩
      exact ⟨passed.1, passed.2, rfl, hsame, hsame ▸ hne, hage⟩
    · rintro ⟨last, since, heq, hsame, hne, hage⟩
      obtain rfl := Option.some.inj heq
      exact ⟨hsame ▸ hne, hsame, hage⟩

/-- What does not go through moves nothing. -/
theorem unmoved (h : d.Remembers start past) (hevent : event.passed? = none) :
    d.Remembers start (past ++ [event]) := by
  have hlast : lastPassed (past ++ [event]) = lastPassed past := by
    rw [lastPassed_snoc, hevent, Option.none_or]
  exact ⟨h.window, h.capacity, hlast ▸ h.blank, hlast ▸ h.last⟩

/-- Every call keeps the invariant. -/
theorem next (h : d.Remembers start past) (call : Call) :
    (d.answer call).2.Remembers start (past ++ [(d.answer call).1]) := by
  obtain ⟨id, now, -, -, hanswer⟩ | ⟨id, now, -, -, hanswer⟩ | ⟨-, hanswer⟩ := d.answer_cases call
  · rw [hanswer]
    have hlast : lastPassed (past ++ [.passed id now]) = some (id, now) := lastPassed_snoc past _
    refine ⟨h.window, h.capacity, ?_, ?_⟩
    · rw [hlast]
      exact nofun
    · rw [hlast]
      rintro _ _ ⟨⟩
      exact ⟨stored_of_capacity h.capacity id, rfl⟩
  · rw [hanswer]
    exact h.unmoved rfl
  · have habsent : d.absent.Remembers start past := ⟨h.window, h.capacity, h.blank, h.last⟩
    rw [hanswer]
    exact habsent.unmoved rfl

end Remembers

/-! ## Calls one after another -/

theorem run_cons (d : Debounce) (call : Call) (calls : List Call) :
    d.run (call :: calls) =
      ((d.answer call).1 :: ((d.answer call).2.run calls).1, ((d.answer call).2.run calls).2) := rfl

theorem run_append (d : Debounce) (calls more : List Call) : d.run (calls ++ more) =
    ((d.run calls).1 ++ ((d.run calls).2.run more).1, ((d.run calls).2.run more).2) := by
  induction calls generalizing d with
  | nil => rfl
  | cons call calls ih => rw [List.cons_append, run_cons, run_cons, ih, List.cons_append]

/-- Every call has one event. -/
theorem call_run (d : Debounce) (calls : List Call) : (d.run calls).1.map Event.call = calls := by
  induction calls generalizing d with
  | nil => rfl
  | cons call calls ih => rw [run_cons, List.map_cons, call_answer, ih]

/-- The invariant holds before every event of a run, and the event is the answer to its call. -/
theorem Remembers.at (h : d.Remembers start past) {before after : List Event}
    (hrun : (d.run calls).1 = before ++ event :: after) :
    ∃ d' : Debounce, d'.Remembers start (past ++ before) ∧ event = (d'.answer event.call).1 := by
  induction calls generalizing d past before with
  | nil => simp [run] at hrun
  | cons call calls ih =>
    rw [run_cons] at hrun
    dsimp only at hrun
    cases before with
    | nil =>
      obtain ⟨rfl, -⟩ := List.cons.inj hrun
      rw [List.append_nil, call_answer]
      exact ⟨d, h, rfl⟩
    | cons first before =>
      obtain ⟨rfl, htail⟩ := List.cons.inj hrun
      -- the first event joins the past
      have hpast : past ++ (d.answer call).1 :: before = (past ++ [(d.answer call).1]) ++ before := by
        simp
      rw [hpast]
      exact ih (h.next call) htail

/-- **Any identifier seen in a run** is held back if and only if the last one that went through was the
same, as far as identifiers are kept, and not long ago. -/
theorem Remembers.heldBack_iff (h : d.Remembers start past) {before after : List Event}
    (hrun : (d.run calls).1 = before ++ event :: after) (hcall : event.call = .see id now) :
    event = .heldBack id now ↔ ∃ last since, lastPassed (past ++ before) = some (last, since) ∧
      start.stored last = start.stored id ∧ start.stored id ≠ "" ∧ now - since < start.window := by
  obtain ⟨d', hd', hevent⟩ := h.at hrun
  rw [← hd'.holdsBack_iff, hevent, hcall]
  obtain ⟨_, _, heq, hholds, hanswer⟩ | ⟨_, _, heq, hholds, hanswer⟩ | ⟨heq, -⟩ :=
    d'.answer_cases (.see id now)
  · obtain ⟨rfl, rfl⟩ := Call.see.inj heq
    simp [hanswer, hholds]
  · obtain ⟨rfl, rfl⟩ := Call.see.inj heq
    simp [hanswer, hholds]
  · cases heq

theorem Remembers.run (h : d.Remembers start past) (calls : List Call) :
    (d.run calls).2.Remembers start (past ++ (d.run calls).1) := by
  induction calls generalizing d past with
  | nil =>
    rw [Debounce.run, List.append_nil]
    exact h
  | cons call calls ih =>
    have hlater := ih (h.next call)
    rw [List.append_assoc, List.singleton_append] at hlater
    exact hlater

/-- Two debounces with the same memory hold back the same. -/
theorem Remembers.holdsBack_eq {d' : Debounce} {past' : List Event} (h : d.Remembers start past)
    (h' : d'.Remembers start past') (hlast : lastPassed past = lastPassed past') :
    d.holdsBack id now = d'.holdsBack id now := by
  rw [Bool.eq_iff_iff, h.holdsBack_iff, h'.holdsBack_iff, hlast]

/-- **Without what was held back and what went away** all else goes as it went. -/
theorem run_passed {d' : Debounce} {past' : List Event} (h : d.Remembers start past)
    (h' : d'.Remembers start past') (hlast : lastPassed past = lastPassed past') (calls : List Call) :
    (d'.run (((d.run calls).1.filter (·.passed?.isSome)).map Event.call)).1 =
      (d.run calls).1.filter (·.passed?.isSome) := by
  induction calls generalizing d d' past past' with
  | nil => rfl
  | cons call calls ih =>
    have hnext := h.next call
    rw [run_cons]
    dsimp only
    obtain ⟨id, now, rfl, hholds, hanswer⟩ | ⟨id, now, rfl, hholds, hanswer⟩ | ⟨rfl, hanswer⟩ :=
      d.answer_cases call
    · -- what goes through here goes through there too, and is the last one in both
      rw [h.holdsBack_eq h' hlast] at hholds
      have hanswer' : d'.answer (.see id now) =
          (.passed id now, { d' with last := d'.stored id, passedAt := now, present := true }) := by
        simp [answer, see, hholds]
      have hnext' := h'.next (.see id now)
      rw [hanswer] at hnext ⊢
      rw [hanswer'] at hnext'
      rw [List.filter_cons_of_pos rfl, List.map_cons, Event.call, run_cons, hanswer']
      dsimp only
      rw [ih hnext hnext' (by rw [lastPassed_snoc, lastPassed_snoc]; rfl)]
    · rw [hanswer] at hnext ⊢
      rw [List.filter_cons_of_neg (by simp [Event.passed?])]
      exact ih hnext h' (by rw [lastPassed_snoc]; exact hlast)
    · rw [hanswer] at hnext ⊢
      rw [List.filter_cons_of_neg (by simp [Event.passed?])]
      exact ih hnext h' (by rw [lastPassed_snoc]; exact hlast)

/-! ## Names of cards -/

/-- The name of a card is kept whole. -/
theorem stored_hex (u : Uid) : forCards.stored u.hex = u.hex := by
  rw [stored_eq_self_iff, u.utf8ByteSize_hex]
  decide

end Debounce

open Debounce

/-- **An identifier is held back if and only if one went through before, the last one that did was the
same as far as identifiers are kept, something is kept of it, and it went through less than the window
ago**; a clock that runs backwards counts as one that stands. What is kept of an identifier is its
longest beginning that takes no more octets than there is room for. Identifiers that are held back and
that go away move nothing: the debounce still knows what went through last, and when, and all else goes
as if they had not been. The names of two cards are kept apart. -/
theorem repetition_held_back_iff (windowMs capacity : Nat) (calls : List Call) :
    let d := Debounce.new windowMs capacity
    let events := (d.run calls).1
    events.map Event.call = calls ∧
    (∀ past event id now later, events = past ++ event :: later → event.call = .see id now →
      (event = .heldBack id now ↔ ∃ last since, lastPassed past = some (last, since) ∧
        d.stored last = d.stored id ∧ d.stored id ≠ "" ∧ now - since < windowMs * 1000)) ∧
    (∀ id kept, Utf8.LongestFit capacity id kept ↔ kept = d.stored id) ∧
    (∀ last since, lastPassed events = some (last, since) →
      (d.run calls).2.last = d.stored last ∧ (d.run calls).2.passedAt = since) ∧
    (d.run ((events.filter (·.passed?.isSome)).map Event.call)).1 = events.filter (·.passed?.isSome) ∧
    ∀ u v : Uid, Debounce.forCards.stored u.hex = Debounce.forCards.stored v.hex → u = v := by
  intro d events
  have hnew : d.Remembers d [] := .new windowMs capacity
  refine ⟨d.call_run calls, ?_, d.longestFit_stored, (hnew.run calls).last,
    run_passed hnew hnew rfl calls, fun u v h => ?_⟩
  · intro past event id now later hevents hcall
    exact hnew.heldBack_iff hevents hcall
  · rw [stored_hex, stored_hex] at h
    exact Uid.hex_injective h

/-- Identifiers that are too long by two letters, seen by a clock that goes back once, and one that is
empty. -/
def longIdentifiers : List Call :=
  [.see "ABCDEF" 1000000, .see "ABCDXY" 500000, .absent, .see "ABCD" 1899999, .see "ABCD" 1900000,
    .see "" 1900000, .see "" 1900000]

theorem repetition_held_back_iff_too_long :
    ((Debounce.new 900 4).run longIdentifiers).1 = [.passed "ABCDEF" 1000000, .heldBack "ABCDXY" 500000,
        .absent, .heldBack "ABCD" 1899999, .passed "ABCD" 1900000, .passed "" 1900000,
        .passed "" 1900000] ∧
      (∃ last since, lastPassed [.passed "ABCDEF" 1000000, .heldBack "ABCDXY" 500000, .absent] =
          some (last, since) ∧ (Debounce.new 900 4).stored last = (Debounce.new 900 4).stored "ABCD" ∧
        (Debounce.new 900 4).stored "ABCD" ≠ "" ∧ 1899999 - since < 900 * 1000) ∧
      Utf8.LongestFit 4 "ABCDEF" "ABCD" ∧
      ((Debounce.new 900 4).run [.see "ABCDEF" 1000000, .see "ABCD" 1900000, .see "" 1900000,
        .see "" 1900000]).1 = [.passed "ABCDEF" 1000000, .passed "ABCD" 1900000, .passed "" 1900000,
        .passed "" 1900000] := by
  have hevents : ((Debounce.new 900 4).run longIdentifiers).1 = [.passed "ABCDEF" 1000000,
      .heldBack "ABCDXY" 500000, .absent, .heldBack "ABCD" 1899999, .passed "ABCD" 1900000,
      .passed "" 1900000, .passed "" 1900000] := by decide +kernel
  obtain ⟨-, hheld, hfit, -, hpassed, -⟩ := repetition_held_back_iff 900 4 longIdentifiers
  refine ⟨hevents, ?_, (hfit "ABCDEF" "ABCD").2 (by decide +kernel), ?_⟩
  · exact (hheld [.passed "ABCDEF" 1000000, .heldBack "ABCDXY" 500000, .absent]
      (.heldBack "ABCD" 1899999) "ABCD" 1899999 _ hevents rfl).1 rfl
  · rw [hevents] at hpassed
    exact hpassed

end Turnstile

import Turnstile.Proofs.Controller.CardText
import Turnstile.Proofs.Controller.Unreadable

/-!
# Whether a card is there

A debounce keeps a flag that goes up when a card goes through and down when no card is identified.
A card that comes back while it is still held back is identified, but it does not raise the flag.

* `Controller.debounce_scan`: what a look at a reader does to what is remembered there, by what is
  found.
* `Controller.entryPolls`: what the looks at the entry came to in a course of events.
* `Debounce.Follows`: the invariant. The flag is up since a card went through, or down since none
  was identified.
* `Follows.undergoAll`: **the flag follows the looks at the entry** in every course of events.
* `present_iff_not_returned`: where a card is identified the flag is down if and only if the card
  came back and was held back ever since.
-/

namespace Turnstile

/-- Whether a card went through in a look at a reader. -/
def Poll.Passed : Poll → Prop
  | .offered _ => True
  | _ => False

/-- Whether no card was identified in a look at a reader. -/
def Poll.Gone : Poll → Prop
  | .idle => True
  | .failed => True
  | _ => False

/-- Whether the flag of a debounce, and whether it remembers anything, follow from what the looks
at the reader came to. -/
structure Debounce.Follows (d : Debounce) (polls : List Poll) : Prop where
  up : d.present = true ↔ SinceThen Poll.Passed (· = .suppressed) polls
  down : d.present = false ↔ polls = [] ∨ SinceThen Poll.Gone (· = .suppressed) polls
  /-- Without a look nothing is held back. -/
  fresh : polls = [] → d.last = ""

namespace Debounce.Follows

variable {d : Debounce} {polls : List Poll}

theorem forCards : Follows .forCards [] where
  up := iff_of_false (by decide) not_sinceThen_nil
  down := iff_of_true rfl (.inl rfl)
  fresh := fun _ => rfl

/-- No card is identified. -/
theorem gone {p : Poll} (hp : p.Gone) : Follows d.absent (polls ++ [p]) where
  up := by
    refine iff_of_false Bool.false_ne_true ?_
    rw [sinceThen_snoc]
    rintro (hpassed | ⟨rfl, -⟩)
    · cases p with
      | offered o => exact hp
      | _ => exact hpassed
    · exact hp
  down := iff_of_true rfl (.inr (sinceThen_snoc.2 (.inl hp)))
  fresh := fun h => by simp at h

/-- A card goes through. -/
theorem passed (id : String) (now : Nat) (o : Offer) :
    Follows { d with last := d.stored id, passedAt := now, present := true } (polls ++ [.offered o]) where
  up := iff_of_true rfl (sinceThen_snoc.2 (.inl trivial))
  down := by
    refine iff_of_false Bool.noConfusion ?_
    rw [sinceThen_snoc]
    rintro (hnil | hgone | ⟨hheld, -⟩)
    · simp at hnil
    · exact hgone
    · cases hheld
  fresh := fun h => by simp at h

/-- A card is held back: the flag stays as it is, whichever it is. -/
theorem suppressed (h : Follows d polls) {id : String} {now : Nat} (hheld : d.holdsBack id now = true) :
    Follows d (polls ++ [.suppressed]) := by
  -- what holds it back is a card that went through before
  have hused : polls ≠ [] := by
    intro hnil
    simp [Debounce.holdsBack, h.fresh hnil] at hheld
  refine ⟨?_, ?_, fun hnil => by simp at hnil⟩
  · rw [h.up, sinceThen_snoc]
    simp [Poll.Passed]
  · rw [h.down, sinceThen_snoc]
    simp [Poll.Gone, hused]

/-- After a look the flag tells which kind of look was the last that did not hold a card back. -/
theorem down_iff (h : Follows d polls) (hne : polls ≠ []) :
    d.present = false ↔ SinceThen Poll.Gone (· = .suppressed) polls := by
  rw [h.down, or_iff_right hne]

end Debounce.Follows

namespace Controller

variable {σ τ : Type}

theorem debounce_takeJob (c : Controller σ τ) (now : Nat) : (c.takeJob now).debounce = c.debounce := by
  obtain ⟨jobs, journal, htake⟩ := c.takeJob_eq now
  rw [htake]

variable [RegisterBus σ] [Sink τ]

/-- **What a look at a reader does to what is remembered there**: a card that is not identified is
taken to be absent, one that is held back changes nothing, and one that goes through is remembered. -/
theorem debounce_scan (c : Controller σ τ) (role : Role) (now : Nat) :
    let look := c.scan role now
    let d := c.debounce.get role
    (∃ e, (Operation.identify.perform role c.bus).1 = .error e ∧ look.1.Gone ∧
      look.2.debounce.get role = d.absent) ∨
    (∃ uid, (Operation.identify.perform role c.bus).1 = .ok uid ∧ d.holdsBack uid.hex now = true ∧
      look.1 = .suppressed ∧ look.2.debounce.get role = d) ∨
    ∃ uid o, (Operation.identify.perform role c.bus).1 = .ok uid ∧ look.1 = .offered o ∧
      look.2.debounce.get role = { d with last := d.stored uid.hex, passedAt := now, present := true } := by
  intro look d
  cases hidentify : (Operation.identify.perform role c.bus).1 with
  | error e =>
    obtain ⟨bus, journal, hscan⟩ := c.scan_unidentified hidentify now
    refine .inl ⟨e, rfl, ?_⟩
    have habsent : (c.absent role).debounce.get role = d.absent := Sides.get_set_self ..
    simp only [look, hscan]
    split
    · exact ⟨trivial, habsent⟩
    · exact ⟨trivial, habsent⟩
  | ok uid =>
    obtain ⟨k, hscan, hdebounce, -⟩ := c.scan_identified hidentify now
    have hd : k.debounce.get role = d := by rw [hdebounce]
    simp only [look, hscan, identified, hd, Debounce.see]
    cases hheld : d.holdsBack uid.hex now with
    | true => exact .inr (.inl ⟨uid, rfl, hheld, rfl, hd⟩)
    | false => exact .inr (.inr ⟨uid, _, rfl, rfl, Sides.get_set_self ..⟩)

/-- A look at one reader leaves alone what is remembered at the other. -/
theorem debounce_scan_of_ne (c : Controller σ τ) {role other : Role} (hother : other ≠ role) (now : Nat) :
    (c.scan role now).2.debounce.get other = c.debounce.get other := by
  have hidentified : ∀ (d : Controller σ τ) (uid : Uid) (user : String),
      (d.identified role uid user now).2.debounce.get other = d.debounce.get other := by
    intro d uid user
    unfold identified
    split
    · rfl
    · exact Sides.get_set_of_ne _ hother _
  obtain ⟨poll, health, journal, -, hscan⟩ | ⟨uid, user, health, journal, hscan⟩ := c.scan_cases role now
  · rw [hscan]
    exact Sides.get_set_of_ne _ hother _
  · rw [hscan, hidentified]

/-- The turn of the reader at the exit leaves alone what is remembered at the entry. -/
theorem debounce_pollExit (c : Controller σ τ) (now : Nat) :
    (c.pollExit now).2.debounce.get .entry = c.debounce.get .entry := by
  unfold pollExit
  split
  · exact c.debounce_scan_of_ne (by decide) now
  · next job hpending =>
    obtain ⟨answer, health, journal, hwrite⟩ := c.tryWrite_eq job.text
    rw [hwrite]
    cases answer <;> rfl

/-- What the looks at the entry came to in a course of events. -/
def entryPolls (c : Controller σ τ) : List (Turn σ τ) → List Poll
  | [] => []
  | .poll now :: rest => (c.pollCycle now).1.1 :: entryPolls (c.undergo (.poll now)) rest
  | turn :: rest => entryPolls (c.undergo turn) rest

end Controller

namespace Debounce.Follows

open Controller

variable {σ τ : Type} [RegisterBus σ] [Sink τ] {c : Controller σ τ} {polls : List Poll}

/-- One cycle: the flag at the entry follows what was found there. -/
theorem pollCycle (h : Follows (c.debounce.get .entry) polls) (now : Nat) :
    Follows ((c.pollCycle now).2.debounce.get .entry) (polls ++ [(c.pollCycle now).1.1]) := by
  have hafter : (c.pollCycle now).2.debounce.get .entry =
      ((c.takeJob now).scan .entry now).2.debounce.get .entry := debounce_pollExit _ now
  have hpoll : (c.pollCycle now).1.1 = ((c.takeJob now).scan .entry now).1 := rfl
  rw [hafter, hpoll]
  rw [← c.debounce_takeJob now] at h
  obtain ⟨e, -, hgone, hd⟩ | ⟨uid, -, hheld, hp, hd⟩ | ⟨uid, o, -, hp, hd⟩ :=
    (c.takeJob now).debounce_scan .entry now
  · rw [hd]
    exact gone hgone
  · rw [hp, hd]
    exact h.suppressed hheld
  · rw [hp, hd]
    exact passed uid.hex now o

/-- **The flag follows the looks at the entry** in every course of events that leaves alone what is
remembered. -/
theorem undergoAll (h : Follows (c.debounce.get .entry) polls) (course : List (Turn σ τ))
    (hleaves : ∀ turn ∈ course, turn.Leaves Controller.debounce) :
    Follows ((c.undergoAll course).debounce.get .entry) (polls ++ c.entryPolls course) := by
  induction course generalizing c polls with
  | nil =>
    rw [entryPolls, List.append_nil]
    exact h
  | cons turn rest ih =>
    have hall : c.undergoAll (turn :: rest) = (c.undergo turn).undergoAll rest := rfl
    have hrest : ∀ turn ∈ rest, turn.Leaves Controller.debounce :=
      fun turn hturn => hleaves turn (List.mem_cons_of_mem _ hturn)
    rw [hall]
    cases turn with
    | poll now =>
      have hcycle := ih (h.pollCycle now) hrest
      rwa [List.append_assoc] at hcycle
    | submit text deadline => exact ih (c := c.undergo (.submit text deadline)) h hrest
    | rest now =>
      have hkept : (c.undergo (.rest now)).debounce = c.debounce := c.debounce_takeJob now
      exact ih (c := c.undergo (.rest now)) (hkept ▸ h) hrest
    | meanwhile change =>
      have hkept : (c.undergo (.meanwhile change)).debounce = c.debounce :=
        hleaves (.meanwhile change) List.mem_cons_self c
      exact ih (c := c.undergo (.meanwhile change)) (hkept ▸ h) hrest

end Debounce.Follows

open Controller in
/-- **The flag tells whether a card is there, unless the card came back too soon.** Start before
anything was seen at the entry, and let cycles of the polling loop come in any order and at any times,
with cards that come and go. Where the next cycle identifies no card at the entry, the flag is down
after it. Where it identifies one, the flag is up, but for one case: the card is held back, and the last
look that did not hold a card back found none. -/
theorem present_iff_not_returned {σ τ : Type} [RegisterBus σ] [Sink τ] (c : Controller σ τ)
    (hnew : c.debounce.get .entry = .forCards) (course : List (Turn σ τ))
    (hleaves : ∀ turn ∈ course, turn.Leaves Controller.debounce) (now : Nat) :
    let past := c.undergoAll course
    let next := past.undergo (.poll now)
    let there := ∃ uid, (Operation.identify.perform .entry past.bus).1 = .ok uid
    let returned := (past.pollCycle now).1.1 = .suppressed ∧
      SinceThen Poll.Gone (· = .suppressed) (c.entryPolls course)
    (¬ there → (next.debounce.get .entry).present = false) ∧
      (there → ((next.debounce.get .entry).present = true ↔ ¬ returned)) := by
  intro past next there returned
  have hstart : Debounce.Follows (c.debounce.get .entry) [] := hnew ▸ Debounce.Follows.forCards
  have hpast : Debounce.Follows (past.debounce.get .entry) (c.entryPolls course) :=
    hstart.undergoAll course hleaves
  have hdown := (hpast.pollCycle now).down_iff (by simp)
  rw [sinceThen_snoc] at hdown
  have hbus : (past.takeJob now).bus = past.bus := past.bus_takeJob now
  have hpoll : (past.pollCycle now).1.1 = ((past.takeJob now).scan .entry now).1 := rfl
  -- a look that identifies a card lowers the flag only by holding the card back
  have hseen (uid : Uid) (hidentify : (Operation.identify.perform .entry past.bus).1 = .ok uid)
      (hfound : ¬ (past.pollCycle now).1.1.Gone) :
      (¬ there → (next.debounce.get .entry).present = false) ∧
        (there → ((next.debounce.get .entry).present = true ↔ ¬ returned)) := by
    refine ⟨fun habsent => absurd ⟨uid, hidentify⟩ habsent, fun _ => ?_⟩
    rw [← Bool.not_eq_false, not_iff_not]
    exact hdown.trans (or_iff_right hfound)
  rw [← hbus] at hseen
  obtain ⟨e, hidentify, hgone, -⟩ | ⟨uid, hidentify, -, hp, -⟩ | ⟨uid, o, hidentify, hp, -⟩ :=
    (past.takeJob now).debounce_scan .entry now
  · refine ⟨fun _ => hdown.2 (.inl hgone), ?_⟩
    rintro ⟨uid, hok⟩
    rw [← hbus, hidentify] at hok
    cases hok
  · refine hseen uid hidentify ?_
    rw [hpoll, hp]
    exact not_false
  · refine hseen uid hidentify ?_
    rw [hpoll, hp]
    exact not_false

/-- A card lies on the reader at the entry. -/
def cardAtEntry : Controller Field Outbox where
  bus := Field.new.present .entry { uid := ⟨0x04, 0xA1, 0x3B, 0xFF⟩ }
  desk := { settings := ⟨{}, {}⟩, outbox := {} }

/-- The card is seen, goes away, and comes back. -/
def awayAndBack : List (Turn Field Outbox) :=
  [.poll 0, .meanwhile fun c => { c with bus := c.bus.remove .entry }, .poll 100000,
    .meanwhile fun c => { c with bus := c.bus.present .entry { uid := ⟨0x04, 0xA1, 0x3B, 0xFF⟩ } }]

/-- The flag is down as long as the card that came back is held back, and goes up when it may go
through again. -/
theorem present_iff_not_returned_held_back :
    (cardAtEntry.debounce.get .entry = .forCards) ∧
      (∀ turn ∈ awayAndBack, turn.Leaves Controller.debounce) ∧
      (∃ uid, (Operation.identify.perform .entry (cardAtEntry.undergoAll awayAndBack).bus).1 = .ok uid) ∧
      (((cardAtEntry.undergoAll awayAndBack).undergo (.poll 899999)).debounce.get .entry).present ≠ true ∧
      (((cardAtEntry.undergoAll awayAndBack).undergo (.poll 900000)).debounce.get .entry).present = true := by
  have hleaves : ∀ turn ∈ awayAndBack, turn.Leaves Controller.debounce := by
    simp [awayAndBack, Turn.Leaves]
  have hthere : (Operation.identify.perform .entry (cardAtEntry.undergoAll awayAndBack).bus).1 =
      .ok ⟨0x04, 0xA1, 0x3B, 0xFF⟩ := by decide +kernel
  have hsoon := (present_iff_not_returned cardAtEntry rfl awayAndBack hleaves 899999).2 ⟨_, hthere⟩
  have hlater := (present_iff_not_returned cardAtEntry rfl awayAndBack hleaves 900000).2 ⟨_, hthere⟩
  have hpolls : cardAtEntry.entryPolls awayAndBack = [.offered .published, .idle] := by decide +kernel
  refine ⟨rfl, hleaves, ⟨_, hthere⟩, ?_, ?_⟩
  · rw [Ne, hsoon, not_not]
    refine ⟨by decide +kernel, ?_⟩
    exact ⟨[.offered .published], .idle, [], hpolls, trivial, by simp⟩
  · rw [hlater]
    rintro ⟨hheld, -⟩
    revert hheld
    decide +kernel

/-- A card that came back is identified, and the flag says that no card is there. -/
theorem returned_card_not_present :
    (Operation.identify.perform .entry (cardAtEntry.undergoAll awayAndBack).bus).1 =
        .ok ⟨0x04, 0xA1, 0x3B, 0xFF⟩ ∧
      (((cardAtEntry.undergoAll awayAndBack).undergo (.poll 200000)).debounce.get .entry).present =
        false := by
  decide +kernel

end Turnstile

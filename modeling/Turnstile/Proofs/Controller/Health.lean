import Turnstile.Proofs.Controller.CardText
import Turnstile.Proofs.Controller.Unreadable
import Turnstile.Proofs.Reader.Absence

/-!
# The health of the readers

A reader is well if its last exchange with a card went well. In each cycle the reader at the entry
looks for a card, and the reader at the exit looks for one or writes on it. Finding no card is no
exchange.

* `Health.told`: the health after an exchange of one reader.
* `Controller.outcome`: what the exchange of a reader comes to in a cycle; `Controller.outcomes`:
  in the cycles of a course of events.
* `Controller.health_pollCycle`: **a cycle tells the health what became of both readers, and
  nothing else.**
* `Controller.health_undergoAll`: so does a course of events.
* `health_follows_exchanges`: a reader is unwell if and only if its last exchange went wrong.
-/

namespace Turnstile

/-! ## What is told -/

namespace Health

/-- The flag of a reader after an exchange. -/
def tell (ok : Bool) : Except CardError Uid → Bool
  | .ok _ => true
  | .error .noCard => ok
  | .error _ => false

/-- The health after an exchange of one reader. -/
def told (h : Health) (role : Role) (r : Except CardError Uid) : Health :=
  h.record role (tell (h.ok.get role) r)

/-- Finding no card changes nothing. -/
theorem told_noCard (h : Health) (role : Role) : h.told role (.error .noCard) = h :=
  congrArg Health.mk (h.ok.set_get_self role)

theorem get_told_self (h : Health) (role : Role) (r : Except CardError Uid) :
    (h.told role r).ok.get role = tell (h.ok.get role) r :=
  Sides.get_set_self ..

theorem get_told_of_ne (h : Health) {role other : Role} (hother : other ≠ role)
    (r : Except CardError Uid) : (h.told role r).ok.get other = h.ok.get other :=
  Sides.get_set_of_ne _ hother _

end Health

/-- Whether the last exchange that did not come to the absence of a card went wrong. -/
def WentWrong (outcomes : List (Except CardError Uid)) : Prop :=
  SinceThen (fun r => ∃ e, r = .error e ∧ e ≠ .noCard) (fun r => r = .error .noCard) outcomes

/-- The flag of a reader that was well at first tells whether the last exchange went wrong. -/
theorem foldl_tell (outcomes : List (Except CardError Uid)) :
    outcomes.foldl Health.tell true = false ↔ WentWrong outcomes := by
  induction outcomes using List.reverseRecOn with
  | nil => exact iff_of_false (by decide) not_sinceThen_nil
  | append_singleton outcomes r ih =>
    rw [List.foldl_append, WentWrong, sinceThen_snoc, ← WentWrong, ← ih]
    rcases r with (_ | _ | _ | _ | _ | _ | _) | uid
    all_goals simp [Health.tell]

/-! ## Exchanges in a cycle -/

namespace Controller

variable {σ τ : Type}

theorem health_takeJob (c : Controller σ τ) (now : Nat) : (c.takeJob now).health = c.health := by
  obtain ⟨jobs, journal, htake⟩ := c.takeJob_eq now
  rw [htake]

variable [RegisterBus σ]

/-- The exchange of a reader with a card: it identifies the card, and writes a text on it if there
is one to be written. -/
def attempt (text? : Option String) : Operation Uid :=
  match text? with
  | none => Operation.identify
  | some text => writeText text

/-- An exchange comes to the absence of a card if and only if no card was identified. -/
theorem attempt_noCard_iff (role : Role) (text? : Option String) (s : σ) :
    ((attempt text?).perform role s).1 = .error .noCard ↔
      (Operation.identify.perform role s).1 = .error .noCard := by
  cases text? with
  | none => exact Iff.rfl
  | some text => exact writeText_noCard_iff role text s

/-- **An attempt to write tells the health how it ended.** -/
theorem health_tryWrite (c : Controller σ τ) (text : String) :
    (c.tryWrite text).2.health = c.health.told .exit ((writeText text).perform .exit c.bus).1 := by
  unfold tryWrite perform
  dsimp only
  cases ((writeText text).perform .exit c.bus).1 with
  | ok uid => rfl
  | error e =>
    cases e with
    | noCard => exact (c.health.told_noCard .exit).symm
    | _ => rfl

variable [Sink τ]

/-- **A look at a reader tells the health how the identification ended**, whatever becomes of the
text of the card. -/
theorem health_scan (c : Controller σ τ) (role : Role) (now : Nat) :
    (c.scan role now).2.health = c.health.told role (Operation.identify.perform role c.bus).1 := by
  cases hidentify : (Operation.identify.perform role c.bus).1 with
  | ok uid =>
    obtain ⟨d, hscan, -, hhealth, -⟩ := c.scan_identified hidentify now
    rw [hscan, health_identified, hhealth]
    rfl
  | error e =>
    obtain ⟨bus, journal, hscan⟩ := c.scan_unidentified hidentify now
    rw [hscan]
    cases e with
    | noCard => exact (c.health.told_noCard role).symm
    | _ => rfl

theorem health_pollExit (c : Controller σ τ) (now : Nat) :
    (c.pollExit now).2.health =
      c.health.told .exit ((attempt (c.jobs.pending.map (·.text))).perform .exit c.bus).1 := by
  unfold pollExit
  split
  · next hpending =>
    rw [hpending]
    exact c.health_scan .exit now
  · next job hpending =>
    have hwrite := c.health_tryWrite job.text
    rw [hpending]
    split
    · next uid d heq =>
      rw [heq] at hwrite
      exact hwrite
    · next d heq =>
      rw [heq] at hwrite
      exact hwrite

/-- The bus when a reader has its turn in a cycle. -/
def busAt (c : Controller σ τ) (now : Nat) : Role → σ
  | .entry => c.bus
  | .exit => ((c.takeJob now).scan .entry now).2.bus

/-- The text that a reader is to write in a cycle, if there is one. -/
def textAt (c : Controller σ τ) (now : Nat) : Role → Option String
  | .entry => none
  | .exit => (c.jobs.due now).map (·.text)

/-- What the exchange of a reader comes to in a cycle. -/
def outcome (c : Controller σ τ) (now : Nat) (role : Role) : Except CardError Uid :=
  ((attempt (c.textAt now role)).perform role (c.busAt now role)).1

/-- **A cycle tells the health what became of both readers**, and nothing else. -/
theorem health_pollCycle (c : Controller σ τ) (now : Nat) :
    (c.pollCycle now).2.health =
      (c.health.told .entry (c.outcome now .entry)).told .exit (c.outcome now .exit) := by
  let d := ((c.takeJob now).scan .entry now).2
  have hcycle : (c.pollCycle now).2 = (d.pollExit now).2 := rfl
  have hentry : d.health = c.health.told .entry (c.outcome now .entry) := by
    rw [health_scan, health_takeJob, bus_takeJob]
    rfl
  have hpending : d.jobs.pending = c.jobs.due now := by
    rw [jobs_scan, jobs_takeJob]
    exact c.jobs.pending_relay now
  rw [hcycle, health_pollExit, hentry, hpending]
  rfl

/-- Each reader is told of its own exchange only. -/
theorem ok_pollCycle (c : Controller σ τ) (now : Nat) (role : Role) :
    (c.pollCycle now).2.health.ok.get role = Health.tell (c.health.ok.get role) (c.outcome now role) := by
  rw [health_pollCycle]
  cases role with
  | entry => rw [Health.get_told_of_ne _ (by decide), Health.get_told_self]
  | exit => rw [Health.get_told_self, Health.get_told_of_ne _ (by decide)]

/-! ## Exchanges in a course of events -/

/-- What the exchanges of a reader come to in the cycles of a course of events. -/
def outcomes (role : Role) (c : Controller σ τ) : List (Turn σ τ) → List (Except CardError Uid)
  | [] => []
  | .poll now :: rest => c.outcome now role :: outcomes role (c.undergo (.poll now)) rest
  | turn :: rest => outcomes role (c.undergo turn) rest

/-- **A course of events tells the health of a reader what its exchanges came to.** -/
theorem health_undergoAll (role : Role) (c : Controller σ τ) (course : List (Turn σ τ))
    (hleaves : ∀ turn ∈ course, turn.Leaves Controller.health) :
    (c.undergoAll course).health.ok.get role =
      (c.outcomes role course).foldl Health.tell (c.health.ok.get role) := by
  -- only a cycle has outcomes, and what else happens leaves the health alone
  induction course generalizing c with
  | nil => rfl
  | cons turn rest ih =>
    have hrest := ih (c.undergo turn) fun turn hturn => hleaves turn (List.mem_cons_of_mem _ hturn)
    have hall : c.undergoAll (turn :: rest) = (c.undergo turn).undergoAll rest := rfl
    rw [hall, hrest]
    cases turn with
    | poll now =>
      have hcycle := c.ok_pollCycle now role
      simp only [outcomes, List.foldl_cons, ← hcycle]
      rfl
    | submit text deadline => rfl
    | rest now =>
      have hkept : (c.undergo (.rest now)).health = c.health := c.health_takeJob now
      rw [hkept]
      rfl
    | meanwhile change =>
      have hkept : (c.undergo (.meanwhile change)).health = c.health :=
        hleaves (.meanwhile change) List.mem_cons_self c
      rw [hkept]
      rfl

end Controller

/-- **The health of a reader follows its last exchange.** Start with readers that are well, and let
cycles of the polling loop come in any order with jobs that are handed in, rounds without a link and
whatever else leaves the health alone. A reader is unwell after that if and only if its last exchange
that did not come to the absence of a card went wrong. The next cycle tells it of its own exchange
only: to identify a card is success whatever becomes of the text, unless the card is to be written;
and the absence of a card, which is what an exchange comes to when none was identified, changes
nothing. -/
theorem health_follows_exchanges {σ τ : Type} [RegisterBus σ] [Sink τ] (c : Controller σ τ)
    (hnew : c.health = {}) (course : List (Turn σ τ))
    (hleaves : ∀ turn ∈ course, turn.Leaves Controller.health) (role : Role) :
    let past := c.undergoAll course
    c.health.ok.get role = true ∧
      (past.health.ok.get role = false ↔ WentWrong (c.outcomes role course)) ∧
      ∀ now,
        let next := past.undergo (.poll now)
        (next.health.ok.get role = true ↔ (∃ uid, past.outcome now role = .ok uid) ∨
          past.outcome now role = .error .noCard ∧ past.health.ok.get role = true) ∧
        (past.textAt now role = none →
          past.outcome now role = (Operation.identify.perform role (past.busAt now role)).1) ∧
        (past.outcome now role = .error .noCard ↔
          (Operation.identify.perform role (past.busAt now role)).1 = .error .noCard) := by
  intro past
  have hwell : c.health.ok.get role = true := by
    rw [hnew]
    cases role <;> rfl
  refine ⟨hwell, ?_, ?_⟩
  · rw [Controller.health_undergoAll role c course hleaves, hwell]
    exact foldl_tell _
  · intro now next
    have hnext : next.health.ok.get role =
        Health.tell (past.health.ok.get role) (past.outcome now role) := past.ok_pollCycle now role
    refine ⟨?_, ?_, Controller.attempt_noCard_iff role _ _⟩
    · rw [hnext]
      rcases past.outcome now role with (_ | _ | _ | _ | _ | _ | _) | uid
      all_goals simp [Health.tell]
    · intro htext
      rw [Controller.outcome, htext]
      rfl

/-- A card refuses to be written and goes away; the reader at the exit is unwell until the card
comes back and is written. -/
theorem health_follows_exchanges_refused :
    let refusing := (Field.new.present .exit { uid := ⟨5, 6, 7, 8⟩ }).inject .exit .writeNak
    let c : Controller Field Outbox := { bus := refusing, desk := { settings := ⟨{}, {}⟩, outbox := {} } }
    let leave := fun d : Controller Field Outbox => { d with bus := d.bus.remove .exit }
    let course := [.submit "Eva" 7000000, .poll 0, .meanwhile leave, .poll 60000]
    (∀ turn ∈ course, turn.Leaves Controller.health) ∧
      (c.undergoAll course).health.ok.get .exit = false ∧
      (c.undergoAll course).health.ok.get .entry = true := by
  intro refusing c leave course
  have hleaves : ∀ turn ∈ course, turn.Leaves Controller.health := by
    simp [course, Turn.Leaves, leave]
  have hwrong : WentWrong (c.outcomes .exit course) :=
    ⟨[], .error .notAcknowledged, [.error .noCard], by decide +kernel, ⟨_, rfl, by decide⟩, by decide⟩
  have hexit := (health_follows_exchanges c rfl course hleaves .exit).2.1.2 hwrong
  have hentry := (health_follows_exchanges c rfl course hleaves .entry).2.1
  have hright : ¬ WentWrong (c.outcomes .entry course) := by
    rw [← foldl_tell]
    decide +kernel
  refine ⟨hleaves, hexit, ?_⟩
  rw [← Bool.not_eq_false]
  exact fun h => hright (hentry.1 h)

end Turnstile

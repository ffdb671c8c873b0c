import Turnstile.Proofs.Controller.Readers
import Turnstile.Proofs.Desk.Asking
import Turnstile.Simulation.Field

/-!
# Cards whose text cannot be read

A look at a reader first identifies a card and then reads the text about its user. Only the first decides
whether access is asked for; the text is a field of the request and nothing else.

* `Sink.IgnoresPayloads`: a sink that does not take one message and refuse another for their payloads.
* `Controller.scan_identified`, `Controller.scan_unidentified`: **a look at a reader in closed form**, by
  the outcome of the identification.
* `Desk.offer_congr`: who asks fares alike whatever else the request tells.
* `unreadable_block_harmless`: **two looks that identify the same card end alike, whatever becomes of the
  text**; and a look that identifies none asks for nothing.
-/

namespace Turnstile

/-- Whether a sink takes a message or refuses it without regard to its payload. -/
def Sink.IgnoresPayloads (τ : Type) [Sink τ] : Prop :=
  ∀ (t : τ) (m : Message) (payload : String),
    (Sink.send t { m with payload }).1 = .taken ↔ (Sink.send t m).1 = .taken

/-- A queue has room for a message or has none. -/
theorem Outbox.ignoresPayloads : Sink.IgnoresPayloads Outbox := by
  intro q m payload
  show (q.send { m with payload }).1 = .taken ↔ (q.send m).1 = .taken
  unfold Outbox.send
  by_cases hclosed : q.closed = true
  · simp [hclosed]
  · by_cases hroom : q.waiting.length < q.capacity <;> simp [hclosed, hroom]

/-- The text that is told about the user of a card: none, if the block could not be read. -/
def blockText : Except CardError Bytes → String
  | .ok block => UserText.decode block
  | .error _ => ""

namespace Desk

variable {τ : Type} [Sink τ]

/-- What becomes of who asks, and of the gate: that depends on the gate and on whether the sink takes the
request. -/
theorem offer_outcome (d : Desk τ) (source : Source) (id user : String) (now : Nat) :
    let taken := decide ((Sink.send d.outbox (d.accessRequest source id user)).1 = .taken)
    (d.offer source id user now).1 =
        (if d.gate.stands now then .gateBusy else if taken then .published else .queueFull) ∧
      (d.offer source id user now).2.gate =
        (if d.gate.stands now then d.gate else { d.gate with held := taken, since := now }) := by
  obtain ⟨_, ⟨hstands, hoffer⟩ | ⟨hfree, htaken, hoffer⟩ | ⟨hfree, hrefused, hoffer⟩⟩ :=
    d.offer_cases source id user now
  · simp [hoffer, hstands]
  · simp [hoffer, hfree, htaken]
  · simp [hoffer, hfree, hrefused]

/-- **Who asks fares alike whatever else the request tells**, if the sink does not look at payloads. -/
theorem offer_congr (hsink : Sink.IgnoresPayloads τ) {d e : Desk (Recorder τ)} (hgate : e.gate = d.gate)
    (houtbox : e.outbox = d.outbox) (hsettings : e.settings = d.settings) (source : Source)
    (id user user' : String) (now : Nat) :
    (e.offer source id user' now).1 = (d.offer source id user now).1 ∧
      (e.offer source id user' now).2.gate = (d.offer source id user now).2.gate := by
  have hcurrent : e.current = d.current := congrArg SettingsStore.current hsettings
  -- both requests go to the same topic in the same way
  have htaken : (Sink.send e.outbox (e.accessRequest source id user')).1 = .taken ↔
      (Sink.send d.outbox (d.accessRequest source id user)).1 = .taken := by
    rw [houtbox, accessRequest, hcurrent]
    exact hsink d.outbox.inner (d.accessRequest source id user) _
  obtain ⟨hd, hdgate⟩ := d.offer_outcome source id user now
  obtain ⟨he, hegate⟩ := e.offer_outcome source id user' now
  rw [hd, he, hdgate, hegate, hgate]
  simp only [htaken, and_self]

end Desk

namespace Controller

variable {σ σ' τ : Type} [RegisterBus σ] [RegisterBus σ'] [Sink τ] {role : Role} {uid : Uid} {e : CardError}

/-- What becomes of the text of the card that was identified. -/
def readOutcome (role : Role) (bus : σ) (uid : Uid) : Except CardError Bytes :=
  ((Operation.readBlock userBlock uid).perform role (Operation.identify.perform role bus).2.1).1

omit [Sink τ] in
theorem readUser_text (c : Controller σ τ) (role : Role) (uid : Uid) : ∃ journal, c.readUser role uid =
    (blockText ((Operation.readBlock userBlock uid).perform role c.bus).1, { c with
      bus := ((Operation.readBlock userBlock uid).perform role c.bus).2.1
      desk := { c.desk with journal } }) := by
  unfold readUser perform
  dsimp only
  cases ((Operation.readBlock userBlock uid).perform role c.bus).1 with
  | ok block => exact ⟨_, rfl⟩
  | error e => exact ⟨_, rfl⟩

/-- A look at a reader that identifies a card: the card asks for access with the text that was found. -/
theorem scan_identified (c : Controller σ τ) (h : (Operation.identify.perform role c.bus).1 = .ok uid)
    (now : Nat) : ∃ d : Controller σ τ,
      c.scan role now = d.identified role uid (blockText (readOutcome role c.bus uid)) now ∧
      d.debounce = c.debounce ∧ d.health = c.health.record role true ∧ d.desk.gate = c.desk.gate ∧
      d.desk.outbox = c.desk.outbox ∧ d.desk.settings = c.desk.settings := by
  unfold scan perform
  dsimp only
  rw [h]
  dsimp only
  obtain ⟨journal, huser⟩ := readUser_text
    (log { c with bus := (Operation.identify.perform role c.bus).2.1 } _) role uid
  rw [huser]
  exact ⟨_, rfl, rfl, rfl, rfl, rfl, rfl⟩

/-- A look at a reader that identifies no card. -/
theorem scan_unidentified (c : Controller σ τ) (h : (Operation.identify.perform role c.bus).1 = .error e)
    (now : Nat) : ∃ bus journal, c.scan role now =
      if e.isNoCard then (.idle, { c.absent role with bus, desk := { c.desk with journal } })
      else (.failed, { c.absent role with
        bus, health := c.health.record role false, desk := { c.desk with journal } }) := by
  unfold scan perform
  dsimp only
  rw [h]
  dsimp only
  by_cases hnoCard : e.isNoCard = true
  · simp only [if_pos hnoCard]
    exact ⟨_, _, rfl⟩
  · simp only [if_neg hnoCard]
    exact ⟨_, _, rfl⟩

omit [RegisterBus σ] [RegisterBus σ'] in
/-- A card that was identified fares alike whatever its text is, before whichever bus. -/
theorem identified_congr (hsink : Sink.IgnoresPayloads τ) {c : Controller σ (Recorder τ)}
    {d : Controller σ' (Recorder τ)} (hdebounce : d.debounce = c.debounce)
    (hgate : d.desk.gate = c.desk.gate) (houtbox : d.desk.outbox = c.desk.outbox)
    (hsettings : d.desk.settings = c.desk.settings) (role : Role) (uid : Uid) (user user' : String)
    (now : Nat) :
    (d.identified role uid user' now).1 = (c.identified role uid user now).1 ∧
      (d.identified role uid user' now).2.debounce = (c.identified role uid user now).2.debounce ∧
      (d.identified role uid user' now).2.desk.gate = (c.identified role uid user now).2.desk.gate := by
  obtain ⟨hoffer, hafter⟩ :=
    Desk.offer_congr hsink hgate houtbox hsettings role.source uid.hex user user' now
  unfold identified
  rw [hdebounce]
  obtain ⟨passes, seen⟩ := (c.debounce.get role).see uid.hex now
  cases passes with
  | false => exact ⟨rfl, hdebounce, hgate⟩
  | true => exact ⟨congrArg Poll.offered hoffer, rfl, hafter⟩

omit [RegisterBus σ] in
/-- The request that a card gets through names the card, and tells its text. -/
theorem asks_of_published {c : Controller σ (Recorder τ)} {user : String} {now : Nat}
    (h : (c.identified role uid user now).1 = .offered .published) :
    ∃ m : Message, m.Asks c.desk.current role.source uid.hex user ∧
      (c.identified role uid user now).2.desk.outbox.sent = c.desk.outbox.sent ++ [(m, .taken)] := by
  revert h
  unfold identified
  obtain ⟨passes, seen⟩ := (c.debounce.get role).see uid.hex now
  cases passes with
  | false => intro h; cases h
  | true =>
    intro h
    have hpublished : (c.desk.offer role.source uid.hex user now).1 = .published := Poll.offered.inj h
    obtain ⟨journal, ⟨-, hoffer⟩ | ⟨-, htaken, hoffer⟩ | ⟨-, -, hoffer⟩⟩ :=
      c.desk.offer_cases role.source uid.hex user now
    · rw [hoffer] at hpublished; cases hpublished
    · refine ⟨_, c.desk.accessRequest_asks role.source uid.hex user, ?_⟩
      simp only [hoffer]
      rw [← htaken]
      rfl
    · rw [hoffer] at hpublished; cases hpublished

omit [RegisterBus σ] in
/-- Whatever becomes of a card that was identified, the health of the readers is not touched. -/
theorem health_identified (c : Controller σ τ) (role : Role) (uid : Uid) (user : String) (now : Nat) :
    (c.identified role uid user now).2.health = c.health := by
  unfold identified
  split <;> rfl

omit [RegisterBus σ] [Sink τ] in
/-- A card that went away is remembered. -/
theorem remembers_absent (c : Controller σ τ) (role side : Role) :
    ((c.absent role).debounce.get side).last = (c.debounce.get side).last ∧
      ((c.absent role).debounce.get side).passedAt = (c.debounce.get side).passedAt := by
  unfold absent
  cases role <;> cases side <;> exact ⟨rfl, rfl⟩

/-- **A text that cannot be read never stands in the way of access, and a card that cannot be identified
never asks for it**: for every bus, whatever a controller holds, and for every sink that does not look at
payloads.

* A look that identifies a card ends in the same way, with the same memory of cards, the same gate and the
  same health, as a look before any other bus on which the same card is identified, whatever becomes there
  of its text; and a request that is taken names the card and tells the text, or none if it could not be
  read.
* A look that identifies no card sends nothing, leaves the gate and forgets no card. It is idle if no card
  was there, and then leaves the health alone; else it failed, and the reader is unwell. -/
theorem unreadable_block_harmless {σ τ : Type} [RegisterBus σ] [Sink τ] (hsink : Sink.IgnoresPayloads τ)
    (c : Controller σ (Recorder τ)) (role : Role) (now : Nat) :
    let look := c.scan role now
    (∀ uid, (Operation.identify.perform role c.bus).1 = .ok uid →
      (∀ (σ' : Type) [RegisterBus σ'] (other : σ'), (Operation.identify.perform role other).1 = .ok uid →
        let look' := scan { c with bus := other } role now
        look'.1 = look.1 ∧ look'.2.debounce = look.2.debounce ∧ look'.2.desk.gate = look.2.desk.gate ∧
          look'.2.health = look.2.health) ∧
      (look.1 = .offered .published → ∃ m : Message,
        m.Asks c.desk.current role.source uid.hex (blockText (readOutcome role c.bus uid)) ∧
        look.2.desk.outbox.sent = c.desk.outbox.sent ++ [(m, .taken)])) ∧
    ∀ e, (Operation.identify.perform role c.bus).1 = .error e →
      look.2.desk.outbox = c.desk.outbox ∧ look.2.desk.gate = c.desk.gate ∧
      (∀ side, (look.2.debounce.get side).last = (c.debounce.get side).last ∧
        (look.2.debounce.get side).passedAt = (c.debounce.get side).passedAt) ∧
      (look.1 = .idle ↔ e.isNoCard) ∧
      (e.isNoCard → look.2.health = c.health) ∧
      (¬ e.isNoCard → look.1 = .failed ∧ look.2.health.ok.get role = false) := by
  dsimp only
  refine ⟨fun uid hidentify => ⟨?_, ?_⟩, fun e hidentify => ?_⟩
  · intro σ' _ other hother
    obtain ⟨k, hscan, hdebounce, hhealth, hgate, houtbox, hsettings⟩ := c.scan_identified hidentify now
    obtain ⟨k', hscan', hdebounce', hhealth', hgate', houtbox', hsettings'⟩ :=
      scan_identified { c with bus := other } hother now
    obtain ⟨hpoll, hmemory, hafter⟩ := identified_congr hsink (hdebounce'.trans hdebounce.symm)
      (hgate'.trans hgate.symm) (houtbox'.trans houtbox.symm) (hsettings'.trans hsettings.symm) role uid
      (blockText (readOutcome role c.bus uid)) (blockText (readOutcome role other uid)) now
    rw [hscan, hscan', health_identified, health_identified, hhealth, hhealth']
    exact ⟨hpoll, hmemory, hafter, rfl⟩
  · intro hpublished
    obtain ⟨k, hscan, -, -, -, houtbox, hsettings⟩ := c.scan_identified hidentify now
    rw [hscan] at hpublished ⊢
    obtain ⟨m, hasks, hsent⟩ := asks_of_published hpublished
    rw [Desk.current, hsettings] at hasks
    rw [houtbox] at hsent
    exact ⟨m, hasks, hsent⟩
  · obtain ⟨bus, journal, hscan⟩ := c.scan_unidentified hidentify now
    have hremembers := c.remembers_absent role
    by_cases hnoCard : e.isNoCard = true
    · rw [hscan, if_pos hnoCard]
      exact ⟨rfl, rfl, hremembers, iff_of_true rfl hnoCard, fun _ => rfl, fun h => absurd hnoCard h⟩
    · rw [hscan, if_neg hnoCard]
      exact ⟨rfl, rfl, hremembers, iff_of_false nofun hnoCard, fun h => absurd h hnoCard,
        fun _ => ⟨rfl, Sides.get_set_self ..⟩⟩

/-- A card before the reader at the entry that can be read. -/
def openCard : Controller Field (Recorder Outbox) where
  bus := Field.new.present .entry { uid := ⟨1, 2, 3, 4⟩, blocks := fun _ => UserText.encode "Ana" }
  desk := { settings := ⟨{}, {}⟩, outbox := { inner := {} } }

/-- A card of the same name that accepts no key. -/
def lockedCard : Field :=
  Field.new.present .entry { uid := ⟨1, 2, 3, 4⟩, acceptsA := false, acceptsB := false }

/-- The card that accepts no key asks for access like the one that can be read. -/
theorem unreadable_block_harmless_locked_card :
    Sink.IgnoresPayloads Outbox ∧
    (Operation.identify.perform .entry openCard.bus).1 = .ok ⟨1, 2, 3, 4⟩ ∧
    (Operation.identify.perform .entry lockedCard).1 = .ok ⟨1, 2, 3, 4⟩ ∧
    blockText (readOutcome .entry openCard.bus ⟨1, 2, 3, 4⟩) = "Ana" ∧
    readOutcome .entry lockedCard ⟨1, 2, 3, 4⟩ = .error .authFailed ∧
    (openCard.scan .entry 0).1 = .offered .published ∧
    (scan { openCard with bus := lockedCard } .entry 0).1 = (openCard.scan .entry 0).1 := by
  have hopen : (Operation.identify.perform .entry openCard.bus).1 = .ok ⟨1, 2, 3, 4⟩ := by decide +kernel
  have hlocked : (Operation.identify.perform .entry lockedCard).1 = .ok ⟨1, 2, 3, 4⟩ := by decide +kernel
  have hsame := ((unreadable_block_harmless Outbox.ignoresPayloads openCard .entry 0).1 _ hopen).1
    Field lockedCard hlocked
  exact ⟨Outbox.ignoresPayloads, hopen, hlocked, by decide +kernel, by decide +kernel, by decide +kernel,
    hsame.1⟩

end Controller

end Turnstile

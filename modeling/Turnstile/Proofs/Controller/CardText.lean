import Turnstile.Proofs.Card.UserText
import Turnstile.Proofs.Controller.Lifecycle
import Turnstile.Proofs.Desk.Closed
import Turnstile.Proofs.Json.Written
import Turnstile.Proofs.Simulation.Blocks
import Turnstile.Proofs.Simulation.Sessions

/-!
# Texts on cards, from the job to the request

A job writes a text on the card at the exit; when the card is seen there later, the text is part
of the request for access.

* `SimChip.Shows`: which card is before a chip that nothing is wrong with.
* `Controller.sameExit_scan`: a look at the entry leaves the exit alone.
* `Controller.pollCycle_writes`: a job that is due writes the card at the exit.
* `Controller.showsAtMost_undergoAll`: what is on a card stays, as long as no job writes on it.
* `Controller.pollCycle_asks`: a card that is seen at the exit asks for access, with its text.
* `card_text_end_to_end`: **the text of a job comes out in the request.**
-/

namespace Turnstile

/-- Whether a message asks for access at the exit, for a card and with a text about its user. -/
structure Message.AsksExit (m : Message) (uid : Uid) (user : String) : Prop where
  delivery : m.delivery = .atLeastOnce
  fleeting : m.retain = false
  document : ∃ cardId name turnstile, uid.SpelledBy cardId ∧
    Json.ofBytes (Utf8.encode m.payload) = .ok (.object [("action", .string "getAccessTorn"),
      ("type", .string "OUT"), ("cardId", .string cardId), ("user", .string user),
      ("name", .string name), ("idTorno", .string turnstile)])

/-- **A request for a card at the exit is read as it was meant.** -/
theorem asksExit_request (topic : String) (uid : Uid) (user name turnstile : String) :
    Message.AsksExit ⟨topic, (Report.accessRequest Source.exit.label uid.hex user name turnstile).text,
      .atLeastOnce, false⟩ uid user where
  delivery := rfl
  fleeting := rfl
  document := by
    let r : Report := .accessRequest Source.exit.label uid.hex user name turnstile
    have hfits : Json.Fits (126 + 1) r.toJson := by
      refine .object ?_
      simp only [List.forall_mem_cons]
      simp [Json.Fits.string]
    have hread : Json.ofBytes (Utf8.encode r.text) = .ok r.toJson := (Json.json_written hfits).read
    exact ⟨uid.hex, name, turnstile, uid.spelledBy_hex, hread⟩

/-! ## Cards before a chip -/

/-- A card with a text about its user on it. -/
def SimCard.withText (card : SimCard) (text : String) : SimCard :=
  card.setBlock userBlock (UserText.encode text)

/-- Whether a card accepts the factory key, as key A or as key B. -/
def SimCard.Opens (card : SimCard) : Prop :=
  card.acceptsA = true ∨ card.acceptsB = true

/-- Whether nothing is wrong with a chip, and a certain card is before it, or none. -/
structure SimChip.Shows (c : SimChip) (shown : Option SimCard) : Prop extends c.Sound where
  card_eq : c.card = shown

namespace Operation

open SimChip (Shows)

variable {c : SimChip} {card : SimCard}

theorem runs_identify (h : c.Shows (some card)) :
    ∃ c', Runs identify c (.ok card.uid) c' ∧ c'.encounter = ⟨some card, true⟩ ∧
      c'.Shows (some card) := by
  obtain ⟨c', hruns, hencounter, hsound, -⟩ := mirrors_identify c h.toSound
  have hstep : Encounter.identify c.encounter = (.ok card.uid, ⟨some card, true⟩) := by
    simp only [Encounter.identify, SimChip.encounter, h.card_eq]
  rw [hstep] at hruns hencounter
  exact ⟨c', hruns, hencounter, hsound, congrArg Encounter.card hencounter⟩

theorem runs_identify_none (h : c.Shows none) :
    ∃ c', Runs identify c (.error .noCard) c' ∧ c'.Shows none := by
  obtain ⟨c', hruns, hencounter, hsound, -⟩ := mirrors_identify c h.toSound
  have hstep : Encounter.identify c.encounter = (.error .noCard, c.encounter) := by
    simp only [Encounter.identify, SimChip.encounter, h.card_eq]
  rw [hstep] at hruns hencounter
  exact ⟨c', hruns, hsound, (congrArg Encounter.card hencounter).trans h.card_eq⟩

theorem open?_selected (hcard : card.Opens) : Encounter.open? card.uid ⟨some card, true⟩ = some card := by
  simpa [Encounter.open?, SimCard.Opens] using hcard

/-- **A text is written** on a card that accepts one of the keys. -/
theorem runs_writeText (h : c.Shows (some card)) (hcard : card.Opens) (text : String) :
    ∃ c', Runs (Controller.writeText text) c (.ok card.uid) c' ∧
      c'.Shows (some (card.withText text)) := by
  obtain ⟨c₁, hidentify, hencounter, hshows⟩ := runs_identify h
  have hopen : c₁.encounter.open? card.uid = some card := by rw [hencounter, open?_selected hcard]
  obtain ⟨c', hwrite, hafter, hc'⟩ :=
    runs_writeBlock hshows.toSound hopen userBlock (UserText.length_encode text)
  exact ⟨c', hidentify.bind (hwrite.bind (runs_pure _)), hc'.toSound, congrArg Encounter.card hafter⟩

end Operation

namespace Controller

/-! ## What a look at the entry leaves alone -/

section Frame

variable {τ : Type}

/-- Whether all that belongs to the exit is as it was: the reader there, what it saw last, the jobs
and the settings. -/
structure SameExit (c' c : Controller Field τ) : Prop where
  chip : c'.bus.get .exit = c.bus.get .exit
  seen : c'.debounce.get .exit = c.debounce.get .exit
  jobs : c'.jobs = c.jobs
  settings : c'.desk.settings = c.desk.settings

variable {c c' c'' : Controller Field τ}

theorem SameExit.trans (h' : SameExit c'' c') (h : SameExit c' c) : SameExit c'' c :=
  ⟨h'.chip.trans h.chip, h'.seen.trans h.seen, h'.jobs.trans h.jobs, h'.settings.trans h.settings⟩

variable [Sink τ]

theorem settings_offer (d : Desk τ) (source : Source) (id user : String) (now : Nat) :
    (d.offer source id user now).2.settings = d.settings := by
  obtain ⟨journal, ⟨-, hoffer⟩ | ⟨-, -, hoffer⟩ | ⟨-, -, hoffer⟩⟩ := d.offer_cases source id user now
  · rw [hoffer]
  · rw [hoffer]
  · rw [hoffer]

theorem sameExit_identified (c : Controller Field τ) (uid : Uid) (user : String) (now : Nat) :
    SameExit (c.identified .entry uid user now).2 c := by
  unfold identified
  split
  · exact ⟨rfl, rfl, rfl, rfl⟩
  · exact ⟨rfl, rfl, rfl, settings_offer ..⟩

/-- **A look at the entry leaves the exit alone.** -/
theorem sameExit_scan (c : Controller Field τ) (now : Nat) : SameExit (c.scan .entry now).2 c := by
  obtain ⟨poll, health, journal, -, hscan⟩ | ⟨uid, user, health, journal, hscan⟩ := c.scan_cases .entry now
  · rw [hscan]
    exact ⟨Operation.perform_get_of_ne (by decide), rfl, rfl, rfl⟩
  · rw [hscan]
    refine (sameExit_identified ..).trans ⟨?_, rfl, rfl, rfl⟩
    exact (Operation.perform_get_of_ne (by decide)).trans (Operation.perform_get_of_ne (by decide))

/-- The controller when the entry was looked at, and the exit was not yet. -/
def pastEntry (c : Controller Field τ) (now : Nat) : Controller Field τ :=
  ((c.takeJob now).scan .entry now).2

/-- Then the exit is looked at, and that is the end of the cycle. -/
theorem pollCycle_eq (c : Controller Field τ) (now : Nat) :
    (c.pollCycle now).1.2 = ((c.pastEntry now).pollExit now).1 ∧
      (c.pollCycle now).2 = ((c.pastEntry now).pollExit now).2 := by
  unfold pollCycle pastEntry
  generalize (c.takeJob now).scan .entry now = looked
  exact ⟨rfl, rfl⟩

/-- When the entry was looked at, the job that is due was taken up, and the exit is as it was. -/
theorem sameExit_pastEntry (c : Controller Field τ) (now : Nat) :
    SameExit (c.pastEntry now) { c with jobs := c.jobs.relay now } := by
  obtain ⟨jobs, journal, htake⟩ := c.takeJob_eq now
  have hjobs : jobs = c.jobs.relay now := by rw [← jobs_takeJob, htake]
  have htaken : SameExit (c.takeJob now) { c with jobs := c.jobs.relay now } := by
    rw [htake, hjobs]
    exact ⟨rfl, rfl, rfl, rfl⟩
  exact (sameExit_scan _ now).trans htaken

theorem pending_pastEntry (c : Controller Field τ) (now : Nat) :
    (c.pastEntry now).jobs.pending = c.jobs.due now := by
  rw [(c.sameExit_pastEntry now).jobs]
  exact c.jobs.pending_relay now

theorem shows_pastEntry {shown : Option SimCard} (h : (c.bus.get .exit).Shows shown) (now : Nat) :
    ((c.pastEntry now).bus.get .exit).Shows shown := by
  rw [(c.sameExit_pastEntry now).chip]
  exact h

end Frame

/-! ## A look at the exit -/

section Look

variable {τ : Type} {c : Controller Field τ} {role : Role} {card : SimCard} {now : Nat}

open Operation (Runs)

/-- An operation on a chip changes the chip and the log, and nothing else. -/
theorem perform_of_runs {α : Type} {op : Operation α} {r : Except CardError α} {chip : SimChip}
    (h : Runs op (c.bus.get role) r chip) :
    ∃ journal, c.perform role op =
      (r, { c with bus := c.bus.set role chip, desk := { c.desk with journal } }) := by
  obtain ⟨hr, hchip⟩ := h role
  unfold perform
  rw [Operation.perform_field, hr, hchip]
  exact ⟨_, rfl⟩

theorem readUser_of_runs {uid : Uid} {block : Bytes} {chip : SimChip}
    (h : Runs (Operation.readBlock userBlock uid) (c.bus.get role) (.ok block) chip) :
    ∃ journal, c.readUser role uid = (UserText.decode block,
      { c with bus := c.bus.set role chip, desk := { c.desk with journal } }) := by
  obtain ⟨journal, hperform⟩ := perform_of_runs h
  unfold readUser
  rw [hperform]
  exact ⟨journal, rfl⟩

variable [Sink τ]

/-- **A card that is before a reader is identified and read.** -/
theorem scan_of_card (h : (c.bus.get role).Shows (some card)) (hcard : card.Opens) (now : Nat) :
    ∃ bus journal, (bus.get role).Shows (some card) ∧ c.scan role now =
      (({ c with bus, desk := { c.desk with journal } } : Controller Field τ).record role true).identified
        role card.uid (UserText.decode (card.blocks userBlock)) now := by
  obtain ⟨c₁, hidentify, hencounter, hshows⟩ := Operation.runs_identify h
  have hopen : c₁.encounter.open? card.uid = some card := by
    rw [hencounter, Operation.open?_selected hcard]
  obtain ⟨c₂, hread, hafter, hc₂⟩ := Operation.runs_readBlock hshows.toSound hopen userBlock
  have hshown : c₂.Shows (some card) :=
    ⟨hc₂.toSound, (congrArg Encounter.card hafter).trans hshows.card_eq⟩
  obtain ⟨first, hfirst⟩ := perform_of_runs hidentify
  let d : Controller Field τ :=
    { c with bus := c.bus.set role c₁, desk := { c.desk with journal := first } }
  have hchip : d.bus.get role = c₁ := Sides.get_set_self ..
  rw [← hchip] at hread
  obtain ⟨journal, huser⟩ := readUser_of_runs hread
  refine ⟨d.bus.set role c₂, journal, ?_, ?_⟩
  · rwa [Sides.get_set_self]
  · unfold scan
    rw [hfirst]
    dsimp only
    rw [huser]

theorem scan_of_none (h : (c.bus.get role).Shows none) (now : Nat) :
    ((c.scan role now).2.bus.get role).Shows none := by
  obtain ⟨chip, hidentify, hshows⟩ := Operation.runs_identify_none h
  obtain ⟨journal, hperform⟩ := perform_of_runs hidentify
  unfold scan
  rw [hperform]
  exact (Sides.get_set_self c.bus role chip).symm ▸ hshows

omit [Sink τ] in
/-- **A card at the exit is written.** -/
theorem tryWrite_of_card (h : (c.bus.get .exit).Shows (some card)) (hcard : card.Opens) (text : String) :
    ∃ d, c.tryWrite text = (some card.uid, d) ∧ (d.bus.get .exit).Shows (some (card.withText text)) ∧
      d.jobs = c.jobs := by
  obtain ⟨chip, hwrite, hshows⟩ := Operation.runs_writeText h hcard text
  obtain ⟨journal, hperform⟩ := perform_of_runs hwrite
  unfold tryWrite
  rw [hperform]
  exact ⟨_, rfl, (Sides.get_set_self c.bus .exit chip).symm ▸ hshows, rfl⟩

omit [Sink τ] in
theorem tryWrite_of_none (h : (c.bus.get .exit).Shows none) (text : String) :
    ((c.tryWrite text).2.bus.get .exit).Shows none := by
  obtain ⟨chip, hidentify, hshows⟩ := Operation.runs_identify_none h
  have hwrite : Runs (writeText text) (c.bus.get .exit) (.error .noCard) chip := hidentify.fail
  obtain ⟨journal, hperform⟩ := perform_of_runs hwrite
  unfold tryWrite
  rw [hperform]
  exact (Sides.get_set_self c.bus .exit chip).symm ▸ hshows

end Look

section Course

variable {τ : Type} [Sink τ] {c : Controller Field τ} {card : SimCard} {job : WriteJob} {now : Nat}

/-! ## What is written stays -/

/-- **A job that is due writes the card** at the exit, and is answered with it. -/
theorem pollCycle_writes (h : (c.bus.get .exit).Shows (some card)) (hcard : card.Opens)
    (hjob : c.jobs.due now = some job) :
    (c.pollCycle now).2.jobs.answer? job.ticket = some (some card.uid) ∧
      ((c.pollCycle now).2.bus.get .exit).Shows (some (card.withText job.text)) := by
  have hpending : (c.pastEntry now).jobs.pending = some job := (c.pending_pastEntry now).trans hjob
  obtain ⟨d, hwrite, hshows, hjobs⟩ := tryWrite_of_card (shows_pastEntry h now) hcard job.text
  have hexit : (c.pastEntry now).pollExit now =
      (.writing, { d with jobs := d.jobs.finish (some card.uid) }) := by
    unfold pollExit
    rw [hpending]
    dsimp only
    rw [hwrite]
  rw [(c.pollCycle_eq now).2, hexit]
  exact ⟨JobBook.answer?_finish (hjobs ▸ hpending) _, hshows⟩

/-- Whether a card is at the exit, or none is, and nothing is wrong there. -/
def ShowsAtMost (c : Controller Field τ) (card : SimCard) : Prop :=
  (c.bus.get .exit).Shows none ∨ (c.bus.get .exit).Shows (some card)

/-- Whether a turn of events leaves a card as it is: no job is due while it is at the exit, and
whatever changes, nothing goes wrong there and no other card comes. -/
def Spares (card : SimCard) (c : Controller Field τ) : Turn Field τ → Prop
  | .poll now => c.jobs.due now = none ∨ (c.bus.get .exit).card = none
  | .meanwhile change => (change c).ShowsAtMost card
  | .submit .. => True
  | .rest _ => True

/-- Whether a course of events leaves a card as it is. -/
def SparesAll (card : SimCard) : Controller Field τ → List (Turn Field τ) → Prop
  | _, [] => True
  | c, turn :: turns => c.Spares card turn ∧ SparesAll card (c.undergo turn) turns

theorem pollExit_none (h : (c.bus.get .exit).Shows none) (now : Nat) :
    ((c.pollExit now).2.bus.get .exit).Shows none := by
  unfold pollExit
  split
  · exact scan_of_none h now
  · next job _ =>
    have hwrite := tryWrite_of_none h job.text
    split
    · next heq => rwa [heq] at hwrite
    · next heq => rwa [heq] at hwrite

theorem pollExit_some (h : (c.bus.get .exit).Shows (some card)) (hcard : card.Opens)
    (hpending : c.jobs.pending = none) (now : Nat) :
    ((c.pollExit now).2.bus.get .exit).Shows (some card) := by
  obtain ⟨bus, journal, hshows, hscan⟩ := scan_of_card h hcard now
  unfold pollExit
  rw [hpending]
  dsimp only
  rw [hscan, bus_identified]
  exact hshows

/-- A turn of events that leaves a card as it is does so. -/
theorem showsAtMost_undergo (h : c.ShowsAtMost card) (hcard : card.Opens) {turn : Turn Field τ}
    (hturn : c.Spares card turn) : (c.undergo turn).ShowsAtMost card := by
  cases turn with
  | submit text deadline => exact h
  | rest now =>
    unfold ShowsAtMost
    rw [undergo, bus_takeJob]
    exact h
  | meanwhile change => exact hturn
  | poll now =>
    unfold ShowsAtMost
    rw [undergo, (c.pollCycle_eq now).2]
    obtain hnone | hsome := h
    · exact .inl (pollExit_none (shows_pastEntry hnone now) now)
    · -- the card is there, so the turn spares it by having no job for it
      have hdue : c.jobs.due now = none := by
        refine hturn.resolve_right fun hgone => ?_
        rw [hsome.card_eq] at hgone
        cases hgone
      have hpending : (c.pastEntry now).jobs.pending = none := (c.pending_pastEntry now).trans hdue
      exact .inr (pollExit_some (shows_pastEntry hsome now) hcard hpending now)

/-- **What is on a card stays**, as long as no job writes on it. -/
theorem showsAtMost_undergoAll (h : c.ShowsAtMost card) (hcard : card.Opens) {turns : List (Turn Field τ)}
    (hturns : c.SparesAll card turns) : (c.undergoAll turns).ShowsAtMost card := by
  induction turns generalizing c with
  | nil => exact h
  | cons turn turns ih => exact ih (showsAtMost_undergo h hcard hturns.1) hturns.2

/-! ## What is on a card is asked for -/

/-- Whether the reader at the exit may ask for access for a card: no job is due, the card was not
seen a moment ago, and the gate is free when the entry was looked at. -/
structure MayAsk (c : Controller Field τ) (uid : Uid) (now : Nat) : Prop where
  due : c.jobs.due now = none
  seen : (c.debounce.get .exit).holdsBack uid.hex now = false
  gate : (c.pastEntry now).desk.gate.stands now = false

/-- A request is sent if the gate is free and the message is taken. -/
theorem offer_published {d : Desk τ} {m : Message} {outbox : τ} (source : Source) (id user : String)
    (hgate : d.gate.stands now = false)
    (hm : m = ⟨d.current.responseTopic,
      (Report.accessRequest source.label id user d.current.deviceId d.current.turnstileId).text,
      .atLeastOnce, false⟩)
    (hsend : Sink.send d.outbox m = (.taken, outbox)) :
    (d.offer source id user now).1 = .published ∧ (d.offer source id user now).2.outbox = outbox := by
  have hsent : Sink.send d.outbox (d.accessRequest source id user) = (.taken, outbox) := by
    rw [hm] at hsend
    exact hsend
  obtain ⟨journal, ⟨hstands, -⟩ | ⟨-, -, hoffer⟩ | ⟨-, hrefused, -⟩⟩ := d.offer_cases source id user now
  · rw [hgate] at hstands
    cases hstands
  · rw [hoffer]
    exact ⟨rfl, congrArg Prod.snd hsent⟩
  · exact absurd (congrArg Prod.fst hsent) hrefused

theorem identified_published {role : Role} {uid : Uid} {user : String} {m : Message} {outbox : τ}
    (hseen : (c.debounce.get role).holdsBack uid.hex now = false)
    (hgate : c.desk.gate.stands now = false)
    (hm : m = ⟨c.desk.current.responseTopic, (Report.accessRequest role.source.label uid.hex user
      c.desk.current.deviceId c.desk.current.turnstileId).text, .atLeastOnce, false⟩)
    (hsend : Sink.send c.desk.outbox m = (.taken, outbox)) :
    (c.identified role uid user now).1 = .offered .published ∧
      (c.identified role uid user now).2.desk.outbox = outbox := by
  obtain ⟨hoffer, houtbox⟩ := offer_published role.source uid.hex user hgate hm hsend
  unfold identified Debounce.see
  rw [hseen]
  exact ⟨congrArg Poll.offered hoffer, houtbox⟩

/-- **A card that is seen at the exit asks for access**, with the text that is on it, if it may. -/
theorem pollCycle_asks (h : (c.bus.get .exit).Shows (some card)) (hcard : card.Opens)
    (hmay : c.MayAsk card.uid now) :
    ∃ m : Message, m.topic = c.desk.current.responseTopic ∧
      m.AsksExit card.uid (UserText.decode (card.blocks userBlock)) ∧
      ∀ outbox, Sink.send (c.pastEntry now).desk.outbox m = (.taken, outbox) →
        (c.pollCycle now).1.2 = .offered .published ∧ (c.pollCycle now).2.desk.outbox = outbox := by
  let d := c.pastEntry now
  have hsame : SameExit d _ := c.sameExit_pastEntry now
  have hpending : d.jobs.pending = none := (c.pending_pastEntry now).trans hmay.due
  have hseen : (d.debounce.get .exit).holdsBack card.uid.hex now = false := by
    rw [hsame.seen]
    exact hmay.seen
  have hsettings : d.desk.current = c.desk.current := congrArg SettingsStore.current hsame.settings
  obtain ⟨bus, journal, -, hscan⟩ := scan_of_card (shows_pastEntry h now) hcard now
  have hexit : d.pollExit now = d.scan .exit now := by
    unfold pollExit
    rw [hpending]
  have hasks := asksExit_request d.desk.current.responseTopic card.uid
    (UserText.decode (card.blocks userBlock)) d.desk.current.deviceId d.desk.current.turnstileId
  refine ⟨_, ?_, hasks, fun outbox hsend => ?_⟩
  · exact congrArg Settings.responseTopic hsettings
  · rw [(c.pollCycle_eq now).1, (c.pollCycle_eq now).2, hexit, hscan]
    exact identified_published hseen hmay.gate rfl hsend

end Course

end Controller

/-- What is read of the text that was written on a card. -/
theorem decode_withText (card : SimCard) {text : String} (h : UserText.FitsCard text) :
    UserText.decode ((card.withText text).blocks userBlock) = text := by
  rw [SimCard.withText, SimCard.blocks_setBlock, if_pos rfl]
  exact UserText.decode_encode h

/-- **The text of a job comes out in the request.** Let a card that accepts one of the keys be at
the exit, whatever is on it, and nothing be wrong there. If a job is due in a look at the readers
and a card can hold its text, the job is answered with the card. After any course of events that
leaves the card as it is, nothing but this card is at the exit; and whenever it is there and the
reader may ask, it sends a request of type `OUT` that names the card in eight hexadecimal digits
and the user by the very text of the job, and that is published if it is taken. -/
theorem card_text_end_to_end {τ : Type} [Sink τ] {c : Controller Field τ} {card : SimCard}
    {job : WriteJob} {now : Nat} (hshown : (c.bus.get .exit).Shows (some card)) (hcard : card.Opens)
    (hjob : c.jobs.due now = some job) (htext : UserText.FitsCard job.text) :
    let written := (c.pollCycle now).2
    written.jobs.answer? job.ticket = some (some card.uid) ∧
      ∀ turns,
        let later := written.undergoAll turns
        (written.SparesAll (card.withText job.text) turns →
          later.ShowsAtMost (card.withText job.text)) ∧
        ∀ time, (later.bus.get .exit).Shows (some (card.withText job.text)) →
          later.MayAsk card.uid time →
          ∃ m : Message, m.topic = later.desk.current.responseTopic ∧ m.AsksExit card.uid job.text ∧
            ∀ outbox, Sink.send (later.pastEntry time).desk.outbox m = (.taken, outbox) →
              (later.pollCycle time).1.2 = .offered .published ∧
                (later.pollCycle time).2.desk.outbox = outbox := by
  intro written
  have hopens : (card.withText job.text).Opens := hcard
  obtain ⟨hanswer, hshows⟩ := Controller.pollCycle_writes hshown hcard hjob
  refine ⟨hanswer, fun turns => ⟨fun hturns => ?_, fun time hthere hmay => ?_⟩⟩
  · exact Controller.showsAtMost_undergoAll (.inr hshows) hopens hturns
  · have hasks := Controller.pollCycle_asks hthere hopens hmay
    rwa [decode_withText card htext] at hasks

/-- A card that accepts key B only, with something else on it. -/
def usedCard : SimCard where
  uid := ⟨0xDE, 0xAD, 0xBE, 0xEF⟩
  acceptsA := false
  blocks := fun _ => List.replicate blockSize 0x41

/-- The card is at the exit, where an exchange was broken off within a session, and a job waits. -/
def jobWaiting : Controller Field Outbox where
  bus := Field.new.set .exit {
    regs := Registers.powerOn.set Reg.status2 0x08
    fifo := [0x30, 0x08]
    card := some usedCard }
  desk := { settings := ⟨{}, {}⟩, outbox := {} }
  jobs := JobBook.submit {} "Zoë" 7000000

/-- The card is taken away, and put back after a while. -/
def cardReturns : List (Turn Field Outbox) :=
  [.meanwhile fun c => { c with bus := c.bus.remove .exit }, .poll 500000,
    .meanwhile fun c => { c with bus := c.bus.present .exit (usedCard.withText "Zoë") }]

theorem card_text_end_to_end_returned :
    (jobWaiting.bus.get .exit).Shows (some usedCard) ∧ usedCard.Opens ∧
      jobWaiting.jobs.due 0 = some ⟨0, "Zoë", 7000000⟩ ∧ UserText.FitsCard "Zoë" ∧
      let written := (jobWaiting.pollCycle 0).2
      let later := written.undergoAll cardReturns
      written.jobs.answer? 0 = some (some usedCard.uid) ∧
        written.SparesAll (usedCard.withText "Zoë") cardReturns ∧ later.MayAsk usedCard.uid 2000000 ∧
        ∃ m : Message, m.AsksExit usedCard.uid "Zoë" ∧
          (later.pollCycle 2000000).1.2 = .offered .published ∧
          (later.pollCycle 2000000).2.desk.outbox = { waiting := [m] } := by
  have hshown : (jobWaiting.bus.get .exit).Shows (some usedCard) :=
    ⟨⟨rfl, rfl, rfl, fun card hcard block => by cases hcard; rfl⟩, rfl⟩
  have hcard : usedCard.Opens := .inr rfl
  have hjob : jobWaiting.jobs.due 0 = some ⟨0, "Zoë", 7000000⟩ := by decide
  have htext : UserText.FitsCard "Zoë" :=
    ⟨by decide +kernel, by decide +kernel, by simp [UserText.isPadding], by simp [UserText.isPadding]⟩
  obtain ⟨hanswer, hcourse⟩ := card_text_end_to_end hshown hcard hjob htext
  obtain ⟨hleft, hasks⟩ := hcourse cardReturns
  have hwritten : (usedCard.withText "Zoë").WellFormed :=
    Operation.wellFormed_setBlock (fun _ => rfl) userBlock (UserText.length_encode "Zoë")
  have hspares : (jobWaiting.pollCycle 0).2.SparesAll (usedCard.withText "Zoë") cardReturns := by
    refine ⟨.inl ⟨⟨by decide +kernel, by decide +kernel, by decide +kernel, ?_⟩, rfl⟩, .inr rfl,
      .inr ⟨⟨by decide +kernel, by decide +kernel, by decide +kernel, ?_⟩, rfl⟩, trivial⟩
    · intro card hgone
      cases hgone
    · intro card hback
      cases hback
      exact hwritten
  have hthere : (((jobWaiting.pollCycle 0).2.undergoAll cardReturns).bus.get .exit).card =
      some (usedCard.withText "Zoë") := rfl
  have hshows := (hleft hspares).resolve_left fun hnone => by
    have hgone := hnone.card_eq
    rw [hthere] at hgone
    cases hgone
  have hmay : ((jobWaiting.pollCycle 0).2.undergoAll cardReturns).MayAsk usedCard.uid 2000000 :=
    ⟨by decide +kernel, by decide +kernel, by decide +kernel⟩
  have houtbox : (((jobWaiting.pollCycle 0).2.undergoAll cardReturns).pastEntry 2000000).desk.outbox = {} := by
    decide +kernel
  obtain ⟨m, -, hm, hsent⟩ := hasks 2000000 hshows hmay
  rw [houtbox] at hsent
  exact ⟨hshown, hcard, hjob, htext, hanswer, hspares, hmay, m, hm, hsent _ rfl⟩

end Turnstile

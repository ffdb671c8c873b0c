import Turnstile.Proofs.Controller.Flight
import Turnstile.Proofs.Controller.Repeats

/-!
# What becomes of the codes of one feed

Octets come from the scanner and may complete any number of codes. Each of them is answered on its own,
in order, but all of them at one time, with one link, and at the desk that the ones before it left behind.

* `Sends`: what a code sends to the sink, by what became of it.
* `scanned_cases`: **all that a code can come to.**
* `Told`: what one code changes, and what it leaves alone.
* `sends_scannedAll`: the codes of a feed send their requests one after another.
* `length_published_le`: of the codes of a feed one is published at most, since the gate stands for the
  others.
* `scanner_feed`: parser and debounce do not depend on the link, the gate or the sink.
* `feed_accounts`: **the outcomes account for everything that a feed does.**
-/

namespace Turnstile

/-- What a code sends to the sink, with the message that asks for access, by what became of it. -/
inductive ScanOutcome.Sends (request : Message) : ScanOutcome → List (Message × Verdict) → Prop
  | published : Sends request (.offered .published) [(request, .taken)]
  | queueFull {verdict : Verdict} (h : verdict ≠ .taken) :
    Sends request (.offered .queueFull) [(request, verdict)]
  | gateBusy : Sends request (.offered .gateBusy) []
  | suppressed : Sends request .suppressed []
  | offline : Sends request .offline []

/-- The messages that a sink took, oldest first. -/
def Recorder.taken {τ : Type} (r : Recorder τ) : List Message :=
  (r.sent.filter (·.2 = .taken)).map Prod.fst

/-- The codes whose requests were published. -/
def published (outcomes : List (String × ScanOutcome)) : List String :=
  (outcomes.filter (·.2 = .offered .published)).map Prod.fst

/-- The message that asks for access with a code. -/
def Desk.codeRequest {τ : Type} (d : Desk τ) (code : String) : Message :=
  d.accessRequest .code code ""

/-- The request of a code that is sent is taken if and only if the code was published. -/
theorem ScanOutcome.Sends.taken_eq {request : Message} {outcome : ScanOutcome}
    {part : List (Message × Verdict)} (h : Sends request outcome part) :
    (part.filter (·.2 = .taken)).map Prod.fst = if outcome = .offered .published then [request] else [] := by
  cases h with
  | published => rfl
  | queueFull hrefused => simp [hrefused]
  | gateBusy | suppressed | offline => rfl

namespace Controller

variable {σ τ : Type} [Sink τ]

/-! ## One code -/

/-- **All that a code can come to**: it is suppressed; or the link is down; or it asks for access. -/
theorem scanned_cases (c : Controller σ τ) (code : String) (now : Nat) : ∃ debounce journal,
    c.scanned code now = (.suppressed, { c with desk := { c.desk with journal } }) ∨
    (c.link.isReady = false ∧ c.scanned code now =
      (.offline, { c with
        scanner := { c.scanner with debounce }, desk := { c.desk with journal } })) ∨
    (c.link.isReady = true ∧ c.scanned code now =
      (.offered (Desk.offer { c.desk with journal } .code code "" now).1, { c with
        scanner := { c.scanner with debounce }
        desk := (Desk.offer { c.desk with journal } .code code "" now).2 })) := by
  unfold scanned
  dsimp only
  split
  · exact ⟨c.scanner.debounce, _, .inl rfl⟩
  · next debounce _ =>
    refine ⟨debounce, ?_⟩
    unfold offerCode
    cases hready : c.link.isReady with
    | false =>
      have hlink : (c.note .info s!"QR detected: '{code}'").link.isReady = false := hready
      rw [if_neg (by simp [hlink])]
      exact ⟨_, .inr (.inl ⟨rfl, rfl⟩)⟩
    | true =>
      have hlink : (c.note .info s!"QR detected: '{code}'").link.isReady = true := hready
      rw [if_pos hlink]
      exact ⟨_, .inr (.inr ⟨rfl, rfl⟩)⟩

end Controller

/-- What a code that became something changes at the desk, and what it leaves alone. -/
structure Desk.Told {τ : Type} (before : Desk (Recorder τ)) (code : String) (outcome : ScanOutcome)
    (after : Desk (Recorder τ)) : Prop where
  settings : after.settings = before.settings
  sends : ∃ part, outcome.Sends (before.codeRequest code) part ∧
    after.outbox.sent = before.outbox.sent ++ part

theorem Desk.told_offer {τ : Type} [Sink τ] (d : Desk (Recorder τ)) (code : String) (now : Nat) :
    d.Told code (.offered (d.offer .code code "" now).1) (d.offer .code code "" now).2 := by
  obtain ⟨journal, ⟨-, hoffer⟩ | ⟨-, htaken, hoffer⟩ | ⟨-, hrefused, hoffer⟩⟩ :=
    d.offer_cases .code code "" now
  · rw [hoffer]
    exact ⟨rfl, [], .gateBusy, (List.append_nil _).symm⟩
  · rw [hoffer]
    refine ⟨rfl, _, .published, ?_⟩
    rw [← htaken]
    rfl
  · rw [hoffer]
    exact ⟨rfl, _, .queueFull hrefused, rfl⟩

/-- A request tells the settings in force, and nothing else of the desk. -/
theorem Desk.codeRequest_congr {τ : Type} {d e : Desk τ} (h : d.settings = e.settings) :
    d.codeRequest = e.codeRequest := by
  have hcurrent : d.current = e.current := congrArg SettingsStore.current h
  funext code
  rw [codeRequest, codeRequest, accessRequest, accessRequest, hcurrent]

namespace Controller

variable {σ τ : Type} [Sink τ] (c : Controller σ (Recorder τ))

theorem told_scanned (code : String) (now : Nat) :
    c.desk.Told code (c.scanned code now).1 (c.scanned code now).2.desk := by
  obtain ⟨debounce, journal, hscanned | ⟨-, hscanned⟩ | ⟨-, hscanned⟩⟩ := c.scanned_cases code now
  · rw [hscanned]
    exact ⟨rfl, [], .suppressed, (List.append_nil _).symm⟩
  · rw [hscanned]
    exact ⟨rfl, [], .offline, (List.append_nil _).symm⟩
  · rw [hscanned]
    have htold := Desk.told_offer { c.desk with journal } code now
    exact ⟨htold.settings, htold.sends⟩

/-- A code leaves the link alone. -/
theorem link_scanned (code : String) (now : Nat) : (c.scanned code now).2.link = c.link := by
  obtain ⟨debounce, journal, hscanned | ⟨-, hscanned⟩ | ⟨-, hscanned⟩⟩ := c.scanned_cases code now
  · rw [hscanned]
  · rw [hscanned]
  · rw [hscanned]

/-- A code is offered only if the link is up, and held back only if it is down. -/
theorem outcome_scanned (code : String) (now : Nat) :
    (c.link.isReady = true → (c.scanned code now).1 ≠ .offline) ∧
      (c.link.isReady = false → (c.scanned code now).1 = .suppressed ∨ (c.scanned code now).1 = .offline) := by
  obtain ⟨debounce, journal, hscanned | ⟨hdown, hscanned⟩ | ⟨hup, hscanned⟩⟩ := c.scanned_cases code now
  · rw [hscanned]
    exact ⟨fun _ => nofun, fun _ => .inl rfl⟩
  · rw [hscanned]
    exact ⟨fun hup => absurd (hup.symm.trans hdown) (by decide), fun _ => .inr rfl⟩
  · rw [hscanned]
    exact ⟨fun _ => nofun, fun hdown => absurd (hup.symm.trans hdown) (by decide)⟩

/-- While the link is down a code touches neither the gate nor the sink. -/
theorem desk_scanned_of_down (h : c.link.isReady = false) (code : String) (now : Nat) :
    (c.scanned code now).2.desk.gate = c.desk.gate ∧ (c.scanned code now).2.desk.outbox = c.desk.outbox := by
  obtain ⟨debounce, journal, hscanned | ⟨-, hscanned⟩ | ⟨hup, -⟩⟩ := c.scanned_cases code now
  · rw [hscanned]
    exact ⟨rfl, rfl⟩
  · rw [hscanned]
    exact ⟨rfl, rfl⟩
  · rw [h] at hup
    cases hup

/-! ## All codes of a feed -/

/-- **The codes of a feed send their requests one after another**: each its own, if it was offered, and
under the settings that are in force all the while. -/
theorem sends_scannedAll (now : Nat) (codes : List (String × List Entry)) :
    ∀ c : Controller σ (Recorder τ), ∃ parts,
      List.Forall₂ (fun outcome => outcome.2.Sends (c.desk.codeRequest outcome.1))
        (scannedAll now codes c).1 parts ∧
      (scannedAll now codes c).2.desk.outbox.sent = c.desk.outbox.sent ++ parts.flatten := by
  induction codes with
  | nil => exact fun c => ⟨[], .nil, (List.append_nil _).symm⟩
  | cons code codes ih =>
    intro c
    obtain ⟨hsettings, part, hpart, hsent⟩ := (c.log code.2).told_scanned code.1 now
    obtain ⟨parts, hparts, hmore⟩ := ih ((c.log code.2).scanned code.1 now).2
    have hrequest : ((c.log code.2).scanned code.1 now).2.desk.codeRequest = c.desk.codeRequest :=
      Desk.codeRequest_congr hsettings
    rw [hrequest] at hparts
    rw [scannedAll_cons]
    refine ⟨part :: parts, .cons hpart hparts, ?_⟩
    rw [hmore, hsent, List.flatten_cons, List.append_assoc]
    rfl

/-- What the link makes of the codes of a feed. -/
theorem outcomes_scannedAll (now : Nat) (codes : List (String × List Entry)) :
    ∀ c : Controller σ (Recorder τ),
      (c.link.isReady = true → ∀ outcome ∈ (scannedAll now codes c).1, outcome.2 ≠ .offline) ∧
      (c.link.isReady = false →
        (∀ outcome ∈ (scannedAll now codes c).1, outcome.2 = .suppressed ∨ outcome.2 = .offline) ∧
        (scannedAll now codes c).2.desk.gate = c.desk.gate ∧
        (scannedAll now codes c).2.desk.outbox = c.desk.outbox) := by
  induction codes with
  | nil => exact fun c => ⟨fun _ => nofun, fun _ => ⟨nofun, rfl, rfl⟩⟩
  | cons code codes ih =>
    intro c
    obtain ⟨hup, hdown⟩ := (c.log code.2).outcome_scanned code.1 now
    obtain ⟨ihup, ihdown⟩ := ih ((c.log code.2).scanned code.1 now).2
    rw [link_scanned] at ihup ihdown
    rw [scannedAll_cons]
    refine ⟨fun h => List.forall_mem_cons.2 ⟨hup h, ihup h⟩, fun h => ?_⟩
    obtain ⟨houtcomes, hgate, houtbox⟩ := ihdown h
    obtain ⟨hgate₁, houtbox₁⟩ := (c.log code.2).desk_scanned_of_down h code.1 now
    exact ⟨List.forall_mem_cons.2 ⟨hdown h, houtcomes⟩, hgate.trans hgate₁, houtbox.trans houtbox₁⟩

end Controller

/-! ## One request for a feed -/

theorem published_cons (outcome : String × ScanOutcome) (outcomes : List (String × ScanOutcome)) :
    published (outcome :: outcomes) =
      (if outcome.2 = .offered .published then [outcome.1] else []) ++ published outcomes := by
  by_cases h : outcome.2 = .offered .published <;> simp [published, h]

theorem Recorder.taken_append {τ : Type} {before after : Recorder τ} {part : List (Message × Verdict)}
    (h : after.sent = before.sent ++ part) :
    after.taken = before.taken ++ (part.filter (·.2 = .taken)).map Prod.fst := by
  rw [Recorder.taken, h, List.filter_append, List.map_append]
  rfl

/-- The requests that were taken are those of the codes that were published. -/
theorem taken_flatten (request : String → Message) {outcomes : List (String × ScanOutcome)}
    {parts : List (List (Message × Verdict))}
    (h : List.Forall₂ (fun outcome => outcome.2.Sends (request outcome.1)) outcomes parts) :
    (parts.flatten.filter (·.2 = .taken)).map Prod.fst = (published outcomes).map request := by
  induction h with
  | nil => rfl
  | @cons outcome part outcomes parts hpart _ ih =>
    rw [List.flatten_cons, List.filter_append, List.map_append, hpart.taken_eq, ih, published_cons,
      List.map_append]
    congr 1
    split <;> rfl

namespace Desk

/-- A gate that stands at a time stays as it is, whoever asks at that time. -/
theorem Step.stands {u v : Ledger} {now : Nat} {offer : Offer} (h : Step u (.asked now offer) v)
    (hstands : u.gate.stands now = true) : offer ≠ .published ∧ v.gate.stands now = true := by
  cases h with
  | gateBusy => exact ⟨nofun, hstands⟩
  | published hfree => rw [hstands] at hfree; cases hfree
  | queueFull hfree => rw [hstands] at hfree; cases hfree

/-- Whose request is published holds the gate from that time on. -/
theorem Step.held {u v : Ledger} {now : Nat} (h : Step u (.asked now .published) v) :
    v.gate.stands now = true := by
  cases h with
  | published hfree hm => simp [Gate.stands]

end Desk

/-- **Of the codes of a feed one is published at most**, and none if the gate stands: by induction on
the codes, with the gate that the ones before left behind. -/
theorem length_published_le {now : Nat} (outcomes : List (String × ScanOutcome)) :
    ∀ {u w : Desk.Ledger}, Desk.Steps u (outcomes.flatMap (asking now ·.2.offer?)) w →
      (published outcomes).length ≤ 1 ∧
      (u.gate.stands now = true → published outcomes = []) := by
  induction outcomes with
  | nil => exact fun _ => ⟨Nat.zero_le _, fun _ => rfl⟩
  | cons outcome outcomes ih =>
    obtain ⟨code, outcome⟩ := outcome
    intro u w h
    rw [published_cons]
    cases outcome with
    | suppressed => exact ih h
    | offline => exact ih h
    | offered offer =>
      -- the code asked, and the others find the gate as it is then
      obtain ⟨v, hfirst, hmore⟩ : ∃ v, Desk.Step u (.asked now offer) v ∧
          Desk.Steps v (outcomes.flatMap (asking now ·.2.offer?)) w := by
        rw [List.flatMap_cons] at h
        cases h with
        | cons hstep h => exact ⟨_, hstep, h⟩
      obtain ⟨hone, hnone⟩ := ih hmore
      by_cases hpublished : offer = .published
      · subst hpublished
        have hothers := hnone hfirst.held
        refine ⟨by simp [hothers], fun hstands => ?_⟩
        exact absurd rfl (hfirst.stands hstands).1
      · have hother : ¬ ScanOutcome.offered offer = .offered .published := by simpa using hpublished
        rw [if_neg hother, List.nil_append]
        exact ⟨hone, fun hstands => hnone (hfirst.stands hstands).2⟩

namespace Controller

variable {σ τ σ' τ' : Type} [Sink τ] [Sink τ']

/-- **Parser and debounce do not depend on the rest of the controller**: on its link, its gate or its
sink. -/
theorem scanner_feed {c : Controller σ τ} {d : Controller σ' τ'} (h : d.scanner = c.scanner) (bs : Bytes)
    (now : Nat) : (d.feed bs now).2.scanner = (c.feed bs now).2.scanner := by
  have hbuffer : (d.feed bs now).2.scanner.buffer = (c.feed bs now).2.scanner.buffer := by
    rw [buffer_feed, buffer_feed, h]
  have hdebounce : (d.feed bs now).2.scanner.debounce = (c.feed bs now).2.scanner.debounce := by
    have hd := congrArg Prod.snd (d.run_feed bs now)
    have hc := congrArg Prod.snd (c.run_feed bs now)
    rw [h] at hd
    exact hd.symm.trans hc
  exact congrArg₂ Scanner.mk hbuffer hdebounce

/-- What a feed does at the desk is what its codes do there. -/
theorem desk_feed (c : Controller σ τ) (bs : Bytes) (now : Nat) : ∃ codes,
    ∃ start : Controller σ τ, start.link = c.link ∧ start.desk.settings = c.desk.settings ∧
      start.desk.gate = c.desk.gate ∧ start.desk.outbox = c.desk.outbox ∧
      (c.feed bs now).1 = (scannedAll now codes start).1 ∧
      (c.feed bs now).2.desk.gate = (scannedAll now codes start).2.desk.gate ∧
      (c.feed bs now).2.desk.outbox = (scannedAll now codes start).2.desk.outbox := by
  unfold feed
  dsimp only
  generalize (c.scanner.buffer.push bs).1.codes = found
  obtain ⟨codes, rest, last⟩ := found
  exact ⟨codes, { c.log (Serial.received "QR RX:" bs ++ (c.scanner.buffer.push bs).2) with
    scanner := { c.scanner with buffer := rest } }, rfl, rfl, rfl, rfl, rfl, rfl, rfl⟩

end Controller

open Controller in
/-- **The outcomes of a feed account for everything that it does**, whatever the scanner, the link, the
gate and the sink were before.

* They list the payloads that the buffer yields after the octets were added, in order; and which of them
  are suppressed, and what the debounce and the buffer are then, is what the debounce makes of these
  payloads, one after another.
* At the desk nothing happens but that the codes that were offered ask for access, in order. Each of them
  sends its own request, unless the gate is busy, so the messages that the sink took are the requests of
  the codes that were published; and of these there is one at most.
* While the link is up no code is held back for it. While it is not, none is offered, nothing reaches the
  sink, and the gate stays as it was. Buffer and debounce end in the same state either way, and whatever
  the rest of the controller is. -/
theorem feed_accounts {σ τ σ' τ' : Type} [Sink τ] [Sink τ'] (c : Controller σ (Recorder τ)) (bs : Bytes)
    (now : Nat) :
    let payloads := (c.scanner.buffer.push bs).1.drain
    let (outcomes, after) := c.feed bs now
    (outcomes.map Prod.fst = payloads.1 ∧ after.scanner.buffer = payloads.2 ∧
      c.scanner.debounce.run (payloads.1.map fun code => .see code now) =
        ((Scan.allAt now outcomes).map Scan.event, after.scanner.debounce)) ∧
    (Desk.Steps c.desk.ledger (outcomes.flatMap (asking now ·.2.offer?)) after.desk.ledger ∧
      (∃ parts, List.Forall₂ (fun outcome => outcome.2.Sends (c.desk.codeRequest outcome.1))
          outcomes parts ∧
        after.desk.outbox.sent = c.desk.outbox.sent ++ parts.flatten) ∧
      after.desk.outbox.taken = c.desk.outbox.taken ++
        (published outcomes).map c.desk.codeRequest ∧
      (published outcomes).length ≤ 1) ∧
    (c.link.isReady = true → ∀ outcome ∈ outcomes, outcome.2 ≠ .offline) ∧
    (c.link.isReady = false →
      (∀ outcome ∈ outcomes, outcome.2 = .suppressed ∨ outcome.2 = .offline) ∧
      after.desk.outbox = c.desk.outbox ∧ after.desk.gate = c.desk.gate) ∧
    ∀ d : Controller σ' τ', d.scanner = c.scanner → (d.feed bs now).2.scanner = after.scanner := by
  have hsteps := c.steps_feed bs now
  obtain ⟨codes, start, hlink, hsettings, hgate, houtbox, houtcomes, hgate', houtbox'⟩ := c.desk_feed bs now
  obtain ⟨hup, hdown⟩ := outcomes_scannedAll now codes start
  obtain ⟨parts, hparts, hsent⟩ := sends_scannedAll now codes start
  have hrequest : start.desk.codeRequest = c.desk.codeRequest := Desk.codeRequest_congr hsettings
  rw [hrequest] at hparts
  rw [← houtcomes] at hup hdown hparts
  rw [← houtbox', houtbox] at hsent
  rw [hlink] at hup hdown
  have htaken : (c.feed bs now).2.desk.outbox.taken = c.desk.outbox.taken ++
      (published (c.feed bs now).1).map c.desk.codeRequest := by
    rw [Recorder.taken_append hsent, taken_flatten c.desk.codeRequest hparts]
  have hoffline : c.link.isReady = false →
      (∀ outcome ∈ (c.feed bs now).1, outcome.2 = .suppressed ∨ outcome.2 = .offline) ∧
      (c.feed bs now).2.desk.outbox = c.desk.outbox ∧ (c.feed bs now).2.desk.gate = c.desk.gate := by
    intro h
    obtain ⟨hall, hsame, hnothing⟩ := hdown h
    exact ⟨hall, houtbox'.trans (hnothing.trans houtbox), hgate'.trans (hsame.trans hgate)⟩
  exact ⟨⟨c.codes_feed bs now, c.buffer_feed bs now, c.run_feed bs now⟩,
    ⟨hsteps, ⟨parts, hparts, hsent⟩, htaken, (length_published_le _ hsteps).1⟩, hup, hoffline,
    fun d hd => scanner_feed hd bs now⟩

end Turnstile

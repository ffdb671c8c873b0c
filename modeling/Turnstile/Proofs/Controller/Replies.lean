import Turnstile.Proofs.Settings.Rereading

/-!
# Replies to commands

What a command may do to a controller, and what is sent in reply to it.

* `Action.drives`: the eight actions that drive an output.
* `Command.Unanswered`: the commands that get no reply.
* `Stretch`: a stretch of the work on a command, with the messages that it tries to send and all
  that it leaves alone.
* `command_replies`: **a command that is not unanswered gets one reply**, whatever becomes of the
  outputs, and others get none; only decisions touch the gate, only changes of settings the settings,
  and only decisions and the eight actions the outputs.
-/

namespace Turnstile

/-- Whether an action drives the output that a command names. -/
def Action.drives : Action → Bool
  | .lightPulse | .lightSwitch | .pulse | .invertedPulse | .switch | .openDoor | .openMaterialDoor
  | .openSalesDoor => true
  | _ => false

/-- How surely the reply to an action is to be delivered. -/
def Action.delivery (a : Action) : Delivery :=
  if a.drives ∨ a = .reportPresence then .atMostOnce else .atLeastOnce

namespace Command

/-- Whether a command names a user to write and a request, both as strings. -/
def NamesUser (c : Command) : Prop :=
  ∃ j user requestId, Json.ofBytes (Utf8.encode c.raw) = .ok j ∧
    j.get? "idUser" = some (.string user) ∧ j.get? "idPeticion" = some (.string requestId)

/-- Whether the text of a command is a document. -/
def IsDocument (c : Command) : Prop :=
  ∃ j, Json.ofBytes (Utf8.encode c.raw) = .ok j

/-- Whether a command gets no reply. -/
def Unanswered (c : Command) : Prop :=
  match c.request with
  | .unknown _ => True
  | .updateFirmware => c.url = none
  | .writeCard => ¬ c.NamesUser
  | .changeSettings => ¬ c.IsDocument
  | _ => False

theorem string?_eq_some {j : Json} {s : String} : j.string? = some s ↔ j = .string s := by
  cases j <;> simp [Json.string?]

theorem namesUser_iff {c : Command} : c.NamesUser ↔ ∃ request, WriteRequest.ofText? c.raw = some request := by
  rw [NamesUser, WriteRequest.ofText?]
  cases Json.ofBytes (Utf8.encode c.raw) with
  | error fault => simp
  | ok j => simp [Option.bind_eq_some_iff, string?_eq_some]

theorem isDocument_iff (c : Command) (other : String) :
    c.IsDocument ↔ ∃ request, SettingsRequest.ofText other c.raw = .ok request := by
  rw [IsDocument, SettingsRequest.ofText]
  cases Json.ofBytes (Utf8.encode c.raw) with
  | error fault => simp [Except.map]
  | ok j => simp [Except.map]

end Command

namespace Controller

variable {σ τ : Type} {a : Action} {k k' k'' : Controller σ (Recorder τ)}
  {attempts attempts' : List (Message × Verdict)}

/-- A stretch of the work on an action: the messages that it tries to send, all of them on the topic
for answers, and what it leaves alone. -/
structure Stretch (a : Action) (k : Controller σ (Recorder τ)) (attempts : List (Message × Verdict))
    (k' : Controller σ (Recorder τ)) : Prop where
  sent : k'.desk.outbox.sent = k.desk.outbox.sent ++ attempts
  replies : ∀ r ∈ attempts, r.1.topic = k.desk.current.responseTopic ∧ r.1.delivery = a.delivery ∧
    r.1.retain = false
  topic : k'.desk.current.responseTopic = k.desk.current.responseTopic
  gate : a ≠ .decideAccess → k'.desk.gate = k.desk.gate
  settings : a ≠ .changeSettings → k'.desk.settings = k.desk.settings
  outputs : a ≠ .decideAccess → ¬ a.drives = true → k'.outputs = k.outputs
  rest : k' = { k with desk := k'.desk, outputs := k'.outputs }

/-- Stretches one after another. -/
theorem Stretch.trans (h : Stretch a k attempts k') (h' : Stretch a k' attempts' k'') :
    Stretch a k (attempts ++ attempts') k'' where
  sent := by rw [h'.sent, h.sent, List.append_assoc]
  replies := by
    intro r hr
    rcases List.mem_append.1 hr with hr | hr
    · exact h.replies r hr
    · have hreply := h'.replies r hr
      rwa [h.topic] at hreply
  topic := h'.topic.trans h.topic
  gate ha := (h'.gate ha).trans (h.gate ha)
  settings ha := (h'.settings ha).trans (h.settings ha)
  outputs ha hdrives := (h'.outputs ha hdrives).trans (h.outputs ha hdrives)
  rest := by
    have hfirst := h.rest
    have hsecond := h'.rest
    rw [hfirst] at hsecond
    exact hsecond

/-- The log is no part of what matters. -/
theorem stretch_log (k : Controller σ (Recorder τ)) (entries : List Entry) : Stretch a k [] (k.log entries) where
  sent := (List.append_nil _).symm
  replies _ hr := absurd hr List.not_mem_nil
  topic := rfl
  gate _ := rfl
  settings _ := rfl
  outputs _ _ := rfl
  rest := rfl

theorem stretch_note (k : Controller σ (Recorder τ)) (level : Level) (text : String) :
    Stretch a k [] (k.note level text) :=
  stretch_log k [⟨level, text⟩]

/-- An output is driven, or not. -/
theorem stretch_act (ha : a.drives = true) (k : Controller σ (Recorder τ))
    (f : Outputs → Except OutputError Unit × Outputs) : Stretch a k [] (k.act f) := by
  have hdriven : ∀ outputs, Stretch a k [] { k with outputs } := fun outputs =>
    { sent := (List.append_nil _).symm
      replies := fun _ hr => absurd hr List.not_mem_nil
      topic := rfl
      gate := fun _ => rfl
      settings := fun _ => rfl
      outputs := fun _ hother => absurd ha hother
      rest := rfl }
  unfold act
  split
  · next outputs _ => exact hdriven outputs
  · next e outputs _ => exact (hdriven outputs).trans (stretch_note _ _ _)

/-- Settings come into force that answer on the same topic. -/
theorem stretch_settings (k : Controller σ (Recorder τ)) {settings : SettingsStore}
    (htopic : settings.current.responseTopic = k.desk.current.responseTopic) :
    Stretch .changeSettings k [] { k with desk := { k.desk with settings } } where
  sent := (List.append_nil _).symm
  replies _ hr := absurd hr List.not_mem_nil
  topic := htopic
  gate _ := rfl
  settings hne := absurd rfl hne
  outputs _ _ := rfl
  rest := rfl

variable [Sink τ]

/-- **A message is sent**, whether it is taken or not. -/
theorem stretch_sent (k : Controller σ (Recorder τ)) {m : Message} (journal : Journal)
    (htopic : m.topic = k.desk.current.responseTopic) (hdelivery : m.delivery = a.delivery)
    (hretain : m.retain = false) :
    ∃ v, Stretch a k [(m, v)]
      { k with desk := { k.desk with outbox := (Sink.send k.desk.outbox m).2, journal } } :=
  ⟨(Sink.send k.desk.outbox.inner m).1,
    { sent := rfl
      replies := fun r hr => by
        rw [List.mem_singleton.1 hr]
        exact ⟨htopic, hdelivery, hretain⟩
      topic := rfl
      gate := fun _ => rfl
      settings := fun _ => rfl
      outputs := fun _ _ => rfl
      rest := rfl }⟩

/-- **A reply is one message.** -/
theorem stretch_respond (k : Controller σ (Recorder τ)) (r : Report) {delivery : Delivery}
    (hdelivery : delivery = a.delivery) (what : String) :
    ∃ m v, Stretch a k [(m, v)] (k.respond r delivery what) := by
  obtain ⟨journal, hpublish⟩ := k.desk.publish_eq k.desk.current.responseTopic r delivery what
  obtain ⟨v, hsent⟩ := stretch_sent (a := a)
    (m := ⟨k.desk.current.responseTopic, r.text, delivery, false⟩) k journal rfl hdelivery rfl
  rw [respond, hpublish]
  exact ⟨_, v, hsent⟩

/-- **A decision frees the gate, may drive outputs, and is confirmed.** -/
theorem stretch_carryOut (k : Controller σ (Recorder τ)) (command : Command) :
    ∃ m v, Stretch .decideAccess k [(m, v)]
      { k with desk := (k.desk.carryOut k.outputs command).2.1,
               outputs := (k.desk.carryOut k.outputs command).2.2 } := by
  obtain ⟨journal, hcarryOut⟩ := k.desk.carryOut_eq k.outputs command
  let freed : Controller σ (Recorder τ) := { k with
    desk := { k.desk with gate := k.desk.gate.release }
    outputs := (k.desk.carryOut k.outputs command).2.2 }
  have hdecided : Stretch .decideAccess k [] freed :=
    { sent := (List.append_nil _).symm
      replies := fun _ hr => absurd hr List.not_mem_nil
      topic := rfl
      gate := fun hne => absurd rfl hne
      settings := fun _ => rfl
      outputs := fun hne => absurd rfl hne
      rest := rfl }
  obtain ⟨v, hsent⟩ := stretch_sent (a := .decideAccess)
    (m := ⟨k.desk.current.responseTopic, (Report.accessConfirmed command.requestId
      (isGranted command.result) command.kind).text, .atLeastOnce, false⟩) freed journal rfl rfl rfl
  have hdesk : (k.desk.carryOut k.outputs command).2.1 = _ := congrArg (·.2.1) hcarryOut
  rw [hdesk]
  exact ⟨_, v, hdecided.trans hsent⟩

theorem update_topic (s : SettingsStore) (patch : Settings.Patch) :
    (s.update patch.apply).2.1.current.responseTopic = s.current.responseTopic := by
  unfold SettingsStore.update SettingsStore.save Storage.write
  dsimp only
  cases s.storage.failsWrite <;> rfl

/-- **A change of settings is acknowledged if it can be read.** -/
theorem stretch_changeSettings {command : Command} (h : command.IsDocument)
    (k : Controller σ (Recorder τ)) :
    ∃ m v, Stretch .changeSettings k [(m, v)] (k.changeSettings command.raw) := by
  obtain ⟨request, hread⟩ := (Command.isDocument_iff command noRequestId).1 h
  -- whether the change could be stored or not, the reply follows
  obtain ⟨k', r, hreply, hchange⟩ : ∃ k' r,
      k.changeSettings command.raw = k'.respond r .atLeastOnce "retornoSetConfig" ∧
        Stretch .changeSettings k [] k' := by
    unfold changeSettings
    rw [hread]
    refine ⟨_, _, rfl, ?_⟩
    cases request.patch with
    | none => exact stretch_note k _ _
    | some patch =>
      have htopic := update_topic k.desk.settings patch
      dsimp only
      generalize k.desk.settings.update patch.apply = updated at htopic ⊢
      obtain ⟨outcome, settings, entries⟩ := updated
      have hupdated := (stretch_settings k htopic).trans (stretch_log _ entries)
      cases outcome with
      | ok => exact hupdated
      | error e => exact hupdated.trans (stretch_note _ _ _)
  obtain ⟨m, v, hsent⟩ := stretch_respond (a := .changeSettings) k' r rfl "retornoSetConfig"
  rw [hreply]
  exact ⟨m, v, hchange.trans hsent⟩

theorem stretch_changeSettings_unread {command : Command} (h : ¬ command.IsDocument)
    (k : Controller σ (Recorder τ)) : Stretch .changeSettings k [] (k.changeSettings command.raw) := by
  unfold changeSettings
  cases hread : SettingsRequest.ofText noRequestId command.raw with
  | error fault => exact stretch_note k _ _
  | ok request => exact absurd ((Command.isDocument_iff command noRequestId).2 ⟨request, hread⟩) h

/-- An update of the firmware is refused, if a command says from where. -/
theorem stretch_refuseUpdate (k : Controller σ (Recorder τ)) (command : Command) :
    (command.url = none → Stretch .updateFirmware k [] (k.refuseUpdate command)) ∧
      (command.url ≠ none → ∃ m v, Stretch .updateFirmware k [(m, v)] (k.refuseUpdate command)) := by
  have hlog : Stretch .updateFirmware k [] (k.log (updateEntries command)) := stretch_log k _
  unfold refuseUpdate Command.updateRefusal?
  cases command.url with
  | none => exact ⟨fun _ => hlog, fun h => absurd rfl h⟩
  | some url =>
    refine ⟨fun h => (nomatch h), fun _ => ?_⟩
    obtain ⟨m, v, hreply⟩ := stretch_respond (a := .updateFirmware) (k.log (updateEntries command))
      (.firmwareUpdate "retornoOta" false k.desk.current.deviceId command.requestId url) rfl "retornoOta"
    exact ⟨m, v, hlog.trans hreply⟩

/-- An action that drives an output is answered, whatever became of the output. -/
theorem dispatch_drives {command : Command} (h : command.request.drives = true)
    (k : Controller σ (Recorder τ)) :
    ∃ k' m v, k.dispatch command = .done k' ∧ Stretch command.request k [(m, v)] k' := by
  have hdelivery : Delivery.atMostOnce = command.request.delivery := by
    rw [Action.delivery, if_pos (.inl h)]
  set k₀ := k.note .info s!"Command '{command.action}' pin={command.pin} idPeticion={command.requestId}"
  obtain ⟨drive, hdispatch⟩ : ∃ drive : Drive, k.dispatch command =
      .done ((k₀.act drive.act).respond drive.report .atMostOnce drive.answer) := by
    unfold dispatch
    generalize command.request = a at h
    cases a with
    | lightPulse | lightSwitch | pulse | invertedPulse | switch | openDoor | openMaterialDoor
    | openSalesDoor => exact ⟨_, rfl⟩
    | _ => cases h
  obtain ⟨m, v, hreply⟩ := stretch_respond (k₀.act drive.act) drive.report hdelivery drive.answer
  exact ⟨_, m, v, hdispatch, ((stretch_note k _ _).trans (stretch_act h k₀ drive.act)).trans hreply⟩

/-- **A command that is not unanswered gets one reply**, on the topic for answers and never retained,
whatever the outputs and the gate are and whatever the sink makes of it; one that is unanswered gets
none. A reply about a card comes when the card was written, or was not, whatever became of the
controller meanwhile. Only decisions touch the gate, only changes of settings the settings, and only
decisions and the eight actions that drive outputs the outputs. -/
theorem command_replies (k : Controller σ (Recorder τ)) (command : Command) :
    (command.Unanswered → ∃ k', k.dispatch command = .done k' ∧ Stretch command.request k [] k') ∧
    (¬ command.Unanswered →
      (∃ k' m v, k.dispatch command = .done k' ∧ Stretch command.request k [(m, v)] k') ∨
      ∃ request k', k.dispatch command = .writing request k' ∧ Stretch command.request k [] k' ∧
        ∀ (d : Controller σ (Recorder τ)) (written : Option Uid),
          ∃ m v, Stretch command.request d [(m, v)] (d.endWrite request written)) := by
  set k₀ := k.note .info s!"Command '{command.action}' pin={command.pin} idPeticion={command.requestId}"
    with hk₀
  have hstart : ∀ a, Stretch a k [] k₀ := fun a => stretch_note k _ _
  by_cases hdrives : command.request.drives = true
  · have hanswered : ¬ command.Unanswered := by
      unfold Command.Unanswered
      generalize command.request = a at hdrives
      cases a <;> first | exact id | cases hdrives
    exact ⟨fun h => absurd h hanswered, fun _ => .inl (dispatch_drives hdrives k)⟩
  unfold Command.Unanswered dispatch
  rw [← hk₀]
  dsimp only
  cases hrequest : command.request with
  | reportSettings =>
    obtain ⟨m, v, hreply⟩ := stretch_respond (a := .reportSettings) k₀ (.settings "retornoConfig"
      k₀.desk.current.enableCards k₀.desk.current.enableQr k₀.desk.current.deviceId
      k₀.desk.current.turnstileId command.requestId) rfl "retornoConfig"
    exact ⟨False.elim, fun _ => .inl ⟨_, m, v, rfl, (hstart _).trans hreply⟩⟩
  | reportPresence =>
    obtain ⟨m, v, hreply⟩ := stretch_respond (a := .reportPresence) k₀
      (.presence "status" true k₀.desk.current.deviceId command.requestId) rfl "status"
    exact ⟨False.elim, fun _ => .inl ⟨_, m, v, rfl, (hstart _).trans hreply⟩⟩
  | changeSettings =>
    refine ⟨fun hunread => ⟨_, rfl, ?_⟩, fun hread => ?_⟩
    · exact (hstart _).trans (stretch_changeSettings_unread hunread k₀)
    · obtain ⟨m, v, hreply⟩ := stretch_changeSettings (not_not.1 hread) k₀
      exact .inl ⟨_, m, v, rfl, (hstart _).trans hreply⟩
  | writeCard =>
    unfold beginWrite
    rw [Command.namesUser_iff]
    cases hread : WriteRequest.ofText? command.raw with
    | none =>
      refine ⟨fun _ => ⟨_, rfl, (hstart _).trans (stretch_note _ _ _)⟩, fun h => ?_⟩
      simp at h
    | some request =>
      refine ⟨fun h => absurd ⟨request, rfl⟩ h, fun _ => .inr ⟨request, _, rfl, ?_, fun d written => ?_⟩⟩
      · exact (hstart _).trans (stretch_note _ _ _)
      · exact stretch_respond d _ rfl _
  | decideAccess =>
    obtain ⟨m, v, hreply⟩ := stretch_carryOut k₀ command
    exact ⟨False.elim, fun _ => .inl ⟨_, m, v, rfl, (hstart _).trans hreply⟩⟩
  | updateFirmware =>
    obtain ⟨hsilent, hreply⟩ := stretch_refuseUpdate k₀ command
    refine ⟨fun hurl => ⟨_, rfl, (hstart _).trans (hsilent hurl)⟩, fun hurl => ?_⟩
    obtain ⟨m, v, hsent⟩ := hreply hurl
    exact .inl ⟨_, m, v, rfl, (hstart _).trans hsent⟩
  | unknown name => exact ⟨fun _ => ⟨_, rfl, (hstart _).trans (stretch_note _ _ _)⟩, fun h => absurd trivial h⟩
  | _ => rw [hrequest] at hdrives; exact absurd rfl hdrives

end Controller

end Turnstile

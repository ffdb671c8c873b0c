import Turnstile.Proofs.Controller.Flight
import Turnstile.Proofs.Controller.Routing
import Turnstile.Proofs.Report.Payloads

/-!
# What the back office is told

Cards, codes and commands carry strings that anybody may have chosen. Whatever is in them, each
message to the back office is one object with the members of its kind, and the strings are in it as
they were.

* `Tells`: what is told by the messages that were added to a record.
* `Settings.accessMembers`, `Command.decisionMembers`, `Command.answer?`, `WriteRequest.members`: the
  members of each kind of message.
* `Desk.tells_offer`, `Desk.tells_carryOut`, `Controller.tells_dispatch`, `Controller.tells_endWrite`,
  `Controller.tells_route`: what each piece of work tells.
* `messages_tell`: **every message tells the members of its kind**, each once and nothing else.
-/

namespace Turnstile

/-- Whether the messages that were added to a record tell these objects, one each. -/
def Tells (before after : List (Message × Verdict)) (told : List (List (String × Json))) : Prop :=
  ∃ attempts, after = before ++ attempts ∧
    List.Forall₂ (fun attempt members => attempt.1.Tells members) attempts told

theorem tells_nothing {before after : List (Message × Verdict)} (h : after = before) :
    Tells before after [] :=
  ⟨[], by rw [h, List.append_nil], .nil⟩

/-- One message is added. -/
theorem tells_one {before after : List (Message × Verdict)} {r : Report} (hr : r.Readable)
    {topic : String} {delivery : Delivery} {verdict : Verdict}
    (h : after = before ++ [(⟨topic, r.text, delivery, false⟩, verdict)]) :
    Tells before after [r.members] :=
  ⟨_, h, .cons (hr.tells topic delivery false) .nil⟩

/-! ## The members of messages -/

/-- What a request for access tells. -/
def Settings.accessMembers (s : Settings) (source : Source) (id user : String) : List (String × Json) :=
  [("action", .string "getAccessTorn"), ("type", .string source.label), ("cardId", .string id),
    ("user", .string user), ("name", .string s.deviceId), ("idTorno", .string s.turnstileId)]

namespace Command

/-- What is told when a decision on access was carried out. -/
def decisionMembers (c : Command) : List (String × Json) :=
  [("action", .string "retornoAccessTorn"), ("idPeticion", .string c.requestId),
    ("ok", .bool (isGranted c.result)), ("type", .string c.kind)]

/-- What is told when an output was driven. -/
def outputMembers (c : Command) (action : String) : List (String × Json) :=
  [("action", .string action), ("pin", .ofInt c.pin), ("idPeticion", .string c.requestId)]

/-- What is told when an output of a court was driven. Its state and the court are written as
strings. -/
def courtMembers (c : Command) (state : Int) : List (String × Json) :=
  [("action", .string "retornoLuz"), ("pin", .ofInt c.pin), ("estat", .string (toString state)),
    ("idPista", .string (toString c.court)), ("idPeticion", .string c.requestId)]

/-- What is told at once in answer to a command under given settings, if anything is. -/
def answer? (c : Command) (s : Settings) : Option (List (String × Json)) :=
  match c.request with
  | .lightPulse => some (c.courtMembers c.state)
  | .lightSwitch => some (c.courtMembers (switchState c.state))
  | .pulse | .invertedPulse => some (c.outputMembers "retornoPulsador")
  | .switch => some (c.outputMembers "retornoInterruptor")
  | .openDoor => some (c.outputMembers "retornoObrirPorta")
  | .openMaterialDoor => some (c.outputMembers "retornoObrirPortaMaterial")
  | .openSalesDoor => some (c.outputMembers "retornoObrirPortaVenta")
  | .reportSettings => some
    [("action", .string "retornoConfig"), ("enableCards", .bool s.enableCards),
      ("enableQr", .bool s.enableQr), ("id", .string s.deviceId), ("idTorno", .string s.turnstileId),
      ("idPeticion", .string c.requestId)]
  | .changeSettings =>
    match SettingsRequest.ofText noRequestId c.raw with
    | .error _ => none
    | .ok request =>
      -- the settings in force after the change
      let s := request.patch.elim s fun patch => patch.apply s
      some [("action", .string "retornoSetConfig"), ("ok", .bool true),
        ("enableCards", .bool s.enableCards), ("enableQr", .bool s.enableQr),
        ("idPeticion", .string request.requestId), ("id", .string s.deviceId)]
  | .reportPresence => some
    [("action", .string "status"), ("online", .bool true), ("id", .string s.deviceId),
      ("idPeticion", .string c.requestId)]
  | .decideAccess => some c.decisionMembers
  | .updateFirmware => c.url.map fun url =>
    [("action", .string "retornoOta"), ("ok", .bool false), ("id", .string s.deviceId),
      ("idPeticion", .string c.requestId), ("url", .string url)]
  | .writeCard | .unknown _ => none

end Command

/-- What is told when a card was written, or was not. -/
def WriteRequest.members (request : WriteRequest) (written : Option Uid) : List (String × Json) :=
  [("action", .string "retornoWriteCard"), ("ok", .bool written.isSome), ("lector", .string "OUT"),
    ("uid", .string ((written.map Uid.hex).getD "")), ("user", .string request.user),
    ("idPeticion", .string request.requestId)]

/-! ## What each piece of work tells -/

section Work

variable {σ τ : Type} [Sink τ]

/-- A request for access tells who asks, unless the gate is busy. -/
theorem Desk.tells_offer (d : Desk (Recorder τ)) (source : Source) (id user : String) (now : Nat) :
    Tells d.outbox.sent (d.offer source id user now).2.outbox.sent
      (if d.gate.stands now then [] else [d.current.accessMembers source id user]) := by
  have hrequest : Report.Readable
      (.accessRequest source.label id user d.current.deviceId d.current.turnstileId) := trivial
  obtain ⟨journal, ⟨hstands, hoffer⟩ | ⟨hfree, -, hoffer⟩ | ⟨hfree, -, hoffer⟩⟩ :=
    d.offer_cases source id user now
  · rw [if_pos hstands, hoffer]
    exact tells_nothing rfl
  -- the request is sent, whether it is taken or not
  · rw [if_neg (ne_true_of_eq_false hfree), hoffer]
    exact tells_one hrequest rfl
  · rw [if_neg (ne_true_of_eq_false hfree), hoffer]
    exact tells_one hrequest rfl

/-- A decision on access is confirmed. -/
theorem Desk.tells_carryOut (d : Desk (Recorder τ)) (o : Outputs) (c : Command) :
    Tells d.outbox.sent (d.carryOut o c).2.1.outbox.sent [c.decisionMembers] := by
  have hconfirmation : Report.Readable
      (.accessConfirmed c.requestId (isGranted c.result) c.kind) := trivial
  obtain ⟨journal, hcarryOut⟩ := d.carryOut_eq o c
  rw [hcarryOut]
  exact tells_one hconfirmation rfl

namespace Controller

variable (k : Controller σ (Recorder τ))

/-- A report that is sent tells its members. -/
theorem tells_respond {r : Report} (hr : r.Readable) (delivery : Delivery) (what : String) :
    Tells k.desk.outbox.sent (k.respond r delivery what).desk.outbox.sent [r.members] := by
  obtain ⟨verdict, hsent⟩ := k.respond_sent r delivery what
  exact tells_one hr hsent

/-- The end of the work on a card tells which one was written. -/
theorem tells_endWrite (request : WriteRequest) (written : Option Uid) :
    Tells k.desk.outbox.sent (k.endWrite request written).desk.outbox.sent [request.members written] :=
  k.tells_respond (r := .cardWritten written.isSome ((written.map Uid.hex).getD "") request.user
    request.requestId) trivial _ _

omit [Sink τ] in
theorem outbox_act (f : Outputs → Except OutputError Unit × Outputs) :
    (k.act f).desk.outbox = k.desk.outbox := by
  unfold act
  split
  · rfl
  · rfl

/-- What drives an output is answered by the output that the command names. -/
theorem drive_members {s : Settings} {command : Command} {drive : Drive} (hpin : IsInt32 command.pin)
    (h : command.request.drive? s command = some drive) :
    drive.report.Readable ∧ command.answer? s = some drive.report.members := by
  have hcourt : ∀ state, (Report.courtOutput "retornoLuz" command.pin state command.court
      command.requestId).members = command.courtMembers state := by
    intro state
    rw [Command.courtMembers, ← text_ofInt, ← text_ofInt]
    rfl
  unfold Command.answer?
  -- what is asked for decides both the drive and the row of the table, so nothing else of it counts
  generalize command.request = a at h
  cases a with
  | lightPulse | lightSwitch =>
    cases h
    exact ⟨hpin, congrArg some (hcourt _).symm⟩
  | pulse | invertedPulse | switch | openDoor | openMaterialDoor | openSalesDoor =>
    cases h
    exact ⟨hpin, rfl⟩
  | _ => cases h

/-- The settings in force after a change that can be read, whether it could be stored or not. -/
theorem current_changeSettings {raw : String} {request : SettingsRequest}
    (h : SettingsRequest.ofText noRequestId raw = .ok request) :
    (k.changeSettings raw).desk.current =
      request.patch.elim k.desk.current fun patch => patch.apply k.desk.current := by
  unfold changeSettings
  rw [h]
  dsimp only
  rw [respond_current]
  -- a change comes into force before it is stored, so a failure to store it does not matter here
  cases request.patch with
  | none => rfl
  | some patch =>
    unfold SettingsStore.update SettingsStore.save Storage.write
    dsimp only
    cases k.desk.settings.storage.failsWrite <;> rfl

/-- A change of settings that can be read tells which are in force then. -/
theorem tells_changeSettings {command : Command} (h : command.request = .changeSettings) :
    Tells k.desk.outbox.sent (k.changeSettings command.raw).desk.outbox.sent
      (command.answer? k.desk.current).toList := by
  unfold Command.answer?
  rw [h]
  dsimp only
  cases hread : SettingsRequest.ofText noRequestId command.raw with
  | error fault => exact tells_nothing (congrArg Recorder.sent (changeSettings_error hread k).1)
  | ok request =>
    obtain ⟨verdict, hsent⟩ := changeSettings_ok hread k
    let s := request.patch.elim k.desk.current fun patch => patch.apply k.desk.current
    have hcurrent : (k.changeSettings command.raw).desk.current = s := k.current_changeSettings hread
    rw [hcurrent] at hsent
    exact tells_one (r := .settingsReceived "retornoSetConfig" true s.enableCards s.enableQr
      request.requestId s.deviceId) trivial hsent

/-- A command to update the firmware that says from where is told of the refusal. -/
theorem tells_refuseUpdate {command : Command} (h : command.request = .updateFirmware) :
    Tells k.desk.outbox.sent (k.refuseUpdate command).desk.outbox.sent
      (command.answer? k.desk.current).toList := by
  unfold Command.answer? refuseUpdate Command.updateRefusal?
  rw [h]
  cases command.url with
  | none => exact tells_nothing rfl
  | some url =>
    exact (k.log _).tells_respond (r := .firmwareUpdate "retornoOta" false k.desk.current.deviceId
      command.requestId url) trivial .atLeastOnce "retornoOta"

/-- **What a command tells** before a card is written: its answer, if it has one. -/
theorem tells_dispatch {command : Command} (hpin : IsInt32 command.pin) :
    Tells k.desk.outbox.sent (k.dispatch command).controller.desk.outbox.sent
      (command.answer? k.desk.current).toList := by
  set k₀ := k.note .info s!"Command '{command.action}' pin={command.pin} idPeticion={command.requestId}"
    with hk₀
  -- the eight actions that drive an output are answered alike, whatever became of the output
  have hdrives : ∀ drive, command.request.drive? k.desk.current command = some drive →
      Tells k.desk.outbox.sent
        ((k₀.act drive.act).respond drive.report .atMostOnce drive.answer).desk.outbox.sent
        (command.answer? k.desk.current).toList := by
    intro drive hdrive
    obtain ⟨hreadable, hanswer⟩ := drive_members hpin hdrive
    have htells := (k₀.act drive.act).tells_respond hreadable .atMostOnce drive.answer
    rw [outbox_act] at htells
    rw [hanswer]
    exact htells
  unfold dispatch
  rw [← hk₀]
  dsimp only
  cases hrequest : command.request with
  | lightPulse | lightSwitch | pulse | invertedPulse | switch | openDoor | openMaterialDoor
  | openSalesDoor =>
    rw [hrequest] at hdrives
    exact hdrives _ rfl
  | reportSettings =>
    unfold Command.answer?
    rw [hrequest]
    exact k₀.tells_respond (r := .settings "retornoConfig" k.desk.current.enableCards
      k.desk.current.enableQr k.desk.current.deviceId k.desk.current.turnstileId command.requestId)
      trivial .atLeastOnce "retornoConfig"
  | changeSettings => exact k₀.tells_changeSettings hrequest
  | reportPresence =>
    unfold Command.answer?
    rw [hrequest]
    exact k₀.tells_respond (r := .presence "status" true k.desk.current.deviceId command.requestId)
      trivial .atMostOnce "status"
  | writeCard =>
    unfold Command.answer? beginWrite
    rw [hrequest]
    -- whether there is something to write or not, only the log tells of it
    cases WriteRequest.ofText? command.raw with
    | none => exact tells_nothing rfl
    | some request => exact tells_nothing rfl
  | decideAccess =>
    unfold Command.answer?
    rw [hrequest]
    exact k₀.desk.tells_carryOut k₀.outputs command
  | updateFirmware => exact k₀.tells_refuseUpdate hrequest
  | unknown name =>
    unfold Command.answer?
    rw [hrequest]
    exact tells_nothing rfl

/-- **What arriving octets tell**: the refusal of a command to update the firmware. -/
theorem tells_route (bs : Bytes) : Tells k.desk.outbox.sent (k.route bs).desk.outbox.sent
    (match Command.ofBytes bs with
      | .error _ => []
      | .ok command =>
        if command.request = .updateFirmware then (command.answer? k.desk.current).toList else []) := by
  unfold route
  cases Command.ofBytes bs with
  | error fault => exact tells_nothing rfl
  | ok command =>
    dsimp only
    by_cases hupdate : command.request = .updateFirmware
    · rw [if_pos hupdate, if_pos hupdate]
      exact k.tells_refuseUpdate hupdate
    · rw [if_neg hupdate, if_neg hupdate]
      exact tells_nothing rfl

end Controller

/-- **Every message tells the members of its kind**, each of them once, with the strings and values
that it was made of, and nothing else: a request for access, the confirmation of a decision, the
answer to a command, what became of a card, and the refusal of an update. No string gets out of its
place, for the payload is read as one object whatever is in the strings. An output is named by a
32-bit integer, which every command that was read does. -/
theorem messages_tell (k : Controller σ (Recorder τ)) :
    (∀ source id user now, Tells k.desk.outbox.sent (k.desk.offer source id user now).2.outbox.sent
      (if k.desk.gate.stands now then [] else [k.desk.current.accessMembers source id user])) ∧
    (∀ outputs command, Tells k.desk.outbox.sent
      (k.desk.carryOut outputs command).2.1.outbox.sent [command.decisionMembers]) ∧
    (∀ command, IsInt32 command.pin → Tells k.desk.outbox.sent
      (k.dispatch command).controller.desk.outbox.sent (command.answer? k.desk.current).toList) ∧
    (∀ request written, Tells k.desk.outbox.sent
      (k.endWrite request written).desk.outbox.sent [request.members written]) ∧
    (∀ bs, Tells k.desk.outbox.sent (k.route bs).desk.outbox.sent
      (match Command.ofBytes bs with
        | .error _ => []
        | .ok command =>
          if command.request = .updateFirmware then (command.answer? k.desk.current).toList else [])) ∧
    ∀ bs command, Command.ofBytes bs = .ok command → IsInt32 command.pin :=
  ⟨k.desk.tells_offer, k.desk.tells_carryOut, fun _ hpin => k.tells_dispatch hpin, k.tells_endWrite,
    k.tells_route, fun _ _ hread => Command.isInt32_pin hread⟩

end Work

/-- A command with a request identifier that would end the string, if it could. -/
def quotedCommand : Command where
  action := "pulsador"
  pin := 17
  requestId := "p\",\"pin\":0\x7d\\\n\x01\uFFFD"

theorem messages_tell_quotes :
    IsInt32 quotedCommand.pin ∧
      Tells [] (unequipped.dispatch quotedCommand).controller.desk.outbox.sent
        [[("action", .string "retornoPulsador"), ("pin", .ofInt 17),
          ("idPeticion", .string quotedCommand.requestId)]] := by
  have hpin : IsInt32 quotedCommand.pin := ⟨by decide, by decide⟩
  have hrequest : quotedCommand.request = .pulse := by decide +kernel
  have htells := (messages_tell unequipped).2.2.1 quotedCommand hpin
  unfold Command.answer? at htells
  rw [hrequest] at htells
  exact ⟨hpin, htells⟩

end Turnstile

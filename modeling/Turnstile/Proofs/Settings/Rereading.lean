import Turnstile.Controller.Dispatch
import Turnstile.Proofs.Command.Reading
import Turnstile.Proofs.Desk.Requests

/-!
# The second reading of a command

A command to change settings is read as a record when it arrives, and the text that it keeps is
read once more, as a document, when it is carried out.

* `Command.Rereadable`: the values that the record passes over are documents.
* `settings_command_reread`: **a command that is an object can be read once more if and only if it
  is rereadable**, with the same request identifier; it is acknowledged under it, or else dropped.
* `settings_command_not_reread`: a value that nobody asked for is enough to have a command dropped.
-/

namespace Turnstile

open Json Json.Octet

/-- Where the values start, in the text that a command keeps, that the command passes over. -/
def Command.strays (c : Command) : List Bytes :=
  Json.strays (fields.map Field.name) (Utf8.encode c.raw)

/-- Whether the values that a command passes over are documents of the nesting that is left. -/
def Command.Rereadable (c : Command) : Prop :=
  ∀ v ∈ c.strays, readable (maxNesting - 1) v = true

instance (c : Command) : Decidable c.Rereadable :=
  inferInstanceAs (Decidable (∀ v ∈ c.strays, readable (maxNesting - 1) v = true))

/-- The message that acknowledges a change of settings. -/
def Settings.acknowledgement (s : Settings) (requestId : String) : Message :=
  ⟨s.responseTopic, (Report.settingsReceived "retornoSetConfig" true s.enableCards s.enableQr requestId
    s.deviceId).text, .atLeastOnce, false⟩

variable {bs : Bytes} {c : Command}

/-! ## The two readings -/

/-- The request identifier of the members of an object, the last one first. -/
def requestIdOf (xs : List (String × Json)) : String :=
  (((xs.find? (·.1 = "idPeticion")).map (·.2)).bind Json.string?).getD noRequestId

theorem requestIdOf_cons_ne {name : String} (h : name ≠ "idPeticion") (x : Json)
    (xs : List (String × Json)) : requestIdOf ((name, x) :: xs) = requestIdOf xs := by
  rw [requestIdOf, List.find?_cons_of_neg (by simpa using h), requestIdOf]

/-- **The request identifier of a command is that of its members.** -/
theorem Command.tracks_requestId : Tracks fields fun c xs => c.requestId = requestIdOf xs where
  field := by
    intro f hf
    simp only [fields, List.mem_cons, List.not_mem_nil, or_false] at hf
    rcases hf with rfl | rfl | rfl | rfl | rfl | rfl | rfl | rfl
    case inr.inr.inr.inr.inl => exact ⟨_, rfl, fun c xs x _ => rfl⟩
    all_goals exact ⟨_, rfl, fun c xs x h => h.trans (requestIdOf_cons_ne (by decide) x xs).symm⟩
  other := by
    intro c xs name x hname h
    have hne : name ≠ "idPeticion" := by
      rintro rfl
      exact hname (by decide)
    exact h.trans (requestIdOf_cons_ne hne x xs).symm

/-- What is read once more of a command. -/
theorem Command.ofBytes_ok (h : Command.ofBytes bs = .ok c) :
    Utf8.encode c.raw = Utf8.mend bs ∧ ∃ c₀ rest, c.requestId = c₀.requestId ∧
      record fields {} maxNesting (Utf8.mend bs) = .ok (c₀, rest) ∧ (skipSpace rest).isEmpty = true := by
  obtain ⟨c₀, rest, hrecord, hend, rfl⟩ := Command.ofBytes_record.1 h
  refine ⟨Utf8.encode_decodeLossy bs, c₀, Utf8.mend rest, rfl, record_mend fields_mend hrecord, ?_⟩
  rw [faithful_mend.skipSpace, faithful_mend.isEmpty, hend]

theorem SettingsRequest.ofText_ok {other raw : String} {r : SettingsRequest}
    (h : SettingsRequest.ofText other raw = .ok r) :
    ∃ j rest, Reader.json maxNesting (Utf8.encode raw) = .ok (j, rest) ∧
      r.requestId = ((j.get? "idPeticion").bind Json.string?).getD other := by
  rw [SettingsRequest.ofText] at h
  cases hread : Json.ofBytes (Utf8.encode raw) with
  | error fault => rw [hread] at h; cases h
  | ok j =>
    rw [hread] at h
    cases h
    obtain ⟨rest, hjson, -⟩ := read_ok.1 hread
    exact ⟨j, rest, hjson, rfl⟩

theorem SettingsRequest.ofText_of_json {raw : String} {j : Json} {rest : Bytes} (other : String)
    (h : Reader.json maxNesting (Utf8.encode raw) = .ok (j, rest))
    (hend : (skipSpace rest).isEmpty = true) : ∃ r, SettingsRequest.ofText other raw = .ok r := by
  rw [SettingsRequest.ofText, Json.ofBytes, read_ok.2 ⟨rest, h, hend⟩]
  exact ⟨_, rfl⟩

/-- **A command that is an object can be read once more if and only if it is rereadable**, and has
the same request identifier then. -/
theorem Command.reread_object {tail : Bytes} (h : Command.ofBytes bs = .ok c)
    (hskip : skipSpace bs = openBrace :: tail) :
    ((∃ r, SettingsRequest.ofText noRequestId c.raw = .ok r) ↔ c.Rereadable) ∧
      ∀ r, SettingsRequest.ofText noRequestId c.raw = .ok r → r.requestId = c.requestId := by
  obtain ⟨hraw, c₀, rest, hid, hrecord, hend⟩ := Command.ofBytes_ok h
  have hskip' := faithful_mend.skipSpace_ascii hskip (by decide)
  have hwithin : record fields {} (126 + 1) (Utf8.mend bs) = .ok (c₀, rest) := hrecord
  obtain ⟨hiff, hmembers⟩ := object_of_record tracks_requestId rfl hskip' hwithin
  rw [Command.Rereadable, Command.strays, hraw]
  refine ⟨⟨?_, ?_⟩, ?_⟩
  · rintro ⟨r, hr⟩
    obtain ⟨j, after, hj, -⟩ := SettingsRequest.ofText_ok hr
    rw [hraw] at hj
    obtain ⟨rfl, -⟩ := hmembers j after hj
    exact hiff.1 ⟨j, hj⟩
  · intro hreadable
    obtain ⟨j, hj⟩ := hiff.2 hreadable
    rw [← hraw] at hj
    exact SettingsRequest.ofText_of_json noRequestId hj hend
  · intro r hr
    obtain ⟨j, after, hj, hrid⟩ := SettingsRequest.ofText_ok hr
    rw [hraw] at hj
    obtain ⟨-, ms, rfl, hms⟩ := hmembers j after hj
    rw [hrid, hid, hms]
    rfl

theorem Command.reread_array {tail : Bytes} (h : Command.ofBytes bs = .ok c)
    (hskip : skipSpace bs = openBracket :: tail) :
    ∃ r, SettingsRequest.ofText noRequestId c.raw = .ok r := by
  obtain ⟨hraw, c₀, rest, -, hrecord, hend⟩ := Command.ofBytes_ok h
  have hskip' := faithful_mend.skipSpace_ascii hskip (by decide)
  have hwithin : record fields {} (126 + 1) (Utf8.mend bs) = .ok (c₀, rest) := hrecord
  obtain ⟨items, hitems⟩ := array_of_record tracks_requestId hskip' hwithin
  rw [← hraw] at hitems
  exact SettingsRequest.ofText_of_json noRequestId hitems hend

/-! ## What becomes of a command -/

section Dispatch

variable {σ τ : Type} [Sink τ]

theorem Controller.respond_sent (k : Controller σ (Recorder τ)) (r : Report) (delivery : Delivery)
    (what : String) :
    ∃ v, (k.respond r delivery what).desk.outbox.sent =
      k.desk.outbox.sent ++ [(⟨k.desk.current.responseTopic, r.text, delivery, false⟩, v)] := by
  obtain ⟨journal, hpublish⟩ := k.desk.publish_eq k.desk.current.responseTopic r delivery what
  rw [Controller.respond, hpublish]
  exact ⟨_, rfl⟩

theorem Controller.respond_current (k : Controller σ (Recorder τ)) (r : Report) (delivery : Delivery)
    (what : String) : (k.respond r delivery what).desk.current = k.desk.current := by
  obtain ⟨journal, hpublish⟩ := k.desk.publish_eq k.desk.current.responseTopic r delivery what
  rw [Controller.respond, hpublish]
  rfl

/-- A change of settings that can be read is acknowledged, whatever it asks for. -/
theorem Controller.changeSettings_ok {raw : String} {r : SettingsRequest}
    (h : SettingsRequest.ofText noRequestId raw = .ok r) (k : Controller σ (Recorder τ)) :
    ∃ v, (k.changeSettings raw).desk.outbox.sent =
      k.desk.outbox.sent ++ [((k.changeSettings raw).desk.current.acknowledgement r.requestId, v)] := by
  obtain ⟨k', hrespond, houtbox⟩ : ∃ k' : Controller σ (Recorder τ),
      k.changeSettings raw = k'.respond (.settingsReceived "retornoSetConfig" true
        k'.desk.current.enableCards k'.desk.current.enableQr r.requestId k'.desk.current.deviceId)
        .atLeastOnce "retornoSetConfig" ∧ k'.desk.outbox = k.desk.outbox := by
    rw [Controller.changeSettings, h]
    refine ⟨_, rfl, ?_⟩
    cases r.patch with
    | none => rfl
    | some patch =>
      dsimp only
      generalize k.desk.settings.update patch.apply = updated
      obtain ⟨outcome, settings, entries⟩ := updated
      cases outcome <;> rfl
  obtain ⟨v, hsent⟩ := k'.respond_sent (.settingsReceived "retornoSetConfig" true
    k'.desk.current.enableCards k'.desk.current.enableQr r.requestId k'.desk.current.deviceId)
    .atLeastOnce "retornoSetConfig"
  refine ⟨v, ?_⟩
  rw [hrespond, hsent, houtbox, k'.respond_current]
  rfl

/-- One that cannot be read is dropped. -/
theorem Controller.changeSettings_error {raw : String} {fault : Fault}
    (h : SettingsRequest.ofText noRequestId raw = .error fault) (k : Controller σ (Recorder τ)) :
    (k.changeSettings raw).desk.outbox = k.desk.outbox ∧
      (k.changeSettings raw).desk.settings = k.desk.settings := by
  rw [Controller.changeSettings, h]
  exact ⟨rfl, rfl⟩

/-- **A command that is an object can be read once more if and only if it is rereadable**, with the
request identifier that it was received with; a change of settings is acknowledged under that
identifier then, and dropped otherwise. A command that is an array can always be read once more. -/
theorem settings_command_reread (h : Command.ofBytes bs = .ok c) :
    (∃ tail, skipSpace bs = openBrace :: tail) ∧
        ((∃ r, SettingsRequest.ofText noRequestId c.raw = .ok r) ↔ c.Rereadable) ∧
        (∀ r, SettingsRequest.ofText noRequestId c.raw = .ok r → r.requestId = c.requestId) ∧
        (c.request = .changeSettings → ∀ k : Controller σ (Recorder τ), ∃ k', k.dispatch c = .done k' ∧
          (c.Rereadable → ∃ v, k'.desk.outbox.sent =
            k.desk.outbox.sent ++ [(k'.desk.current.acknowledgement c.requestId, v)]) ∧
          (¬ c.Rereadable → k'.desk.outbox.sent = k.desk.outbox.sent ∧
            k'.desk.settings = k.desk.settings)) ∨
      (∃ tail, skipSpace bs = openBracket :: tail) ∧
        ∃ r, SettingsRequest.ofText noRequestId c.raw = .ok r := by
  rcases Command.object_or_array h with ⟨tail, hskip⟩ | ⟨tail, hskip⟩
  · obtain ⟨hiff, hid⟩ := Command.reread_object h hskip
    refine .inl ⟨⟨tail, hskip⟩, hiff, hid, ?_⟩
    intro hrequest k
    set k₀ := k.note .info s!"Command '{c.action}' pin={c.pin} idPeticion={c.requestId}"
    have hdispatch : k.dispatch c = .done (k₀.changeSettings c.raw) := by
      rw [Controller.dispatch, hrequest]
    refine ⟨k₀.changeSettings c.raw, hdispatch, ?_, ?_⟩
    · intro hreadable
      obtain ⟨r, hr⟩ := hiff.2 hreadable
      rw [← hid r hr]
      exact Controller.changeSettings_ok hr k₀
    · intro hunreadable
      cases hr : SettingsRequest.ofText noRequestId c.raw with
      | ok r => exact absurd (hiff.1 ⟨r, hr⟩) hunreadable
      | error fault =>
        obtain ⟨houtbox, hsettings⟩ := Controller.changeSettings_error hr k₀
        exact ⟨congrArg Recorder.sent houtbox, hsettings⟩
  · exact .inr ⟨⟨tail, hskip⟩, Command.reread_array h hskip⟩

/-- A command to change settings with a value that nobody asked for, which is a document. -/
def strayCommand : Command where
  action := "setConfig"
  requestId := "p1"
  raw := "\x7b\"action\":\"setConfig\",\"x\":[1,null],\"idPeticion\":\"p1\"\x7d"

theorem settings_command_reread_stray :
    Command.ofBytes (Utf8.encode strayCommand.raw) = .ok strayCommand ∧
      ∃ k' v, Controller.dispatch (⟨(), ⟨.new 0, ⟨{}, {}⟩, ⟨{}, []⟩, {}⟩, .online, {}, ⟨.forCards, .forCards⟩,
          {}, {}, {}, {}⟩ : Controller Unit (Recorder Outbox)) strayCommand = .done k' ∧
        k'.desk.outbox.sent = [(k'.desk.current.acknowledgement "p1", v)] := by
  have hread : Command.ofBytes (Utf8.encode strayCommand.raw) = .ok strayCommand :=
    ok_of_toOption (by decide +kernel)
  refine ⟨hread, ?_⟩
  have hhead : (skipSpace (Utf8.encode strayCommand.raw)).head? = some openBrace := by decide +kernel
  rcases settings_command_reread (σ := Unit) (τ := Outbox) hread with
    ⟨-, -, -, hdispatch⟩ | ⟨⟨tail, htail⟩, -⟩
  · obtain ⟨k', hdone, hsent, -⟩ := hdispatch (by decide +kernel) _
    obtain ⟨v, hv⟩ := hsent (by decide +kernel)
    exact ⟨k', v, hdone, hv⟩
  · rw [htail, List.head?_cons] at hhead
    exact absurd (Option.some.inj hhead) (by decide)

/-- A command to change settings with a string that nobody asked for: half a pair of code units. -/
def halfPairCommand : Command where
  action := "setConfig"
  requestId := "p1"
  raw := "\x7b\"action\":\"setConfig\",\"idPeticion\":\"p1\",\"x\":\"\\ud800\"\x7d"

/-- A command to change settings that is an array of its fields. -/
def arrayCommand : Command where
  action := "setConfig"
  requestId := "p1"
  raw := "[\"setConfig\",0,0,0,\"p1\"]"

/-- **A value that nobody asked for is enough to have a command dropped**, if it is no document; and
a command that is an array has no request identifier when it is read once more. -/
theorem settings_command_not_reread :
    (Command.ofBytes (Utf8.encode halfPairCommand.raw) = .ok halfPairCommand ∧
        ¬ ∃ r, SettingsRequest.ofText noRequestId halfPairCommand.raw = .ok r) ∧
      Command.ofBytes (Utf8.encode arrayCommand.raw) = .ok arrayCommand ∧
        ∃ r, SettingsRequest.ofText noRequestId arrayCommand.raw = .ok r ∧
          r.requestId ≠ arrayCommand.requestId := by
  refine ⟨⟨ok_of_toOption (by decide +kernel), ?_⟩, ok_of_toOption (by decide +kernel), ?_⟩
  · rintro ⟨r, hr⟩
    have hnone : (SettingsRequest.ofText noRequestId halfPairCommand.raw).toOption = none := by
      decide +kernel
    rw [hr] at hnone
    cases hnone
  · exact ⟨⟨none, noRequestId⟩, ok_of_toOption (by decide +kernel), by decide⟩

end Dispatch

end Turnstile

import Turnstile.Proofs.Controller.Flight
import Turnstile.Proofs.Controller.Routing

/-!
# Changes of settings by command

A command to change settings is read once more, as a document, and its object `config` says what to
change.

* `SettingsStore.update_stored`, `SettingsStore.update_unstored`: a change that can be stored, and
  one that cannot.
* `Command.patch?`: the change that a command asks for.
* `Controller.settings_dispatch`: what a command does to the settings.
* `Command.Gives`: a command gives a value for a setting.
* `remote_settings_last_given`: **commands change three settings only**, and each of them is the last
  value of its type that was given for it.
-/

namespace Turnstile

/-! ## A change -/

section Update

variable {s : SettingsStore}

/-- A change that can be stored is in force and stored. -/
theorem SettingsStore.update_stored (h : s.storage.failsWrite = false) (change : Settings → Settings) :
    s.update change = (.ok (),
      ⟨change s.current, { s.storage with
        data := some (change s.current).bytes, writes := s.storage.writes + 1 }⟩,
      [⟨.info, "Config saved"⟩]) := by
  unfold update save Storage.write
  simp only [h]
  rfl

/-- **A change that cannot be stored is in force all the same**, and storage stays as it was. -/
theorem SettingsStore.update_unstored (h : s.storage.failsWrite = true)
    (change : Settings → Settings) :
    s.update change = (.error .writeFailed, ⟨change s.current, s.storage⟩, []) := by
  unfold update save Storage.write
  simp only [h]
  rfl

/-- A change is in force, whether it can be stored or not. -/
theorem SettingsStore.current_update (s : SettingsStore) (change : Settings → Settings) :
    (s.update change).2.1.current = change s.current := by
  cases h : s.storage.failsWrite with
  | false => rw [update_stored h]
  | true => rw [update_unstored h]

end Update

/-! ## What a command asks for -/

namespace Command

/-- The change that a command asks for, if it can be read and has an object of settings. -/
def patch? (c : Command) : Option Settings.Patch :=
  match SettingsRequest.ofText noRequestId c.raw with
  | .ok request => request.patch
  | .error _ => none

/-- Whether a command is a document with an object of settings, which has these members. -/
def HasSettings (c : Command) (ms : List (String × Json)) : Prop :=
  ∃ j, Json.ofBytes (Utf8.encode c.raw) = .ok j ∧ j.get? "config" = some (.object ms)

/-- Whether a command gives a value in its object of settings. Of several members of one name the
last one counts. -/
def Gives (c : Command) (name : String) (value : Json) : Prop :=
  ∃ ms, c.HasSettings ms ∧ (Json.object ms).get? name = some value

/-- Whether a command switches cards on or off. -/
def GivesCards (c : Command) (enabled : Bool) : Prop :=
  c.Gives "enableCards" (.bool enabled)

/-- Whether a command switches codes on or off. -/
def GivesQr (c : Command) (enabled : Bool) : Prop :=
  c.Gives "enableQr" (.bool enabled)

/-- Whether a command gives an identifier of the turnstile: a string, or a number, whose text
counts. -/
def GivesTurnstileId (c : Command) (id : String) : Prop :=
  c.Gives "idTorno" (.string id) ∨ ∃ n, c.Gives "idTorno" (.number n) ∧ id = n.text

variable {c : Command}

theorem members?_eq_some {j : Json} {ms : List (String × Json)} :
    j.members? = some ms ↔ j = .object ms := by
  cases j <;> simp [Json.members?]

/-- A command asks for a change if and only if it has an object of settings. -/
theorem patch?_eq_some {p : Settings.Patch} :
    c.patch? = some p ↔ ∃ ms, c.HasSettings ms ∧ p = SettingsRequest.patchOf ms := by
  unfold patch? SettingsRequest.ofText HasSettings
  cases hread : Json.ofBytes (Utf8.encode c.raw) with
  | error fault => simp [Except.map]
  | ok j =>
    simp only [Except.map, Option.map_eq_some_iff, Option.bind_eq_some_iff, members?_eq_some,
      Except.ok.injEq]
    constructor
    · rintro ⟨ms, ⟨_, hconfig, rfl⟩, rfl⟩
      exact ⟨ms, ⟨j, rfl, hconfig⟩, rfl⟩
    · rintro ⟨ms, ⟨_, rfl, hconfig⟩, rfl⟩
      exact ⟨ms, ⟨_, hconfig, rfl⟩, rfl⟩

theorem patch?_eq_none : c.patch? = none ↔ ∀ ms, ¬ c.HasSettings ms := by
  constructor
  · intro hnone ms hms
    have hsome := patch?_eq_some.2 ⟨ms, hms, rfl⟩
    rw [hnone] at hsome
    cases hsome
  · intro h
    cases hpatch : c.patch? with
    | none => rfl
    | some p =>
      obtain ⟨ms, hms, -⟩ := patch?_eq_some.1 hpatch
      exact absurd hms (h ms)

/-- What a command asks for in one setting is the value that it gives, if that has the right type. -/
theorem patch?_field {α : Type} {field : Settings.Patch → Option α} (name : String)
    (value? : Json → Option α)
    (hfield : ∀ ms, field (SettingsRequest.patchOf ms) = (Json.lastOf name ms).bind value?) (x : α) :
    c.patch?.bind field = some x ↔ ∃ v, c.Gives name v ∧ value? v = some x := by
  rw [Option.bind_eq_some_iff]
  constructor
  · rintro ⟨p, hpatch, hx⟩
    obtain ⟨ms, hms, rfl⟩ := patch?_eq_some.1 hpatch
    rw [hfield, Option.bind_eq_some_iff] at hx
    obtain ⟨v, hlast, hv⟩ := hx
    exact ⟨v, ⟨ms, hms, hlast⟩, hv⟩
  · rintro ⟨v, ⟨ms, hms, hlast⟩, hv⟩
    have hlast' : Json.lastOf name ms = some v := hlast
    refine ⟨_, patch?_eq_some.2 ⟨ms, hms, rfl⟩, ?_⟩
    rw [hfield, hlast']
    exact hv

theorem bool?_eq_some {j : Json} {b : Bool} : j.bool? = some b ↔ j = .bool b := by
  cases j <;> simp [Json.bool?]

theorem patch?_cards (b : Bool) : c.patch?.bind (·.enableCards) = some b ↔ c.GivesCards b := by
  rw [patch?_field "enableCards" Json.bool? (fun _ => rfl)]
  simp [bool?_eq_some, GivesCards]

theorem patch?_qr (b : Bool) : c.patch?.bind (·.enableQr) = some b ↔ c.GivesQr b := by
  rw [patch?_field "enableQr" Json.bool? (fun _ => rfl)]
  simp [bool?_eq_some, GivesQr]

theorem identifier?_eq_some {j : Json} {id : String} : SettingsRequest.identifier? j = some id ↔
    j = .string id ∨ ∃ n, j = .number n ∧ id = n.text := by
  cases j <;> simp [SettingsRequest.identifier?, eq_comm]

theorem patch?_turnstileId (id : String) :
    c.patch?.bind (·.turnstileId) = some id ↔ c.GivesTurnstileId id := by
  rw [patch?_field "idTorno" SettingsRequest.identifier? (fun _ => rfl)]
  unfold GivesTurnstileId
  constructor
  · rintro ⟨v, hgives, hid⟩
    rcases identifier?_eq_some.1 hid with rfl | ⟨n, rfl, rfl⟩
    · exact .inl hgives
    · exact .inr ⟨n, hgives, rfl⟩
  · rintro (hgives | ⟨n, hgives, rfl⟩)
    · exact ⟨_, hgives, rfl⟩
    · exact ⟨_, hgives, rfl⟩

end Command

/-! ## What a command does -/

namespace Controller

variable {σ τ : Type} [Sink τ] {c : Command} {commands : List Command}

theorem settings_respond (k : Controller σ τ) (r : Report) (delivery : Delivery) (what : String) :
    (k.respond r delivery what).desk.settings = k.desk.settings := by
  obtain ⟨journal, hpublish⟩ := k.desk.publish_eq k.desk.current.responseTopic r delivery what
  rw [respond, hpublish]

omit [Sink τ] in
/-- A controller that is about to carry out a command, which the log tells of first. -/
def noted (k : Controller σ τ) (c : Command) : Controller σ τ :=
  k.note .info s!"Command '{c.action}' pin={c.pin} idPeticion={c.requestId}"

theorem dispatch_changeSettings (h : c.request = .changeSettings) (k : Controller σ τ) :
    k.dispatch c = .done ((k.noted c).changeSettings c.raw) := by
  rw [dispatch, h]
  rfl

/-- **What a command to change settings does to them**: the change that it asks for, if it asks for
one. -/
theorem settings_dispatch (h : c.request = .changeSettings) (k : Controller σ τ) :
    (k.dispatch c).controller.desk.settings =
      match c.patch? with
      | none => k.desk.settings
      | some p => (k.desk.settings.update p.apply).2.1 := by
  rw [dispatch_changeSettings h]
  show ((k.noted c).changeSettings c.raw).desk.settings = _
  rw [changeSettings, Command.patch?]
  cases SettingsRequest.ofText noRequestId c.raw with
  | error fault => rfl
  | ok request =>
    dsimp only
    rw [settings_respond]
    cases request.patch with
    | none => rfl
    | some p =>
      -- whether the change could be stored or not, only the log tells
      have hsettings : (k.noted c).desk.settings = k.desk.settings := rfl
      dsimp only
      rw [hsettings]
      obtain ⟨outcome, settings, entries⟩ := k.desk.settings.update p.apply
      cases outcome <;> rfl

/-- A command without an object of settings changes nothing. -/
theorem settings_dispatch_none (h : c.request = .changeSettings) (hnone : ∀ ms, ¬ c.HasSettings ms)
    (k : Controller σ τ) : (k.dispatch c).controller.desk.settings = k.desk.settings := by
  rw [settings_dispatch h, Command.patch?_eq_none.2 hnone]

/-- The settings in force after a command. -/
theorem current_dispatch (h : c.request = .changeSettings) (k : Controller σ τ) :
    (k.dispatch c).controller.desk.current = (c.patch?.getD {}).apply k.desk.current := by
  unfold Desk.current
  rw [settings_dispatch h]
  cases c.patch? with
  | none => rfl
  | some p => exact SettingsStore.current_update _ _

/-- A controller after commands, one after another. -/
def obey (k : Controller σ τ) (commands : List Command) : Controller σ τ :=
  commands.foldl (fun k c => (k.dispatch c).controller) k

theorem obey_cons (k : Controller σ τ) (c : Command) (commands : List Command) :
    k.obey (c :: commands) = (k.dispatch c).controller.obey commands := rfl

end Controller

/-! ## Commands one after another -/

/-- Whether a value is the last that commands give, or the first one if they give none. -/
def LastGiven {α : Type} (gives : Command → α → Prop) (commands : List Command) (first last : α) :
    Prop :=
  (∃ before c after, commands = before ++ c :: after ∧ gives c last ∧
    ∀ c' ∈ after, ∀ x, ¬ gives c' x) ∨
  (∀ c ∈ commands, ∀ x, ¬ gives c x) ∧ last = first

section Run

variable {σ τ α : Type} [Sink τ] {commands : List Command}

/-- One more command in front gives a value that counts only if those behind it give none. -/
theorem LastGiven.cons {gives : Command → α → Prop} {asks : Command → Option α}
    (hasks : ∀ c x, asks c = some x ↔ gives c x) {c : Command} {first last : α}
    (h : LastGiven gives commands ((asks c).getD first) last) : LastGiven gives (c :: commands) first last := by
  rcases h with ⟨before, c', after, rfl, hgives, hafter⟩ | ⟨hnone, hlast⟩
  · exact .inl ⟨c :: before, c', after, rfl, hgives, hafter⟩
  · cases hc : asks c with
    | some x =>
      rw [hc, Option.getD_some] at hlast
      subst hlast
      exact .inl ⟨[], c, commands, rfl, (hasks c last).1 hc, hnone⟩
    | none =>
      rw [hc, Option.getD_none] at hlast
      refine .inr ⟨fun c' hc' x hgives => ?_, hlast⟩
      rcases List.mem_cons.1 hc' with rfl | hc'
      · have hsome := (hasks c' x).2 hgives
        rw [hc] at hsome
        cases hsome
      · exact hnone c' hc' x hgives

/-- **A setting that each command replaces by what it gives is the last value given.** -/
theorem lastGiven_obey {field : Settings → α} {asked : Settings.Patch → Option α}
    {gives : Command → α → Prop} (happly : ∀ p s, field (p.apply s) = (asked p).getD (field s))
    (hnew : asked {} = none) (hasks : ∀ c x, c.patch?.bind asked = some x ↔ gives c x)
    (hrequests : ∀ c ∈ commands, c.request = .changeSettings) (k : Controller σ τ) :
    LastGiven gives commands (field k.desk.current) (field (k.obey commands).desk.current) := by
  induction commands generalizing k with
  | nil => exact .inr ⟨fun c hc => absurd hc List.not_mem_nil, rfl⟩
  | cons c commands ih =>
    have hrest := ih (fun c' hc' => hrequests c' (List.mem_cons_of_mem _ hc')) (k.dispatch c).controller
    have hone : field (k.dispatch c).controller.desk.current =
        (c.patch?.bind asked).getD (field k.desk.current) := by
      rw [Controller.current_dispatch (hrequests c List.mem_cons_self), happly]
      cases c.patch? with
      | none => simp [hnew]
      | some p => rfl
    rw [hone] at hrest
    exact .cons hasks hrest

/-- All but three of the settings stay as they were. -/
theorem frame_obey (hrequests : ∀ c ∈ commands, c.request = .changeSettings) (k : Controller σ τ) :
    (k.obey commands).desk.current = { k.desk.current with
      enableCards := (k.obey commands).desk.current.enableCards
      enableQr := (k.obey commands).desk.current.enableQr
      turnstileId := (k.obey commands).desk.current.turnstileId } := by
  induction commands generalizing k with
  | nil => rfl
  | cons c commands ih =>
    have hrest := ih (fun c' hc' => hrequests c' (List.mem_cons_of_mem _ hc')) (k.dispatch c).controller
    rw [Controller.current_dispatch (hrequests c List.mem_cons_self)] at hrest
    rw [Controller.obey_cons, hrest]
    rfl

/-- A command that changes settings has them stored, if storage works. -/
theorem stored_dispatch {c : Command} (hrequest : c.request = .changeSettings) (k : Controller σ τ)
    (hsaves : k.desk.settings.storage.failsWrite = false) :
    (k.dispatch c).controller.desk.settings.storage.failsWrite = false ∧
    ((∃ ms, c.HasSettings ms) ∨ k.desk.settings.storage.data = some k.desk.current.bytes →
      (k.dispatch c).controller.desk.settings.storage.data =
        some (k.dispatch c).controller.desk.current.bytes) := by
  unfold Desk.current
  rw [Controller.settings_dispatch hrequest]
  cases hpatch : c.patch? with
  | none =>
    refine ⟨hsaves, fun h => ?_⟩
    rcases h with ⟨ms, hms⟩ | hstored
    · exact absurd hms (Command.patch?_eq_none.1 hpatch ms)
    · exact hstored
  | some p =>
    dsimp only
    rw [SettingsStore.update_stored hsaves]
    exact ⟨hsaves, fun _ => rfl⟩

/-- **While storage works, settings that were changed are stored.** -/
theorem stored_obey (hrequests : ∀ c ∈ commands, c.request = .changeSettings) (k : Controller σ τ)
    (hsaves : k.desk.settings.storage.failsWrite = false)
    (hchanged : (∃ c ∈ commands, ∃ ms, c.HasSettings ms) ∨
      k.desk.settings.storage.data = some k.desk.current.bytes) :
    (k.obey commands).desk.settings.storage.data = some (k.obey commands).desk.current.bytes := by
  induction commands generalizing k with
  | nil =>
    rcases hchanged with ⟨c, hc, -⟩ | hstored
    · exact absurd hc List.not_mem_nil
    · exact hstored
  | cons c commands ih =>
    obtain ⟨hsaves', hstored⟩ := stored_dispatch (hrequests c List.mem_cons_self) k hsaves
    refine ih (fun c' hc' => hrequests c' (List.mem_cons_of_mem _ hc')) _ hsaves' ?_
    -- the first command, a later one, or none of them has an object of settings
    rcases hchanged with ⟨c', hc', hms⟩ | hbefore
    · rcases List.mem_cons.1 hc' with rfl | hc'
      · exact .inr (hstored (.inl hms))
      · exact .inl ⟨c', hc', hms⟩
    · exact .inr (hstored (.inr hbefore))

/-- **Commands change three settings only**, whatever is in them, and each of the three is the last
value of its type that a command gave for it in its object of settings, or what it was at first if
none did: a truth value for the switches, and for the identifier of the turnstile a string or the text
of a number. What is in force at the end is stored, if a command had an object of settings; a command
without one changes nothing. -/
theorem remote_settings_last_given (hrequests : ∀ c ∈ commands, c.request = .changeSettings)
    (k : Controller σ τ) (hsaves : k.desk.settings.storage.failsWrite = false) :
    let first := k.desk.current
    let last := (k.obey commands).desk.current
    last = { first with
      enableCards := last.enableCards, enableQr := last.enableQr, turnstileId := last.turnstileId } ∧
    LastGiven Command.GivesCards commands first.enableCards last.enableCards ∧
    LastGiven Command.GivesQr commands first.enableQr last.enableQr ∧
    LastGiven Command.GivesTurnstileId commands first.turnstileId last.turnstileId ∧
    ((∃ c ∈ commands, ∃ ms, c.HasSettings ms) →
      (k.obey commands).desk.settings.storage.data = some last.bytes) ∧
    ∀ c ∈ commands, (∀ ms, ¬ c.HasSettings ms) → ∀ k' : Controller σ τ,
      (k'.dispatch c).controller.desk.settings = k'.desk.settings := by
  intro first last
  refine ⟨frame_obey hrequests k, ?_, ?_, ?_, ?_, ?_⟩
  · exact lastGiven_obey (fun _ _ => rfl) rfl (fun _ => Command.patch?_cards) hrequests k
  · exact lastGiven_obey (fun _ _ => rfl) rfl (fun _ => Command.patch?_qr) hrequests k
  · exact lastGiven_obey (fun _ _ => rfl) rfl (fun _ => Command.patch?_turnstileId) hrequests k
  · intro hchanged
    exact stored_obey hrequests k hsaves (.inl hchanged)
  · intro c hc hnone k'
    exact Controller.settings_dispatch_none (hrequests c hc) hnone k'

end Run

/-- Commands that give values of the right types and of others, one with no object of settings, and
one that is no document. -/
def mixedCommands : List Command :=
  [{ action := "setConfig"
     raw := "\x7b\"config\":\x7b\"enableCards\":true,\"enableQr\":0,\"idTorno\":\"A\",\"deviceId\":\"x\"\x7d\x7d" },
   { action := "setConfig", raw := "\x7b\"config\":\x7b\"enableCards\":\"no\",\"idTorno\":1e2\x7d\x7d" },
   { action := "setConfig", raw := "\x7b\"config\":[false]\x7d" },
   { action := "setConfig", raw := "\x7b\"config\":\x7b\"enableCards\":false\x7d" }]

theorem remote_settings_last_given_mixed :
    (∀ c ∈ mixedCommands, c.request = .changeSettings) ∧
      unequipped.desk.settings.storage.failsWrite = false ∧
      LastGiven Command.GivesCards mixedCommands false true ∧
      LastGiven Command.GivesQr mixedCommands true true ∧
      LastGiven Command.GivesTurnstileId mixedCommands "1" "100.0" ∧
      (unequipped.obey mixedCommands).desk.settings.storage.data =
        some ({ enableCards := true, turnstileId := "100.0" } : Settings).bytes := by
  have hrequests : ∀ c ∈ mixedCommands, c.request = .changeSettings := by decide +kernel
  have hlast : (unequipped.obey mixedCommands).desk.current =
      { enableCards := true, turnstileId := "100.0" } := by decide +kernel
  obtain ⟨-, hcards, hqr, hid, hstored, -⟩ :=
    remote_settings_last_given hrequests unequipped (by rfl)
  rw [hlast] at hcards hqr hid hstored
  -- the first of the commands has an object of settings
  have hchanged : ∃ c ∈ mixedCommands, ∃ ms, c.HasSettings ms := by
    have hpatch : (mixedCommands.head (by decide)).patch? =
        some { enableCards := some true, turnstileId := some "A" } := by decide +kernel
    obtain ⟨ms, hms, -⟩ := Command.patch?_eq_some.1 hpatch
    exact ⟨_, List.head_mem _, ms, hms⟩
  exact ⟨hrequests, rfl, hcards, hqr, hid, hstored hchanged⟩

end Turnstile

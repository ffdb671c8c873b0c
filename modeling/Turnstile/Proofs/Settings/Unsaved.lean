import Turnstile.Proofs.Settings.Changes
import Turnstile.Proofs.Settings.Restart

/-!
# Changes that could not be stored

A change comes into force before it is stored, so one that cannot be stored is in force until the
next start.

* `Settings.Patch.InForce`: all that a change asks for is in force.
* `Settings.Patch.without`: what a change asks for and a later one leaves alone.
* `SettingsStore.IsStored`, `SettingsStore.reload`: the settings in force are stored, for a build to
  read; the settings at the next start.
* `failed_update_harmless_iff`: **a change that could not be stored changes nothing if and only if
  all that it asks for is in force already**; what is acknowledged, what the next start finds and what
  a later change stores agree under the same condition.
* `failed_update_in_force`: a change that could not be stored is acknowledged and in force, lost at the
  next start, and stored with the next change.
-/

namespace Turnstile

/-! ## Changes that change nothing -/

/-- What a change asks for in one setting, unless a later change asks for something in it. -/
def Settings.leftBy {α : Type} (later earlier : Option α) : Option α :=
  match later with
  | none => earlier
  | some _ => none

theorem Settings.getD_getD {α : Type} (later earlier : Option α) (x : α) :
    later.getD (earlier.getD x) = later.getD x ↔ ∀ y, leftBy later earlier = some y → x = y := by
  cases later with
  | some z => simp [leftBy]
  | none => cases earlier <;> simp [leftBy, eq_comm]

namespace Settings.Patch

/-- Whether all that a change asks for is in force. -/
structure InForce (p : Patch) (s : Settings) : Prop where
  enableCards : ∀ b, p.enableCards = some b → s.enableCards = b
  enableQr : ∀ b, p.enableQr = some b → s.enableQr = b
  turnstileId : ∀ id, p.turnstileId = some id → s.turnstileId = id

/-- What a change asks for where a later one asks for nothing. -/
def without (p later : Patch) : Patch where
  enableCards := leftBy later.enableCards p.enableCards
  enableQr := leftBy later.enableQr p.enableQr
  turnstileId := leftBy later.turnstileId p.turnstileId

/-- **A change leaves no trace under a later one** if and only if all that it asks for in other
settings is in force already. -/
theorem apply_apply_iff (p later : Patch) (s : Settings) :
    later.apply (p.apply s) = later.apply s ↔ (p.without later).InForce s := by
  constructor
  · intro h
    have hcards := congrArg Settings.enableCards h
    have hqr := congrArg Settings.enableQr h
    have hid := congrArg Settings.turnstileId h
    exact ⟨(getD_getD _ _ _).1 hcards, (getD_getD _ _ _).1 hqr, (getD_getD _ _ _).1 hid⟩
  · intro h
    have hcards := (getD_getD _ _ _).2 h.enableCards
    have hqr := (getD_getD _ _ _).2 h.enableQr
    have hid := (getD_getD _ _ _).2 h.turnstileId
    simp only [apply, Settings.mk.injEq, true_and, and_true]
    exact ⟨hid, hcards, hqr⟩

/-- **A change changes nothing** if and only if all that it asks for is in force already. -/
theorem apply_iff (p : Patch) (s : Settings) : p.apply s = s ↔ p.InForce s :=
  apply_apply_iff p {} s

end Settings.Patch

/-! ## The next start -/

namespace SettingsStore

variable {s : SettingsStore} {build : Build}

/-- Whether the settings in force are stored, for a build to read. -/
def IsStored (s : SettingsStore) (build : Build) : Prop :=
  ∃ bs, s.storage.data = some bs ∧ Settings.ofBytes bs build = .ok s.current

/-- The settings at the next start, with storage that can be read then. -/
def reload (s : SettingsStore) (build : Build) (fails : Bool) : Settings :=
  (load { s.storage with failsRead := false, failsWrite := fails } build).1.current

theorem reload_of_stored {bs : Bytes} {settings : Settings} (hdata : s.storage.data = some bs)
    (hread : Settings.ofBytes bs build = .ok settings) (fails : Bool) :
    s.reload build fails = settings := by
  have hstored : (stored? { s.storage with failsRead := false, failsWrite := fails } build).1 =
      some settings := stored?_eq_some.2 ⟨rfl, bs, hdata, hread⟩
  rw [reload, load_of_stored hstored]

/-- What is stored is found at the next start, whatever is in force. -/
theorem IsStored.reload (h : s.IsStored build) (current : Settings) (fails : Bool) :
    (SettingsStore.mk current s.storage).reload build fails = s.current := by
  obtain ⟨bs, hdata, hread⟩ := h
  exact reload_of_stored (s := ⟨current, s.storage⟩) hdata hread fails

theorem IsStored.representable (h : s.IsStored build) : s.current.Representable := by
  obtain ⟨bs, -, hread⟩ := h
  exact Settings.representable_of_ofBytes hread

/-- What a change put in force is found at the next start, if it could be stored. -/
theorem reload_update (hrepresentable : s.current.Representable) (hsaves : s.storage.failsWrite = false)
    (p : Settings.Patch) (build : Build) (fails : Bool) :
    (s.update p.apply).2.1.reload build fails = p.apply s.current := by
  rw [update_stored hsaves]
  exact reload_of_stored rfl ((Settings.ofBytes_bytes_iff _ build).2 (hrepresentable.apply p)) fails

end SettingsStore

section Failure

variable {σ τ : Type} [Sink τ]

/-- **A change that could not be stored changes nothing if and only if all that it asks for is in force
already.** It always ends with an error, and storage always stays as it was; but the settings in force
are those with the change. A command to change settings acknowledges these. If the settings before
were stored, the next start finds them again, so that it finds what was acknowledged under the same
condition; and a later change that is stored leaves no trace of the one that failed if and only if
all that this one asked for, and the later one does not, was in force already. -/
theorem failed_update_harmless_iff {s : SettingsStore} (hfails : s.storage.failsWrite = true)
    (p : Settings.Patch) :
    let after : SettingsStore := ⟨p.apply s.current, s.storage⟩
    s.update p.apply = (.error .writeFailed, after, []) ∧
    (after = s ↔ p.InForce s.current) ∧
    (∀ (k : Controller σ (Recorder τ)) (c : Command) (request : SettingsRequest),
      k.desk.settings = s → c.request = .changeSettings →
      SettingsRequest.ofText noRequestId c.raw = .ok request → request.patch = some p →
      ∃ k' v, k.dispatch c = .done k' ∧ k'.desk.settings = after ∧ k'.desk.outbox.sent =
        k.desk.outbox.sent ++ [(after.current.acknowledgement request.requestId, v)]) ∧
    (∀ build, s.IsStored build → ∀ fails, after.reload build fails = s.current ∧
      (after.current = after.reload build fails ↔ p.InForce s.current) ∧
      ∀ q : Settings.Patch,
        let later : SettingsStore := ⟨after.current, { after.storage with failsWrite := false }⟩
        (later.update q.apply).1 = .ok () ∧
        ((later.update q.apply).2.1.reload build fails = q.apply s.current ↔
          (p.without q).InForce s.current)) := by
  intro after
  have hupdate : s.update p.apply = (.error .writeFailed, after, []) :=
    SettingsStore.update_unstored hfails p.apply
  refine ⟨hupdate, ?_, ?_, ?_⟩
  · rw [← p.apply_iff s.current]
    constructor
    · intro h
      exact congrArg SettingsStore.current h
    · intro h
      show SettingsStore.mk (p.apply s.current) s.storage = s
      rw [h]
  · intro k c request hs hrequest hread hpatch
    have hdispatch := Controller.dispatch_changeSettings hrequest k
    have hasks : c.patch? = some p := by
      rw [Command.patch?, hread]
      exact hpatch
    have hsettings : ((k.noted c).changeSettings c.raw).desk.settings = after := by
      have h := Controller.settings_dispatch hrequest k
      rw [hdispatch, hasks, hs] at h
      exact h.trans (congrArg (·.2.1) hupdate)
    obtain ⟨v, hsent⟩ := Controller.changeSettings_ok hread (k.noted c)
    refine ⟨_, v, hdispatch, hsettings, ?_⟩
    rw [hsent, Desk.current, hsettings]
    rfl
  · intro build hstored fails
    have hreload : after.reload build fails = s.current := hstored.reload _ fails
    refine ⟨hreload, ?_, ?_⟩
    · rw [hreload]
      exact p.apply_iff s.current
    · intro q later
      have hrepresentable : later.current.Representable := hstored.representable.apply p
      refine ⟨congrArg (·.1) (SettingsStore.update_stored rfl q.apply), ?_⟩
      rw [SettingsStore.reload_update hrepresentable rfl]
      exact p.apply_apply_iff q s.current

end Failure

/-- New settings that are stored, with storage that takes no more. -/
def fullStore : SettingsStore :=
  ⟨{}, { data := some ({} : Settings).bytes, failsWrite := true }⟩

theorem isStored_fullStore (build : Build) : fullStore.IsStored build :=
  ⟨_, rfl, (Settings.ofBytes_bytes_iff {} build).2 (Settings.representable_new {})⟩

/-- A command to switch cards on. -/
def cardsOnCommand : Command where
  action := "setConfig"
  requestId := "p1"
  raw := "\x7b\"config\":\x7b\"enableCards\":true\x7d,\"idPeticion\":\"p1\"\x7d"

/-- A change that could not be stored is acknowledged, it is not what the next start finds, and it
leaves no trace if it is taken back; one that asks for what is in force changes nothing. -/
theorem failed_update_harmless_iff_cards :
    fullStore.storage.failsWrite = true ∧ fullStore.IsStored sideGate ∧
      (fullStore.update (Settings.Patch.apply { enableQr := some true })).2.1 = fullStore ∧
      (∃ k' v, { unequipped with desk := { unequipped.desk with settings := fullStore } }.dispatch
          cardsOnCommand = .done k' ∧ k'.desk.outbox.sent =
            [(Settings.acknowledgement { enableCards := true } "p1", v)]) ∧
      (SettingsStore.mk { enableCards := true } fullStore.storage).reload sideGate false = {} ∧
      ((SettingsStore.mk { enableCards := true } { fullStore.storage with failsWrite := false }).update
        (Settings.Patch.apply { enableCards := some false })).2.1.reload sideGate false = {} := by
  have hfails : fullStore.storage.failsWrite = true := rfl
  obtain ⟨hsame, hiff, -⟩ := failed_update_harmless_iff (σ := Unit) (τ := Outbox) hfails
    { enableQr := some true }
  obtain ⟨-, -, hsent, hnext⟩ := failed_update_harmless_iff (σ := Unit) (τ := Outbox) hfails
    { enableCards := some true }
  refine ⟨hfails, isStored_fullStore sideGate, ?_, ?_, ?_, ?_⟩
  · rw [hsame]
    exact hiff.2 ⟨nofun, fun b hb => Option.some.inj hb, nofun⟩
  · have hread : SettingsRequest.ofText noRequestId cardsOnCommand.raw =
        .ok ⟨some { enableCards := some true }, "p1"⟩ := Json.ok_of_toOption (by decide +kernel)
    obtain ⟨k', v, hdone, -, hk'⟩ := hsent
      { unequipped with desk := { unequipped.desk with settings := fullStore } } cardsOnCommand _ rfl
      (by decide +kernel) hread rfl
    exact ⟨k', v, hdone, hk'⟩
  · exact (hnext sideGate (isStored_fullStore sideGate) false).1
  · obtain ⟨-, htrace⟩ := (hnext sideGate (isStored_fullStore sideGate) false).2.2
      { enableCards := some false }
    exact htrace.2 ⟨nofun, nofun, nofun⟩

/-- **A change that could not be stored is in force**, the next start loses it, and the next change that
is stored stores it as well. -/
theorem failed_update_in_force :
    fullStore.storage.failsWrite = true ∧ fullStore.IsStored {} ∧
      let cardsOn := fullStore.update (Settings.Patch.apply { enableCards := some true })
      cardsOn.1 = .error .writeFailed ∧ cardsOn.2.1.storage = fullStore.storage ∧
      cardsOn.2.1.current ≠ fullStore.current ∧ cardsOn.2.1.current ≠ cardsOn.2.1.reload {} false ∧
      (SettingsStore.update ⟨cardsOn.2.1.current, { cardsOn.2.1.storage with failsWrite := false }⟩
        (Settings.Patch.apply { enableQr := some false })).2.1.storage.data =
          some ({ enableCards := true, enableQr := false } : Settings).bytes := by
  have hcardsOn := SettingsStore.update_unstored (s := fullStore) rfl
    (Settings.Patch.apply { enableCards := some true })
  have hreload : (SettingsStore.mk (Settings.Patch.apply { enableCards := some true } fullStore.current)
      fullStore.storage).reload {} false = fullStore.current := (isStored_fullStore {}).reload _ false
  refine ⟨rfl, isStored_fullStore {}, ?_⟩
  rw [hcardsOn]
  refine ⟨rfl, rfl, by decide, ?_, ?_⟩
  · intro h
    exact absurd (h.trans hreload) (by decide)
  · rw [SettingsStore.update_stored rfl]
    rfl

end Turnstile

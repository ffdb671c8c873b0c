import Turnstile.Proofs.Json.Written
import Turnstile.Settings.Store

/-!
# Settings across a restart

What is in force after a restart is what was in force before it, if that was stored.

* `Settings.Representable`: settings whose integers are in the range of their types.
* `Settings.representable_of_ofBytes`: what is read from octets is representable.
* `Settings.ofBytes_bytes_iff`: **what is stored of representable settings is read back**, by every
  build.
* `Kept`: settings in force over a time, and whether the last save succeeded.
* `settings_survive_restart`: **settings whose last save succeeded, or that were read and never
  changed, are in force after a restart.**
-/

namespace Turnstile

open Json (Reader Field TakesFields Takes)

/-! ## Settings that have a stored form -/

/-- Whether an integer is one of 32 bits. -/
def IsInt32 (n : Int) : Prop :=
  Text.int32Min ≤ n ∧ n ≤ Text.int32Max

structure ReaderPins.Representable (p : ReaderPins) : Prop where
  mosi : IsInt32 p.mosi
  miso : IsInt32 p.miso
  sck : IsInt32 p.sck
  selectIn : IsInt32 p.selectIn
  resetIn : IsInt32 p.resetIn
  selectOut : IsInt32 p.selectOut
  resetOut : IsInt32 p.resetOut

structure OutputPins.Representable (p : OutputPins) : Prop where
  relayIn : IsInt32 p.relayIn
  relayOut : IsInt32 p.relayOut
  buzzer : IsInt32 p.buzzer

structure ScannerPort.Representable (p : ScannerPort) : Prop where
  port : p.port ≤ maxNat8
  baud : p.baud ≤ maxNat32
  tx : IsInt32 p.tx
  rx : IsInt32 p.rx

structure Timing.Representable (t : Timing) : Prop where
  relay : t.relay ≤ maxNat32
  buzzer : t.buzzer ≤ maxNat32
  buzzerGap : t.buzzerGap ≤ maxNat32
  push : t.push ≤ maxNat32
  materialDoor : t.materialDoor ≤ maxNat32

/-- Settings whose integers are in the range of their types. -/
structure Settings.Representable (s : Settings) : Prop where
  readers : s.readers.Representable
  outputs : s.outputs.Representable
  scanner : s.scanner.Representable
  timing : s.timing.Representable

instance (n : Int) : Decidable (IsInt32 n) :=
  inferInstanceAs (Decidable (_ ∧ _))

theorem ReaderPins.representable_new : ({} : ReaderPins).Representable :=
  ⟨by decide, by decide, by decide, by decide, by decide, by decide, by decide⟩

theorem OutputPins.representable_new : ({} : OutputPins).Representable :=
  ⟨by decide, by decide, by decide⟩

theorem ScannerPort.representable_new : ({} : ScannerPort).Representable :=
  ⟨by decide, by decide, by decide, by decide⟩

theorem Timing.representable_new : ({} : Timing).Representable :=
  ⟨by decide, by decide, by decide, by decide, by decide⟩

/-- New settings are representable, whatever their program was built with. -/
theorem Settings.representable_new (build : Build) : (Settings.new build).Representable :=
  ⟨ReaderPins.representable_new, OutputPins.representable_new, ScannerPort.representable_new,
    Timing.representable_new⟩

/-- A change touches no integers. -/
theorem Settings.Representable.apply {s : Settings} (h : s.Representable) (p : Settings.Patch) :
    (p.apply s).Representable :=
  ⟨h.readers, h.outputs, h.scanner, h.timing⟩

/-! ## What is read is representable -/

theorem starting_ok {α : Type} {starts : UInt8 → Bool} {reader : Bytes → Except Json.Fault (α × Bytes)}
    {bs : Bytes} {x : α × Bytes} (h : Json.starting starts reader bs = .ok x) :
    ∃ b tail, Json.Octet.skipSpace bs = b :: tail ∧ starts b = true ∧ reader (b :: tail) = .ok x := by
  rw [Json.starting] at h
  cases hskip : Json.Octet.skipSpace bs with
  | nil => rw [hskip] at h; cases h
  | cons b tail =>
    rw [hskip] at h
    dsimp only at h
    split at h
    · exact ⟨b, tail, rfl, ‹_›, h⟩
    · cases h

theorem int_yields {low high : Int} (hlow : low ≤ 0) (hhigh : 0 ≤ high) :
    (Reader.int low high).Yields fun n => low ≤ n ∧ n ≤ high := by
  intro depth bs n rest h
  obtain ⟨b, tail, -, -, hread⟩ := starting_ok h
  split at hread
  · cases hread
  · split at hread
    · cases hread
      omega
    · cases hread
  · split at hread
    · cases hread
      omega
    · cases hread
  · cases hread

theorem int32_yields : Reader.int32.Yields IsInt32 :=
  int_yields (by decide) (by decide)

theorem nat_yields (high : Nat) : (Reader.nat high).Yields (· ≤ high) := by
  intro depth bs n rest h
  obtain ⟨m, after, hm, heq⟩ := Reader.map_ok h
  cases heq
  have hrange := int_yields (Int.le_refl 0) (by omega) depth bs m rest hm
  omega

theorem ReaderPins.yields : (Json.record ReaderPins.fields {}).Yields ReaderPins.Representable := by
  refine Json.record_keeps ?_ representable_new
  simp only [ReaderPins.fields, List.forall_mem_cons, List.mem_nil_iff, false_implies, implies_true,
    and_true]
  refine ⟨?_, ?_, ?_, ?_, ?_, ?_, ?_⟩
  · exact int32_yields.keeps _ fun p n hp hn => { hp with mosi := hn }
  · exact int32_yields.keeps _ fun p n hp hn => { hp with miso := hn }
  · exact int32_yields.keeps _ fun p n hp hn => { hp with sck := hn }
  · exact int32_yields.keeps _ fun p n hp hn => { hp with selectIn := hn }
  · exact int32_yields.keeps _ fun p n hp hn => { hp with resetIn := hn }
  · exact int32_yields.keeps _ fun p n hp hn => { hp with selectOut := hn }
  · exact int32_yields.keeps _ fun p n hp hn => { hp with resetOut := hn }

theorem OutputPins.yields : (Json.record OutputPins.fields {}).Yields OutputPins.Representable := by
  refine Json.record_keeps ?_ representable_new
  simp only [OutputPins.fields, List.forall_mem_cons, List.mem_nil_iff, false_implies, implies_true,
    and_true]
  refine ⟨?_, ?_, ?_⟩
  · exact int32_yields.keeps _ fun p n hp hn => { hp with relayIn := hn }
  · exact int32_yields.keeps _ fun p n hp hn => { hp with relayOut := hn }
  · exact int32_yields.keeps _ fun p n hp hn => { hp with buzzer := hn }

theorem ScannerPort.yields : (Json.record ScannerPort.fields {}).Yields ScannerPort.Representable := by
  refine Json.record_keeps ?_ representable_new
  simp only [ScannerPort.fields, List.forall_mem_cons, List.mem_nil_iff, false_implies, implies_true,
    and_true]
  refine ⟨?_, ?_, ?_, ?_⟩
  · exact (nat_yields maxNat8).keeps _ fun p n hp hn => { hp with port := hn }
  · exact (nat_yields maxNat32).keeps _ fun p n hp hn => { hp with baud := hn }
  · exact int32_yields.keeps _ fun p n hp hn => { hp with tx := hn }
  · exact int32_yields.keeps _ fun p n hp hn => { hp with rx := hn }

theorem Timing.yields : (Json.record Timing.fields {}).Yields Timing.Representable := by
  refine Json.record_keeps ?_ representable_new
  simp only [Timing.fields, List.forall_mem_cons, List.mem_nil_iff, false_implies, implies_true,
    and_true]
  refine ⟨?_, ?_, ?_, ?_, ?_⟩
  · exact (nat_yields maxNat32).keeps _ fun t n ht hn => { ht with relay := hn }
  · exact (nat_yields maxNat32).keeps _ fun t n ht hn => { ht with buzzer := hn }
  · exact (nat_yields maxNat32).keeps _ fun t n ht hn => { ht with buzzerGap := hn }
  · exact (nat_yields maxNat32).keeps _ fun t n ht hn => { ht with push := hn }
  · exact (nat_yields maxNat32).keeps _ fun t n ht hn => { ht with materialDoor := hn }

namespace Settings

theorem yields (build : Build) : (Json.record fields (new build)).Yields Representable := by
  refine Json.record_keeps ?_ (representable_new build)
  simp only [fields, List.forall_mem_cons, List.mem_nil_iff, false_implies, implies_true,
    and_true]
  refine ⟨?_, ?_, ?_, ?_, ?_, ?_, ?_, ?_, ?_, ?_, ?_, ?_, ?_, ?_, ?_⟩
  case refine_11 => exact ReaderPins.yields.keeps _ fun s x hs hx => { hs with readers := hx }
  case refine_12 => exact OutputPins.yields.keeps _ fun s x hs hx => { hs with outputs := hx }
  case refine_13 => exact ScannerPort.yields.keeps _ fun s x hs hx => { hs with scanner := hx }
  case refine_15 => exact Timing.yields.keeps _ fun s x hs hx => { hs with timing := hx }
  all_goals exact Field.keeps_of _ _ fun s x hs => ⟨hs.readers, hs.outputs, hs.scanner, hs.timing⟩

/-- What is read from octets is representable. -/
theorem representable_of_ofBytes {bs : Bytes} {build : Build} {s : Settings}
    (h : ofBytes bs build = .ok s) : s.Representable := by
  obtain ⟨rest, hrecord, -⟩ := Json.read_ok.1 h
  exact yields build Json.maxNesting bs s rest hrecord

end Settings

/-! ## What is representable is read back -/

section Written

variable {depth : Nat}

theorem IsInt32.written {n : Int} (h : IsInt32 n) : Takes (Reader.int32 depth) (.ofInt n) n :=
  Json.int32_written h.1 h.2

theorem ReaderPins.Representable.written {p : ReaderPins} (h : p.Representable) :
    Takes (Json.record ReaderPins.fields {} (depth + 1)) p.toJson p :=
  Json.record_written (by decide) <|
    .cons (h.mosi.written.field _ _ _) <| .cons (h.miso.written.field _ _ _) <|
    .cons (h.sck.written.field _ _ _) <| .cons (h.selectIn.written.field _ _ _) <|
    .cons (h.resetIn.written.field _ _ _) <| .cons (h.selectOut.written.field _ _ _) <|
    .cons (h.resetOut.written.field _ _ _) <| .nil p

theorem OutputPins.Representable.written {p : OutputPins} (h : p.Representable) :
    Takes (Json.record OutputPins.fields {} (depth + 1)) p.toJson p :=
  Json.record_written (by decide) <|
    .cons (h.relayIn.written.field _ _ _) <| .cons (h.relayOut.written.field _ _ _) <|
    .cons (h.buzzer.written.field _ _ _) <| .nil p

theorem ScannerPort.Representable.written {p : ScannerPort} (h : p.Representable) :
    Takes (Json.record ScannerPort.fields {} (depth + 1)) p.toJson p :=
  Json.record_written (by decide) <|
    .cons ((Json.nat_written h.port (by decide)).field _ _ _) <|
    .cons ((Json.nat_written h.baud (by decide)).field _ _ _) <|
    .cons (h.tx.written.field _ _ _) <| .cons (h.rx.written.field _ _ _) <| .nil p

theorem Polarity.written (p : Polarity) :
    Takes (Json.record Polarity.fields {} (depth + 1)) p.toJson p :=
  Json.record_written (by decide) <|
    .cons ((Json.bool_written _).field _ _ _) <| .cons ((Json.bool_written _).field _ _ _) <|
    .cons ((Json.bool_written _).field _ _ _) <| .cons ((Json.bool_written _).field _ _ _) <|
    .cons ((Json.bool_written _).field _ _ _) <| .cons ((Json.bool_written _).field _ _ _) <|
    .cons ((Json.bool_written _).field _ _ _) <| .nil p

theorem Timing.Representable.written {t : Timing} (h : t.Representable) :
    Takes (Json.record Timing.fields {} (depth + 1)) t.toJson t :=
  Json.record_written (by decide) <|
    .cons ((Json.nat_written h.relay (by decide)).field _ _ _) <|
    .cons ((Json.nat_written h.buzzer (by decide)).field _ _ _) <|
    .cons ((Json.nat_written h.buzzerGap (by decide)).field _ _ _) <|
    .cons ((Json.nat_written h.push (by decide)).field _ _ _) <|
    .cons ((Json.nat_written h.materialDoor (by decide)).field _ _ _) <| .nil t

/-- Every field is written, so nothing of what a reader starts from is left. -/
theorem Settings.Representable.written {s : Settings} (h : s.Representable) (start : Settings) :
    Takes (Json.record Settings.fields start (depth + 2)) s.toJson s :=
  Json.record_written (by decide) <|
    .cons ((Json.text_written _).field _ _ _) <| .cons ((Json.text_written _).field _ _ _) <|
    .cons ((Json.text_written _).field _ _ _) <| .cons ((Json.bool_written _).field _ _ _) <|
    .cons ((Json.bool_written _).field _ _ _) <| .cons ((Json.text_written _).field _ _ _) <|
    .cons ((Json.text_written _).field _ _ _) <| .cons ((Json.text_written _).field _ _ _) <|
    .cons ((Json.text_written _).field _ _ _) <| .cons ((Json.text_written _).field _ _ _) <|
    .cons (h.readers.written.field _ _ _) <| .cons (h.outputs.written.field _ _ _) <|
    .cons (h.scanner.written.field _ _ _) <| .cons (s.polarity.written.field _ _ _) <|
    .cons (h.timing.written.field _ _ _) <| .nil s

/-- **What is stored of representable settings is read back**, and of no others, by every build. -/
theorem Settings.ofBytes_bytes_iff (s : Settings) (build : Build) :
    ofBytes s.bytes build = .ok s ↔ s.Representable :=
  ⟨representable_of_ofBytes, fun h => Takes.read (h.written (new build))⟩

end Written

/-! ## Settings over a time -/

/-- A change of settings, and whether storing them fails this time. -/
structure Change where
  patch : Settings.Patch
  fails : Bool := false
deriving DecidableEq, Repr

/-- Settings in force over a time. -/
structure Kept where
  store : SettingsStore
  /-- Whether the last save succeeded, or there was none because the settings were read. -/
  settled : Bool
deriving DecidableEq, Repr

namespace Kept

/-- The settings at start: those that are stored, or new ones, which are saved. -/
def load (storage : Storage) (build : Build) : Kept where
  store := (SettingsStore.load storage build).1
  settled := (SettingsStore.stored? storage build).1.isSome ||
    (SettingsStore.save ⟨.new build, storage⟩).isOk

/-- The settings after a change. -/
def change (k : Kept) (c : Change) : Kept :=
  let (outcome, store, _) :=
    SettingsStore.update ⟨k.store.current, { k.store.storage with failsWrite := c.fails }⟩ c.patch.apply
  ⟨store, outcome.isOk⟩

/-- The settings after changes, one after another. -/
def run (storage : Storage) (build : Build) (changes : List Change) : Kept :=
  changes.foldl change (load storage build)

/-- The settings at the next start, of the same build or another one, with storage that can be read
then. -/
def restart (k : Kept) (build : Build) (fails : Bool) : SettingsStore :=
  (SettingsStore.load { k.store.storage with failsRead := false, failsWrite := fails } build).1

/-- Settings after an attempt to save them. -/
def attempt (s : SettingsStore) : Kept :=
  match s.save with
  | .ok saved => ⟨saved, true⟩
  | .error _ => ⟨s, false⟩

/-- What is true of settings over a time: they are representable, and stored for a build to read if
they are settled. -/
structure Agrees (k : Kept) (build : Build) : Prop where
  representable : k.store.current.Representable
  stored : k.settled = true →
    ∃ bs, k.store.storage.data = some bs ∧ Settings.ofBytes bs build = .ok k.store.current

end Kept

section Stored

variable {storage : Storage} {build : Build} {settings : Settings}

theorem SettingsStore.stored?_eq_some : (stored? storage build).1 = some settings ↔
    storage.failsRead = false ∧
      ∃ bs, storage.data = some bs ∧ Settings.ofBytes bs build = .ok settings := by
  rw [stored?, Storage.read]
  cases storage.failsRead with
  | true => simp
  | false =>
    cases storage.data with
    | none => simp
    | some bs => cases hread : Settings.ofBytes bs build <;> simp [hread]

/-- Stored settings are those at start. -/
theorem SettingsStore.load_of_stored (h : (stored? storage build).1 = some settings) :
    (load storage build).1 = ⟨settings, storage⟩ := by
  rw [load]
  split
  · next heq =>
    rw [heq] at h
    cases h
    rfl
  · next heq =>
    rw [heq] at h
    cases h

/-- Without stored settings, new ones are saved at start. -/
theorem Kept.load_of_unstored (h : (SettingsStore.stored? storage build).1 = none) :
    Kept.load storage build = attempt ⟨.new build, storage⟩ := by
  rw [Kept.load, attempt, SettingsStore.load, h]
  split
  · next heq =>
    rw [heq] at h
    cases h
  · dsimp only
    cases SettingsStore.save ⟨.new build, storage⟩ <;> rfl

end Stored

namespace Kept

variable {k : Kept}

theorem change_eq (k : Kept) (c : Change) : k.change c =
    attempt ⟨c.patch.apply k.store.current, { k.store.storage with failsWrite := c.fails }⟩ := by
  rw [change, attempt, SettingsStore.update]
  dsimp only
  cases SettingsStore.save _ <;> rfl

/-- What is saved can be read back by every build. -/
theorem attempt_agrees {s : SettingsStore} (h : s.current.Representable) (build : Build) :
    (attempt s).Agrees build := by
  rw [attempt, SettingsStore.save, Storage.write]
  cases s.storage.failsWrite with
  | true => exact ⟨h, fun hsettled => nomatch hsettled⟩
  | false => exact ⟨h, fun _ => ⟨s.current.bytes, rfl, (Settings.ofBytes_bytes_iff s.current build).2 h⟩⟩

theorem load_agrees (storage : Storage) (build : Build) : (load storage build).Agrees build := by
  cases hstored : (SettingsStore.stored? storage build).1 with
  | some settings =>
    obtain ⟨-, bs, hdata, hread⟩ := SettingsStore.stored?_eq_some.1 hstored
    have hload : (load storage build).store = ⟨settings, storage⟩ := SettingsStore.load_of_stored hstored
    constructor
    · rw [hload]
      exact Settings.representable_of_ofBytes hread
    · intro _
      rw [hload]
      exact ⟨bs, hdata, hread⟩
  | none =>
    rw [load_of_unstored hstored]
    exact attempt_agrees (Settings.representable_new build) build

theorem change_agrees (h : k.store.current.Representable) (c : Change) (build : Build) :
    (k.change c).Agrees build := by
  rw [change_eq]
  exact attempt_agrees (h.apply c.patch) build

/-- **Settings stay representable, and stored while they are settled**: for the build that read them
at start, and from the first change on for every other one. -/
theorem run_agrees (storage : Storage) {build later : Build} {changes : List Change}
    (hbuild : changes = [] → later = build) : (run storage build changes).Agrees later := by
  rw [run]
  have hstart := load_agrees storage build
  generalize load storage build = k at hstart ⊢
  -- A change stores all settings, so what was read before it with one build agrees with any other.
  induction changes generalizing k build with
  | nil =>
    rw [hbuild rfl]
    exact hstart
  | cons c changes ih => exact ih (fun _ => rfl) (k.change c) (change_agrees hstart.representable c later)

end Kept

theorem Kept.restart_of_stored {k : Kept} {build : Build} {bs : Bytes} {settings : Settings}
    (hdata : k.store.storage.data = some bs) (hread : Settings.ofBytes bs build = .ok settings)
    (fails : Bool) : (k.restart build fails).current = settings := by
  have hstored : (SettingsStore.stored?
      { k.store.storage with failsRead := false, failsWrite := fails } build).1 = some settings :=
    SettingsStore.stored?_eq_some.2 ⟨rfl, bs, hdata, hread⟩
  rw [restart, SettingsStore.load_of_stored hstored]

/-- **Settings survive a restart** if the last save succeeded, or if they were read at start and never
changed: whatever was stored at first, whichever saves failed before, and whatever the program was
built with. Once they were changed they survive one with another build as well. What is stored of
settings is read back, whatever characters their strings hold. -/
theorem settings_survive_restart (storage : Storage) (build : Build) (changes : List Change)
    (fails : Bool) :
    ((Kept.run storage build changes).settled = true → ∀ later, (changes = [] → later = build) →
      ((Kept.run storage build changes).restart later fails).current =
        (Kept.run storage build changes).store.current) ∧
    ∀ (s : Settings) (later : Build), s.Representable ↔ Settings.ofBytes s.bytes later = .ok s := by
  constructor
  · intro hsettled later hlater
    obtain ⟨bs, hdata, hread⟩ := (Kept.run_agrees storage hlater).stored hsettled
    exact Kept.restart_of_stored hdata hread fails
  · intro s later
    exact (Settings.ofBytes_bytes_iff s later).symm

/-- Storage with some of the settings only. -/
def partialStorage : Storage where
  data := some (Utf8.encode "\x7b\"deviceId\":\"t\\n\\u00e9\",\"timing\":\x7b\"pushMs\":7\x7d\x7d")

/-- A change that is not stored, and one of characters that are escaped and of many octets. -/
def laterChanges : List Change :=
  [⟨{ enableCards := some true }, true⟩, ⟨{ turnstileId := some "\"\\\n\x01é😀" }, false⟩]

/-- A build for a gate of its own. -/
def sideGate : Build where
  deviceId := "SIDE"
  topicRoot := "/gym"

theorem settings_survive_restart_escaped :
    (Kept.run partialStorage sideGate laterChanges).settled = true ∧
      (laterChanges = [] → ({} : Build) = sideGate) ∧
      ((Kept.run partialStorage sideGate laterChanges).restart {} true).current =
        { deviceId := "t\né", deviceName := "SIDE", topicRoot := "/gym",
          turnstileId := "\"\\\n\x01é😀", enableCards := true, timing := { push := 7 } } := by
  have hsettled : (Kept.run partialStorage sideGate laterChanges).settled = true := by decide +kernel
  have hchanged : laterChanges = [] → ({} : Build) = sideGate := nofun
  refine ⟨hsettled, hchanged, ?_⟩
  rw [(settings_survive_restart partialStorage sideGate laterChanges true).1 hsettled {} hchanged]
  decide +kernel

end Turnstile

import Turnstile.Log
import Turnstile.Settings.Format

/-!
# Kept settings

The settings in force and the storage that they are kept in.

* `Storage.read`, `Storage.write`: storage, which may fail.
* `SettingsStore.load`: the settings at start, new ones if none can be read.
* `SettingsStore.update`: a change comes into force first and is stored then, so that
  one that cannot be stored is in force all the same.
-/

namespace Turnstile

/-- Which access to storage failed. -/
inductive StorageError where
  | readFailed
  | writeFailed
deriving DecidableEq, Repr

/-- The text of a storage error. -/
def StorageError.message : StorageError → String
  | .readFailed => "config storage: read failed"
  | .writeFailed => "config storage: write failed"

/-- Storage for settings. -/
structure Storage where
  data : Option Bytes := none
  failsRead : Bool := false
  failsWrite : Bool := false
  /-- How often data were stored. -/
  writes : Nat := 0
deriving DecidableEq, Repr

namespace Storage

/-- The stored octets, if there are any. -/
def read (s : Storage) : Except StorageError (Option Bytes) :=
  if s.failsRead then .error .readFailed else .ok s.data

/-- Stores octets in place of those before. -/
def write (s : Storage) (bs : Bytes) : Except StorageError Storage :=
  if s.failsWrite then .error .writeFailed
  else .ok { s with data := some bs, writes := s.writes + 1 }

end Storage

/-- The settings in force and where they are kept. -/
structure SettingsStore where
  current : Settings
  storage : Storage
deriving DecidableEq, Repr

namespace SettingsStore

/-- Stores the settings in force. -/
def save (s : SettingsStore) : Except StorageError SettingsStore :=
  (s.storage.write s.current.bytes).map fun storage => { s with storage }

/-- Puts the result of a change in force and stores it. -/
def update (s : SettingsStore) (change : Settings → Settings) :
    Except StorageError Unit × SettingsStore × List Entry :=
  let changed := { s with current := change s.current }
  match changed.save with
  | .ok saved => (.ok (), saved, [⟨.info, "Config saved"⟩])
  | .error e => (.error e, changed, [])

/-- The settings that storage holds, or why there are none. -/
def stored? (storage : Storage) (build : Build := {}) : Option Settings × Entry :=
  match storage.read with
  | .ok (some bs) =>
    match Settings.ofBytes bs build with
    | .ok settings => (some settings, ⟨.info, "Config loaded from storage"⟩)
    | .error fault => (none, ⟨.warn, s!"Stored config unreadable ({fault.label}), using defaults"⟩)
  | .ok none => (none, ⟨.warn, "No stored config, using defaults"⟩)
  | .error e => (none, ⟨.warn, s!"Config storage read failed: {e.message}"⟩)

/-- The settings at start. New ones are stored at once. -/
def load (storage : Storage) (build : Build := {}) : SettingsStore × List Entry :=
  match stored? storage build with
  | (some settings, entry) => (⟨settings, storage⟩, [entry])
  | (none, entry) =>
    let fresh : SettingsStore := ⟨.new build, storage⟩
    match fresh.save with
    | .ok saved => (saved, [entry, ⟨.info, "Config saved"⟩])
    | .error e => (fresh, [entry, ⟨.error, s!"Saving default config failed: {e.message}"⟩])

end SettingsStore

end Turnstile

/-!
# Log

What the controller reports about itself: entries of four levels, kept in the
order in which they were made.

* `Journal.entries`: the entries, oldest first.
* `Journal.entries_note`: a note is the last entry.
-/

namespace Turnstile

/-- How important a log entry is. -/
inductive Level where
  | error
  | warn
  | info
  | debug
deriving DecidableEq, Repr

/-- The name of a level as it is printed. -/
def Level.label : Level → String
  | .error => "ERROR"
  | .warn => "WARN"
  | .info => "INFO"
  | .debug => "DEBUG"

/-- One line of the log. -/
structure Entry where
  level : Level
  text : String
deriving DecidableEq, Repr

/-- The log so far, newest entry first. -/
structure Journal where
  newest : List Entry := []
deriving DecidableEq, Repr

namespace Journal

/-- The entries, oldest first. -/
def entries (j : Journal) : List Entry :=
  j.newest.reverse

/-- Adds one entry. -/
def note (j : Journal) (level : Level) (text : String) : Journal :=
  ⟨⟨level, text⟩ :: j.newest⟩

/-- Adds several entries, the first of them first. -/
def append (j : Journal) (more : List Entry) : Journal :=
  ⟨more.reverse ++ j.newest⟩

@[simp] theorem entries_note (j : Journal) (level : Level) (text : String) :
    (j.note level text).entries = j.entries ++ [⟨level, text⟩] := by
  simp [entries, note]

@[simp] theorem entries_append (j : Journal) (more : List Entry) :
    (j.append more).entries = j.entries ++ more := by
  simp [entries, append]

end Journal

end Turnstile

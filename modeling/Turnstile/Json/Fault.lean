/-!
# Why a document is refused

The three ways in which octets fail to be the document that is asked for.
-/

namespace Turnstile.Json

/-- Why octets are refused. -/
inductive Fault where
  /-- They end inside the document. -/
  | truncated
  /-- They are no document: wrong form, wrong characters, a number past the range,
  nested too deeply, or something after the document. -/
  | malformed
  /-- They are a document of another shape. -/
  | mismatch
deriving DecidableEq, Repr

/-- The word for a fault in the log. -/
def Fault.label : Fault → String
  | .truncated => "unexpected end"
  | .malformed => "malformed document"
  | .mismatch => "unexpected shape"

end Turnstile.Json

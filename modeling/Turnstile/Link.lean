import Turnstile.Log

/-!
# Link to the back office

* `Link.isReady`: messages can be published only when the link is online.
* `Link.entries`: the log tells of changes, not of repetitions.
-/

namespace Turnstile

/-- How far the network is up. -/
inductive Link where
  | offline
  | wifiUp
  | online
deriving DecidableEq, Repr

namespace Link

/-- The word for a state of the link. -/
def label : Link → String
  | .offline => "Offline"
  | .wifiUp => "WifiUp"
  | .online => "Online"

/-- Whether messages can be published. -/
def isReady (l : Link) : Bool :=
  l = .online

/-- What the log says when the state becomes `next`. -/
def entries (l next : Link) : List Entry :=
  if l = next then [] else [⟨.info, s!"Link state -> {next.label}"⟩]

end Link

end Turnstile

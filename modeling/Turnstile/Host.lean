/-!
# The host program

The controller runs on its own hardware only. On any other machine the program says
so and ends well.
-/

namespace Turnstile.Host

/-- What the program says. -/
def message : String :=
  "turnstile-access firmware only runs on ESP-IDF targets; use `cargo test --lib` on the host\n"

/-- How the program ends. -/
def exitCode : Nat := 0

end Turnstile.Host

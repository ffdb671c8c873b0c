import Turnstile.Host

/-!
# Command line
-/

/-- Says that the controller does not run here. -/
def main : IO UInt32 := do
  (← IO.getStderr).putStr Turnstile.Host.message
  return UInt32.ofNat Turnstile.Host.exitCode

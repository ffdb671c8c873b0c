import Turnstile.Proofs.Reader.Trace
import Turnstile.Reader.Session

/-!
# How a session is ended

* `EndsSession`: the last accesses of an operation end the session.
* `endsSession_of_closing`: they do whenever the operation is closed that way, whatever came
  before.
-/

namespace Turnstile.Operation

variable {α : Type} {t : List Access}

/-- Whether the last accesses read the status and write it back without the bit of the session;
or one of the two fails, nothing comes after it, and the outcome is its error. -/
def EndsSession (t : List Access) (r : Except CardError α) : Prop :=
  ∃ past,
    (∃ v, t = past ++ [.read Reg.status2 (.ok v), .write Reg.status2 (v &&& ~~~0x08) (.ok ())]) ∨
    (∃ v e, t = past ++ [.read Reg.status2 (.ok v), .write Reg.status2 (v &&& ~~~0x08) (.error e)] ∧
      r = .error (.bus e)) ∨
    ∃ e, t = past ++ [.read Reg.status2 (.error e)] ∧ r = .error (.bus e)

/-- **A session is ended whatever became of it.** -/
theorem endsSession_of_closing {op : Operation α} {r : Except CardError α}
    (h : (closing op stopCrypto).Makes t r) : EndsSession t r := by
  obtain ⟨past, _, r₁, r₂, rfl, -, hstop, rfl⟩ := makes_closing h
  refine ⟨past, ?_⟩
  -- what came before is the past; only the accesses of `stopCrypto` are left to look at
  rcases makes_bind.1 hstop with ⟨e, hfail, rfl⟩ | ⟨_, t₂, v, rfl, hread, hwrite⟩
  · obtain ⟨o, rfl, ho⟩ := makes_readReg.1 hfail
    cases o with
    | ok v => cases ho
    | error b => cases ho; exact .inr (.inr ⟨b, rfl, rfl⟩)
  obtain rfl := makes_readReg_ok.1 hread
  obtain ⟨o, rfl, rfl⟩ := makes_writeReg.1 hwrite
  cases o with
  | ok u => exact .inl ⟨v, rfl⟩
  | error b => exact .inr (.inl ⟨v, b, rfl, rfl⟩)

end Turnstile.Operation

import Turnstile.Proofs.Register.Trace

/-!
# Buses that answer alike

Two buses may be made of different things and still give the same answers. A script cannot tell
them apart: all that it knows of a bus is what its accesses come to.

* `Alike`: a relation between two buses under which they answer every access of a side alike.
* `Alike.run_alike`: a script goes alike on two such buses, and leaves two such buses.
-/

namespace Turnstile

/-- Whether two buses that are related answer every access of a side alike, and stay related. -/
structure Alike {σ ρ : Type} [RegisterBus σ] [RegisterBus ρ] (role : Role) (related : σ → ρ → Prop) :
    Prop where
  read : ∀ s t reg, related s t →
    (RegisterBus.read s role reg).1 = (RegisterBus.read t role reg).1 ∧
      related (RegisterBus.read s role reg).2 (RegisterBus.read t role reg).2
  write : ∀ s t reg value, related s t →
    (RegisterBus.write s role reg value).1 = (RegisterBus.write t role reg value).1 ∧
      related (RegisterBus.write s role reg value).2 (RegisterBus.write t role reg value).2

variable {σ ρ ν α : Type} [RegisterBus σ] [RegisterBus ρ] {role : Role} {related : σ → ρ → Prop}

/-- **A script goes alike on buses that answer alike**: it ends with the same outcome, leaves the same
notes and makes the same accesses, and the buses are related after it. -/
theorem Alike.run_alike (h : Alike role related) (x : Script ν α) {s : σ} {t : ρ} (hst : related s t) :
    (x.run role s).1 = (x.run role t).1 ∧ (x.run role s).2.2 = (x.run role t).2.2 ∧
      x.trace role s = x.trace role t ∧ related (x.run role s).2.1 (x.run role t).2.1 := by
  -- the script goes on with what an access came to, so it is the same script on both sides
  induction x generalizing s t with
  | done a => exact ⟨rfl, rfl, rfl, hst⟩
  | read reg next ih =>
    obtain ⟨hresult, hrelated⟩ := h.read s t reg hst
    have hnext := ih (RegisterBus.read t role reg).1 hrelated
    simp only [Script.run, Script.trace, hresult]
    exact ⟨hnext.1, hnext.2.1, by rw [hnext.2.2.1], hnext.2.2.2⟩
  | write reg value next ih =>
    obtain ⟨hresult, hrelated⟩ := h.write s t reg value hst
    have hnext := ih (RegisterBus.write t role reg value).1 hrelated
    simp only [Script.run, Script.trace, hresult]
    exact ⟨hnext.1, hnext.2.1, by rw [hnext.2.2.1], hnext.2.2.2⟩
  | note n next ih =>
    have hnext := ih hst
    simp only [Script.run, Script.trace]
    exact ⟨hnext.1, by rw [hnext.2.1], hnext.2.2.1, hnext.2.2.2⟩

end Turnstile

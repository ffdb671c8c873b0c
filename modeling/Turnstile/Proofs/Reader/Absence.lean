import Turnstile.Controller.Polling
import Turnstile.Proofs.Reader.Parts
import Turnstile.Proofs.Reader.Session

/-!
# When there is no card

That no card is there is what a search for one comes to. Once a card was found, whatever goes
wrong with it is a failure of another kind.

* `NeverAbsent`: operations that never end in the absence of a card.
* `neverAbsent_parts`: an operation made of such operations is one itself.
* `neverAbsent_writeBlock`: to write on a card is such an operation.
* `writeText_noCard_iff`: an attempt to write ends in the absence of a card if and only if no card
  was identified.
-/

namespace Turnstile

namespace Operation

variable {α β σ : Type} {op : Operation α}

/-- Whether an operation never ends in the absence of a card, on every bus. -/
def NeverAbsent (op : Operation α) : Prop :=
  ∀ t, ¬ op.Makes t (.error .noCard)

theorem neverAbsent_pure (a : α) : NeverAbsent (pure a : Operation α) := by
  rintro t ⟨-, hr⟩
  cases hr

theorem neverAbsent_throw {e : CardError} (he : e ≠ .noCard) : NeverAbsent (throw e : Operation α) := by
  rintro t ⟨-, hr⟩
  exact he (Except.error.inj hr).symm

theorem neverAbsent_note (n : Notice) : NeverAbsent (note n) := by
  rintro t ⟨-, hr⟩
  cases hr

/-- A failure of the bus is not the absence of a card. -/
theorem noCard_ne_ofBus (o : Except BusError α) : .error .noCard ≠ ofBus o := by
  cases o with
  | ok a => exact nofun
  | error e => exact nofun

theorem neverAbsent_readReg (reg : UInt8) : NeverAbsent (readReg reg) := by
  intro t h
  obtain ⟨o, -, hr⟩ := makes_readReg.1 h
  exact noCard_ne_ofBus o hr

theorem neverAbsent_writeReg (reg value : UInt8) : NeverAbsent (writeReg reg value) := by
  intro t h
  obtain ⟨o, -, hr⟩ := makes_writeReg.1 h
  exact noCard_ne_ofBus o hr

theorem neverAbsent_bind {f : α → Operation β} (h : NeverAbsent op) (hf : ∀ a, NeverAbsent (f a)) :
    NeverAbsent (op >>= f) := by
  intro t hm
  rcases makes_bind.1 hm with ⟨e, h₁, hr⟩ | ⟨t₁, t₂, a, -, -, h₂⟩
  · cases hr
    exact h t h₁
  · exact hf a t₂ h₂

/-- **What never ends in the absence of a card is made of parts that never do.** -/
theorem neverAbsent_parts : Compositional @NeverAbsent where
  pure := neverAbsent_pure
  throw := fun he _ => neverAbsent_throw he
  note := neverAbsent_note
  readReg := neverAbsent_readReg
  writeReg := neverAbsent_writeReg
  bind := neverAbsent_bind

/-- The closing part counts too, for its failure is told first. -/
theorem neverAbsent_closing {last : Operation Unit} (h : NeverAbsent op) (hlast : NeverAbsent last) :
    NeverAbsent (closing op last) := by
  intro t hm
  obtain ⟨t₁, t₂, r₁, r₂, -, h₁, h₂, hr⟩ := makes_closing hm
  cases r₂ with
  | error e =>
    cases hr
    exact hlast t₂ h₂
  | ok u =>
    have hfirst : r₁ = .error .noCard := hr.symm
    exact h t₁ (hfirst ▸ h₁)

/-! ## Sessions with a card -/

theorem neverAbsent_authenticateDefault (block : UInt8) (uid : Uid) :
    NeverAbsent (authenticateDefault block uid) := by
  intro t hm
  rcases makes_authenticateDefault hm with ⟨-, hok | ⟨e, hbus⟩⟩ | ⟨t₁, t₂, e, r₂, -, -, -, -, hsettled⟩
  · cases hok
  · cases hbus
  · -- what is neither success nor a failure of the bus is that neither key was accepted
    rcases r₂ with (_ | _ | _ | _ | _ | _ | _) | u
    all_goals cases hsettled

/-- A block is written, or it is not for want of a card. -/
theorem neverAbsent_writeBlock (block : UInt8) (uid : Uid) (data : Bytes) :
    NeverAbsent (writeBlock block uid data) :=
  neverAbsent_closing (neverAbsent_bind (neverAbsent_authenticateDefault block uid) fun _ =>
    neverAbsent_parts.writeOpen block data) (neverAbsent_parts.clearBits _ _)

end Operation

namespace Controller

open Operation

/-- **An attempt to write ends in the absence of a card if and only if no card was identified.** -/
theorem writeText_noCard_iff {σ : Type} [RegisterBus σ] (role : Role) (text : String) (s : σ) :
    ((writeText text).perform role s).1 = .error .noCard ↔
      (identify.perform role s).1 = .error .noCard := by
  have hwrite (uid : Uid) : NeverAbsent (do
      writeBlock userBlock uid (UserText.encode text)
      pure uid) :=
    neverAbsent_bind (neverAbsent_writeBlock _ _ _) fun _ => neverAbsent_pure uid
  rw [writeText, perform_bind_outcome]
  cases (identify.perform role s).1 with
  | error e => simp
  | ok uid =>
    -- what follows on the identification never ends in the absence of a card
    refine iff_of_false (fun h => ?_) nofun
    have hmade := makes_trace role (do
      writeBlock userBlock uid (UserText.encode text)
      pure uid) (identify.perform role s).2.1
    dsimp only at h
    rw [h] at hmade
    exact hwrite uid _ hmade

end Controller

end Turnstile

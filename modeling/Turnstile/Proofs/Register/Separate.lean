import Turnstile.Proofs.Register.Alike
import Turnstile.Proofs.Simulation.Alone
import Turnstile.Register.Spi

/-!
# What one side sees of a bus

The readers of both sides hang on one bus. What the reader of a side has to do with is a
part of the bus, its view, and accesses to the other reader leave that part alone.

* `Separate`: a view of a bus that decides every access of a side, and that no access of the
  other side changes.
* `Separate.alike`: buses that look alike to a side answer it alike.
* `Separate.run_other`: a script on the other side leaves the view as it was.
* `Field.separate`: two simulated chips.
* `SpiBus.separate`: two devices on a serial bus, if the other device does not break down.
-/

namespace Turnstile

/-- Whether all that the reader of a side has to do with is in a view of the bus, and stays
out of the reach of the other side as long as the bus is fit. -/
structure Separate {σ π : Type} [RegisterBus σ] (role : Role) (fit : σ → Prop) (view : σ → π) :
    Prop where
  read_own : ∀ s t reg, view s = view t →
    (RegisterBus.read s role reg).1 = (RegisterBus.read t role reg).1 ∧
      view (RegisterBus.read s role reg).2 = view (RegisterBus.read t role reg).2
  write_own : ∀ s t reg value, view s = view t →
    (RegisterBus.write s role reg value).1 = (RegisterBus.write t role reg value).1 ∧
      view (RegisterBus.write s role reg value).2 = view (RegisterBus.write t role reg value).2
  read_other : ∀ s other reg, other ≠ role → fit s → view (RegisterBus.read s other reg).2 = view s
  write_other : ∀ s other reg value, other ≠ role → fit s →
    view (RegisterBus.write s other reg value).2 = view s
  read_fit : ∀ s side reg, fit s → fit (RegisterBus.read s side reg).2
  write_fit : ∀ s side reg value, fit s → fit (RegisterBus.write s side reg value).2

namespace Separate

variable {σ π ν α : Type} [RegisterBus σ] {role : Role} {fit : σ → Prop} {view : σ → π}

/-- Buses that look alike to a side answer it alike. -/
theorem alike (h : Separate role fit view) : Alike role fun s t => view s = view t :=
  ⟨h.read_own, h.write_own⟩

/-- A bus that is fit stays so, whichever side a script is run on. -/
theorem run_fit (h : Separate role fit view) (x : Script ν α) (side : Role) {s : σ} (hs : fit s) :
    fit (x.run side s).2.1 :=
  Script.run_preserves (fun s reg => h.read_fit s side reg)
    (fun s reg value _ _ => h.write_fit s side reg value) (fun _ _ => trivial) hs

/-- **The other side.** A script on the other reader leaves the view as it was. -/
theorem run_other (h : Separate role fit view) (x : Script ν α) {other : Role}
    (hother : other ≠ role) {s : σ} (hs : fit s) : view (x.run other s).2.1 = view s := by
  -- fitness goes along, for it is what keeps the next access out of the view
  have hkeep : fit (x.run other s).2.1 ∧ view (x.run other s).2.1 = view s := by
    refine Script.run_preserves (P := fun s' => fit s' ∧ view s' = view s) ?_ ?_
      (fun _ _ => trivial) ⟨hs, rfl⟩
    · intro s' reg ⟨hfit, hview⟩
      exact ⟨h.read_fit s' other reg hfit, (h.read_other s' other reg hother hfit).trans hview⟩
    · intro s' reg value _ _ ⟨hfit, hview⟩
      exact ⟨h.write_fit s' other reg value hfit,
        (h.write_other s' other reg value hother hfit).trans hview⟩
  exact hkeep.2

end Separate

/-! ## Two simulated chips -/

/-- **Simulated readers are separate.** The view of a side is its chip. -/
theorem Field.separate (role : Role) :
    Separate (σ := Field) role (fun _ => True) (fun f => f.get role) where
  read_own := by
    intro f g reg hfg
    rw [Field.read_eq f, Field.read_eq g]
    simp only [Sides.get_set_self, hfg, and_self]
  write_own := by
    intro f g reg value hfg
    rw [Field.write_eq f, Field.write_eq g]
    simp only [Sides.get_set_self, hfg, and_self]
  read_other := by
    intro f other reg hother _
    rw [Field.read_eq f]
    exact Sides.get_set_of_ne f hother.symm _
  write_other := by
    intro f other reg value hother _
    rw [Field.write_eq f]
    exact Sides.get_set_of_ne f hother.symm _
  read_fit := fun _ _ _ _ => trivial
  write_fit := fun _ _ _ _ _ => trivial

/-! ## Two devices on a serial bus -/

section Steady

variable {δ : Type} [SpiDevice δ]

/-- A device after exchanges. -/
def SpiDevice.after (d : δ) (sent : List (UInt8 × UInt8)) : δ :=
  sent.foldl (fun d pair => (SpiDevice.transfer d pair).2) d

/-- Whether a device never breaks down, whatever is exchanged with it. -/
def SpiDevice.Steady (d : δ) : Prop :=
  ∀ sent pair, (SpiDevice.transfer (SpiDevice.after d sent) pair).1 ≠ .error .crash

theorem SpiDevice.Steady.transfer {d : δ} (h : SpiDevice.Steady d) (pair : UInt8 × UInt8) :
    (SpiDevice.transfer d pair).1 ≠ .error .crash ∧ SpiDevice.Steady (SpiDevice.transfer d pair).2 :=
  ⟨h [] pair, fun sent => h (pair :: sent)⟩

/-- A scripted device is steady if no breakdown is in its script. -/
theorem ScriptedDevice.steady {d : ScriptedDevice} (h : ∀ fault ∈ d.faults, fault.2 ≠ .crash) :
    SpiDevice.Steady d := by
  -- exchanges use up answers, but never a fault
  have hfaults : ∀ (d : ScriptedDevice) pair, (d.transfer pair).2.faults = d.faults := by
    intro d pair
    unfold ScriptedDevice.transfer
    split
    · rfl
    · split <;> rfl
  have hafter : ∀ sent (d : ScriptedDevice), (SpiDevice.after d sent).faults = d.faults := by
    intro sent
    induction sent with
    | nil => exact fun d => rfl
    | cons pair sent ih => exact fun d => (ih (d.transfer pair).2).trans (hfaults d pair)
  intro sent pair
  show ((SpiDevice.after d sent).transfer pair).1 ≠ .error .crash
  unfold ScriptedDevice.transfer
  split
  · next n fault hfind =>
    have hmem := List.mem_of_find?_eq_some hfind
    rw [hafter sent d] at hmem
    intro hcrash
    exact h _ hmem (Except.error.inj hcrash)
  · split <;> exact fun hcrash => by cases hcrash

end Steady

namespace SpiBus

variable {δ : Type} [SpiDevice δ]

/-- What a side has to do with: its device, whether the bus is out of use, and what was
exchanged with the device. -/
structure Part (δ : Type) where
  device : δ
  poisoned : Bool
  exchanges : List Exchange

/-- The part of a side. -/
def part (b : SpiBus δ) (role : Role) : Part δ :=
  ⟨b.devices.get role, b.poisoned, b.exchanges.filter (·.role = role)⟩

/-- Whether the device of the other side does not break down. -/
def FitFor (role : Role) (b : SpiBus δ) : Prop :=
  ∀ other, other ≠ role → SpiDevice.Steady (b.devices.get other)

/-- Buses that look alike to a side answer it alike, and look alike after the exchange. -/
theorem exchange_own {b c : SpiBus δ} {role : Role} (h : b.part role = c.part role)
    (sent : UInt8 × UInt8) :
    (b.exchange role sent).1 = (c.exchange role sent).1 ∧
      (b.exchange role sent).2.part role = (c.exchange role sent).2.part role := by
  have hparts := h
  simp only [part, Part.mk.injEq] at hparts
  obtain ⟨hdevice, hpoisoned, hexchanges⟩ := hparts
  unfold exchange
  rw [← hpoisoned, ← hdevice]
  split
  · exact ⟨rfl, h⟩
  · -- the bus is in use: both devices are one, and so are their answers
    generalize SpiDevice.transfer (b.devices.get role) sent = answer
    obtain ⟨received, device⟩ := answer
    rcases received with (fault | _) | pair
    all_goals simp [part, Sides.get_set_self, hexchanges, hpoisoned]

/-- An exchange with the other device, which does not break down, is out of sight. -/
theorem exchange_other {b : SpiBus δ} {role other : Role} (hother : other ≠ role)
    (hfit : b.FitFor role) (sent : UInt8 × UInt8) :
    (b.exchange other sent).2.part role = b.part role := by
  have hsteady := ((hfit other hother).transfer sent).1
  have hlog : ∀ received, (⟨other, sent, received⟩ :: b.exchanges).filter (·.role = role) =
      b.exchanges.filter (·.role = role) := by
    intro received
    exact List.filter_cons_of_neg (by simpa using hother)
  unfold exchange
  split
  · rfl
  · generalize SpiDevice.transfer (b.devices.get other) sent = answer at hsteady ⊢
    obtain ⟨received, device⟩ := answer
    rcases received with (fault | _) | pair
    · simp only [part, hlog, Sides.get_set_of_ne b.devices hother.symm]
    · exact absurd rfl hsteady
    · simp only [part, hlog, Sides.get_set_of_ne b.devices hother.symm]

/-- An exchange leaves the other device as steady as it was. -/
theorem exchange_fit {b : SpiBus δ} {role : Role} (hfit : b.FitFor role) (side : Role)
    (sent : UInt8 × UInt8) : (b.exchange side sent).2.FitFor role := by
  have hdevices : (b.exchange side sent).2.devices = b.devices ∨ (b.exchange side sent).2.devices =
      b.devices.set side (SpiDevice.transfer (b.devices.get side) sent).2 := by
    unfold exchange
    split
    · exact .inl rfl
    · split
      split <;> exact .inr (by simp_all)
  intro other hother
  -- the device of the side that exchanged may have changed, but it is as steady as before
  rcases hdevices with heq | heq
  · rw [heq]
    exact hfit other hother
  · rw [heq]
    by_cases hside : other = side
    · rw [hside, Sides.get_set_self]
      exact ((hfit side (hside ▸ hother)).transfer sent).2
    · rw [Sides.get_set_of_ne _ hside]
      exact hfit other hother

/-- **Devices on a serial bus are separate**, if the other one does not break down. The view
of a side is its part. -/
theorem separate (role : Role) :
    Separate (σ := SpiBus δ) role (FitFor role) (fun b => b.part role) where
  read_own := by
    intro b c reg hbc
    obtain ⟨hanswer, hpart⟩ := exchange_own hbc (readAddress reg, 0)
    exact ⟨congrArg (Except.map Prod.snd) hanswer, hpart⟩
  write_own := by
    intro b c reg value hbc
    obtain ⟨hanswer, hpart⟩ := exchange_own hbc (writeAddress reg, value)
    exact ⟨congrArg (Except.map fun _ => ()) hanswer, hpart⟩
  read_other := fun _ _ reg hother hfit => exchange_other hother hfit (readAddress reg, 0)
  write_other := fun _ _ reg value hother hfit => exchange_other hother hfit (writeAddress reg, value)
  read_fit := fun _ side reg hfit => exchange_fit hfit side (readAddress reg, 0)
  write_fit := fun _ side reg value hfit => exchange_fit hfit side (writeAddress reg, value)

end SpiBus

end Turnstile

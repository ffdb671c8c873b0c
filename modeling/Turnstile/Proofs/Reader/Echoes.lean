import Turnstile.Proofs.Reader.Tasks
import Turnstile.Proofs.Register.Exchanges

/-!
# Readers and the octets that come back

What a device sends back while a register is written, and while it is told which register to
read, is noise. Nothing that the readers are asked to do depends on it.

* `pairsOf`: the octets that tasks of both readers account for.
* `Task.runBoth_sends`: tasks send the octets of their accesses and nothing else.
* `echoes_do_not_count`: devices that differ in the noise only are sent the same, and the tasks
  go alike.
* `Mirror`: a device that sends back what it is sent, as far as it may.
-/

namespace Turnstile

/-- The octets that tasks account for: those of each access, in the order of the accesses. -/
def pairsOf (conducts : List (Role × Conduct)) : List (Role × (UInt8 × UInt8)) :=
  conducts.flatMap fun (role, conduct) => conduct.accesses.map fun a => (role, a.pair)

section Tasks

variable {δ ε : Type} [SpiDevice δ] [SpiDevice ε]

/-- **What tasks send**: the octets of their accesses, one exchange for each. -/
theorem Task.runBoth_sends (course : List (Role × Task)) (b : SpiBus δ) :
    SpiBus.Sends b (runBoth course b).2 (pairsOf (runBoth course b).1) := by
  induction course generalizing b with
  | nil => exact .refl b
  | cons first rest ih =>
    obtain ⟨role, task⟩ := first
    have htask : SpiBus.Sends b (task.carryOut role b).2
        ((task.carryOut role b).1.accesses.map fun a => (role, a.pair)) :=
      .run task.operation.run role b
    exact htask.trans (ih (task.carryOut role b).2)

/-- Tasks leave a bus in use if no device breaks down. -/
theorem Task.runBoth_sound (course : List (Role × Task)) {b : SpiBus δ} (h : b.Sound) :
    (runBoth course b).2.Sound := by
  induction course generalizing b with
  | nil => exact h
  | cons first rest ih => exact ih (h.run first.2.operation.run first.1)

/-- **Only the second octet of a read counts.** Take two pairs of devices that fail in the same
exchanges in the same way and answer every read with the same second octet. Whatever else they
send back, the tasks of both readers have the same results, leave the same notices and make the
same accesses, and the same octets are sent. These are the octets of the accesses, one exchange
for each, up to where a device breaks down if one does. -/
theorem echoes_do_not_count (d : Sides δ) (e : Sides ε)
    (hmatch : ∀ role, SpiDevice.Matches (d.get role) (e.get role)) (course : List (Role × Task)) :
    let left := Task.runBoth course ({ devices := d } : SpiBus δ)
    let right := Task.runBoth course ({ devices := e } : SpiBus ε)
    left.1 = right.1 ∧ left.2.sent = right.2.sent ∧ left.2.sent <+: pairsOf left.1 ∧
      ((∀ role, SpiDevice.Steady (d.get role)) → left.2.sent = pairsOf left.1) := by
  intro left right
  -- nothing was sent yet, so fresh buses with these devices match
  have hstart : ({ devices := d } : SpiBus δ).Matches ({ devices := e } : SpiBus ε) :=
    ⟨hmatch, rfl, rfl⟩
  obtain ⟨hconducts, hend⟩ := Task.runBoth_alike SpiBus.alike course hstart
  have hsends := Task.runBoth_sends course ({ devices := d } : SpiBus δ)
  refine ⟨hconducts, hend.sent, hsends.some, ?_⟩
  intro hsteady
  have hsound : left.2.Sound := Task.runBoth_sound course ⟨rfl, hsteady⟩
  exact hsends.all hsound.used

end Tasks

/-! ## A device that sends back what it is sent -/

/-- A device that sends back every octet that it is sent, except the values of the registers
that are read. -/
structure Mirror (δ : Type) where
  device : δ

namespace Mirror

variable {δ : Type} [SpiDevice δ]

/-- Exchanges two octets. -/
def transfer (m : Mirror δ) (sent : UInt8 × UInt8) : Except SpiFault (UInt8 × UInt8) × Mirror δ :=
  match SpiDevice.transfer m.device sent with
  | (.ok received, device) =>
    (.ok (sent.1, if sent.1 &&& 0x80 ≠ 0 then received.2 else sent.2), ⟨device⟩)
  | (.error fault, device) => (.error fault, ⟨device⟩)

instance : SpiDevice (Mirror δ) where
  transfer := transfer

theorem transfer_device (m : Mirror δ) (sent : UInt8 × UInt8) :
    (SpiDevice.transfer m sent).2.device = (SpiDevice.transfer m.device sent).2 := by
  show (transfer m sent).2.device = _
  unfold transfer
  split <;> simp_all

/-- A device and its mirror differ in the noise only. -/
theorem matches_device (d : δ) : SpiDevice.Matches d (Mirror.mk d) := by
  have hafter : ∀ before (m : Mirror δ),
      (SpiDevice.after m before).device = SpiDevice.after m.device before := by
    intro before
    induction before with
    | nil => exact fun m => rfl
    | cons sent before ih =>
      intro m
      exact (ih _).trans (congrArg (SpiDevice.after · before) (transfer_device m sent))
  intro before sent
  show SpiDevice.SameAnswer sent _ (transfer (SpiDevice.after (Mirror.mk d) before) sent).1
  unfold transfer
  rw [hafter before ⟨d⟩]
  generalize SpiDevice.transfer (SpiDevice.after d before) sent = answer
  obtain ⟨fault | received, device⟩ := answer
  · exact rfl
  · intro hread
    exact (if_pos hread).symm

end Mirror

/-- The entry reader leaves its session, and the exit reader tells its version, through devices
that send back what they are sent. -/
theorem echoes_do_not_count_mirrored :
    let reader : ScriptedDevice := { answers := [(Reg.version, [0x92]), (Reg.status2, [0x0C])] }
    let mirrors : Sides (Mirror ScriptedDevice) := ⟨⟨reader⟩, ⟨reader⟩⟩
    let after := Task.runBoth [(.entry, .stopCrypto), (.exit, .version)] ({ devices := mirrors } : SpiBus _)
    after.1.map (·.2.result) = [.ok .nothing, .ok (.octet 0x92)] ∧
      after.2.sent = [(.entry, 0x90, 0), (.entry, 0x10, 0x04), (.exit, 0xEE, 0)] := by
  intro reader mirrors after
  have hmatch : ∀ role,
      SpiDevice.Matches ((⟨reader, reader⟩ : Sides ScriptedDevice).get role) (mirrors.get role) := by
    intro role
    cases role <;> exact Mirror.matches_device reader
  have hsteady : ∀ role, SpiDevice.Steady ((⟨reader, reader⟩ : Sides ScriptedDevice).get role) := by
    intro role
    cases role <;> exact ScriptedDevice.steady (by decide)
  obtain ⟨hconducts, hsent, -, hpairs⟩ := echoes_do_not_count ⟨reader, reader⟩ mirrors hmatch
    [(.entry, .stopCrypto), (.exit, .version)]
  constructor
  · rw [← hconducts]
    decide +kernel
  · rw [← hsent, hpairs hsteady]
    decide +kernel

end Turnstile

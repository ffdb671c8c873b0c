import Turnstile.Reader.Session

/-!
# Operations and their parts

An operation is made of accesses to registers, one after another. A property that passes from the
parts to the whole need only be shown of the smallest parts.

* `Compositional`: properties that pass from the parts of an operation to the whole.
* `Compositional.communicate`, `Compositional.closed`: commands and checksums have such a property.
* `Compositional.select`, `Compositional.authenticate`, `Compositional.readOpen`,
  `Compositional.writeOpen`: and so have the steps of a session.
-/

namespace Turnstile.Operation

/-- Whether a property of operations passes from the parts to the whole, and the smallest parts have
it: an access, a notice, and a failure that is neither the absence of a card nor one of the bus. -/
structure Compositional (P : (α : Type) → Operation α → Prop) : Prop where
  pure : ∀ {α : Type} (a : α), P α (pure a)
  throw : ∀ {α : Type} {e : CardError}, e ≠ .noCard → (∀ b, e ≠ .bus b) → P α (throw e)
  note : ∀ n, P Unit (note n)
  readReg : ∀ reg, P UInt8 (readReg reg)
  writeReg : ∀ reg value, P Unit (writeReg reg value)
  bind : ∀ {α β : Type} {op : Operation α} {f : α → Operation β}, P α op → (∀ a, P β (f a)) →
    P β (op >>= f)

namespace Compositional

variable {P : (α : Type) → Operation α → Prop} (h : Compositional P)

omit h in
theorem ite {α : Type} {p : Prop} [Decidable p] {x y : Operation α} (hx : P α x) (hy : P α y) :
    P α (if p then x else y) := by
  split
  · exact hx
  · exact hy

section Register

variable (reg mask : UInt8)

include h

theorem setBits : P Unit (setBits reg mask) :=
  h.bind (h.readReg reg) fun _ => h.writeReg reg _

theorem clearBits : P Unit (clearBits reg mask) :=
  h.bind (h.readReg reg) fun _ => h.writeReg reg _

theorem writeAll (bs : Bytes) : P Unit (writeAll reg bs) := by
  induction bs with
  | nil => exact h.pure ()
  | cons b bs ih => exact h.bind (h.writeReg reg b) fun _ => ih

theorem readMany (n : Nat) : P Bytes (readMany reg n) := by
  induction n with
  | zero => exact h.pure []
  | succ n ih => exact h.bind (h.readReg reg) fun _ => h.bind ih fun _ => h.pure _

theorem pollUntil (budget : Nat) : P Bool (pollUntil reg mask budget) := by
  induction budget with
  | zero => exact h.pure false
  | succ n ih => exact h.bind (h.readReg reg) fun _ => ite (h.pure true) ih

end Register

/-! ## Exchanges with a card -/

include h

theorem start (command : UInt8) (send : Bytes) : P Unit (start command send) :=
  h.bind (h.writeReg _ _) fun _ =>
  h.bind (h.clearBits _ _) fun _ =>
  h.bind (h.setBits _ _) fun _ =>
  h.bind (h.writeReg _ _) fun _ =>
  h.bind (h.writeAll _ _) fun _ =>
  h.bind (h.writeReg _ _) fun _ => ite (h.setBits _ _) (h.pure ())

theorem await (command : UInt8) : P Unit (await command) :=
  h.bind (h.pollUntil _ _ _) fun _ =>
  h.bind (h.clearBits _ _) fun _ =>
  ite (h.bind (h.note _) fun _ => h.throw nofun nofun) (h.pure ())

theorem fetch : P Frame fetch :=
  h.bind (h.readReg _) fun _ =>
  h.bind (h.readMany _ _) fun _ =>
  h.bind (h.readReg _) fun _ => h.pure _

/-- A command may run out of time, or be spoilt. -/
theorem communicate (command : UInt8) (send : Bytes) : P Frame (communicate command send) := by
  have hanswer : P Frame (if command = ReaderCommand.transceive then Operation.fetch else Pure.pure ⟨[], 0⟩) :=
    ite h.fetch (h.pure _)
  exact h.bind (h.start command send) fun _ =>
    h.bind (h.await command) fun _ =>
    h.bind (h.readReg _) fun _ =>
    ite (h.bind (h.throw nofun nofun) fun _ => hanswer) hanswer

theorem checksum (data : Bytes) : P Bytes (checksum data) := by
  have hread : P Bytes (do
      let low ← Operation.readReg Reg.crcLow
      let high ← Operation.readReg Reg.crcHigh
      Pure.pure [low, high]) :=
    h.bind (h.readReg _) fun _ => h.bind (h.readReg _) fun _ => h.pure _
  exact h.bind (h.clearBits _ _) fun _ =>
    h.bind (h.setBits _ _) fun _ =>
    h.bind (h.writeAll _ _) fun _ =>
    h.bind (h.writeReg _ _) fun _ =>
    h.bind (h.pollUntil _ _ _) fun _ =>
    ite (h.bind (h.throw nofun nofun) fun _ => hread) hread

theorem closed (data : Bytes) : P Bytes (closed data) :=
  h.bind (h.checksum data) fun _ => h.pure _

/-! ## Sessions with a card -/

/-- A card that does not answer when it is selected gave no proper answer. -/
theorem select (uid : Uid) : P UInt8 (select uid) := by
  refine h.bind (h.closed _) fun _ => h.bind (h.communicate _ _) fun answer => ?_
  split
  · exact h.throw nofun nofun
  · exact h.bind (h.note _) fun _ => h.pure _

theorem authenticate (kind : KeyKind) (block : UInt8) (key : Bytes) (uid : Uid) :
    P Unit (authenticate kind block key uid) :=
  h.bind (h.communicate _ _) fun _ =>
  h.bind (h.readReg _) fun _ =>
  ite (h.bind (h.note _) fun _ => h.throw nofun nofun) (h.pure ())

theorem readOpen (block : UInt8) : P Bytes (readOpen block) :=
  h.bind (h.closed _) fun _ =>
  h.bind (h.communicate _ _) fun _ =>
  ite (h.bind (h.throw nofun nofun) fun _ => h.pure _) (h.pure _)

theorem writeOpen (block : UInt8) (data : Bytes) : P Unit (writeOpen block data) := by
  have hack (frame : Frame) : P Unit (expectAck frame) := ite (h.pure ()) (h.throw nofun nofun)
  exact h.bind (h.closed _) fun _ =>
    h.bind (h.communicate _ _) fun _ =>
    h.bind (hack _) fun _ =>
    h.bind (h.closed _) fun _ =>
    h.bind (h.communicate _ _) fun _ => hack _

end Compositional

end Turnstile.Operation

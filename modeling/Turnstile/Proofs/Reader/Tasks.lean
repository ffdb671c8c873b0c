import Turnstile.Proofs.Reader.Trace
import Turnstile.Proofs.Register.Separate
import Turnstile.Reader.Session

/-!
# Two readers at work

What the program asks of a reader is one of a few tasks. The tasks of both readers come
mixed, one task at a time, and each reader gets on as if it were the only one.

* `Task`: what a reader is asked to do.
* `Task.runBoth`: tasks of both readers, in the order in which they come.
* `Task.runAlone`: tasks of one reader.
* `Task.runBoth_alike`: on buses that answer alike, tasks go alike.
* `Task.runBoth_separate`: on a bus with separate sides, the tasks of a side go as they go
  alone.
* `readers_do_not_interfere`: so it is for two simulated chips and for two devices on a
  serial bus.
-/

namespace Turnstile

/-- What a reader is asked to do. -/
inductive Task where
  | init
  | version
  | request
  | anticollision
  | checksum (data : Bytes)
  | communicate (command : UInt8) (send : Bytes)
  | select (uid : Uid)
  | identify
  | authenticate (kind : KeyKind) (block : UInt8) (key : Bytes) (uid : Uid)
  | authenticateDefault (block : UInt8) (uid : Uid)
  | stopCrypto
  | readBlock (block : UInt8) (uid : Uid)
  | writeBlock (block : UInt8) (uid : Uid) (data : Bytes)

/-- What comes of a task. -/
inductive Product where
  | nothing
  | octet (value : UInt8)
  | octets (data : Bytes)
  | frame (answer : Frame)
  | card (uid : Uid)
deriving DecidableEq

/-- How a task went: what came of it, what it left to be noted, and the accesses it made. -/
structure Conduct where
  result : Except CardError Product
  notices : List Notice
  accesses : List Access

/-- What belongs to a side. -/
def ofSide {α : Type} (role : Role) (all : List (Role × α)) : List α :=
  (all.filter (·.1 = role)).map (·.2)

section OfSide

variable {α : Type} {role other : Role} {a : α} {all : List (Role × α)}

theorem ofSide_cons_own : ofSide role ((role, a) :: all) = a :: ofSide role all := by
  simp [ofSide]

theorem ofSide_cons_other (h : other ≠ role) : ofSide role ((other, a) :: all) = ofSide role all := by
  simp [ofSide, h]

end OfSide

namespace Task

/-- The operation of a task. -/
def operation : Task → Operation Product
  | init => .octet <$> Operation.init
  | version => .octet <$> Operation.version
  | request => .octets <$> Operation.request
  | anticollision => .card <$> Operation.anticollision
  | checksum data => .octets <$> Operation.checksum data
  | communicate command send => .frame <$> Operation.communicate command send
  | select uid => .octet <$> Operation.select uid
  | identify => .card <$> Operation.identify
  | authenticate kind block key uid =>
    (fun _ => .nothing) <$> Operation.authenticate kind block key uid
  | authenticateDefault block uid => (fun _ => .nothing) <$> Operation.authenticateDefault block uid
  | stopCrypto => (fun _ => .nothing) <$> Operation.stopCrypto
  | readBlock block uid => .octets <$> Operation.readBlock block uid
  | writeBlock block uid data => (fun _ => .nothing) <$> Operation.writeBlock block uid data

variable {σ π : Type} [RegisterBus σ]

/-- Has a reader do a task: how it went, and the bus after it. -/
def carryOut (task : Task) (role : Role) (s : σ) : Conduct × σ :=
  (⟨(task.operation.perform role s).1, (task.operation.perform role s).2.2,
    task.operation.trace role s⟩, (task.operation.perform role s).2.1)

/-- Has one reader do tasks, one after another: how each of them went, and the bus after
the last. -/
def runAlone (role : Role) : List Task → σ → List Conduct × σ
  | [], s => ([], s)
  | task :: tasks, s =>
    ((task.carryOut role s).1 :: (runAlone role tasks (task.carryOut role s).2).1,
      (runAlone role tasks (task.carryOut role s).2).2)

/-- Has both readers do tasks, in the order in which the tasks come. -/
def runBoth : List (Role × Task) → σ → List (Role × Conduct) × σ
  | [], s => ([], s)
  | (role, task) :: tasks, s =>
    ((role, (task.carryOut role s).1) :: (runBoth tasks (task.carryOut role s).2).1,
      (runBoth tasks (task.carryOut role s).2).2)

section Alike

variable {ρ : Type} [RegisterBus ρ] {role : Role} {related : σ → ρ → Prop}

/-- A task goes alike on buses that answer alike. -/
theorem carryOut_alike (h : Alike role related) (task : Task) {s : σ} {t : ρ} (hst : related s t) :
    (task.carryOut role s).1 = (task.carryOut role t).1 ∧
      related (task.carryOut role s).2 (task.carryOut role t).2 := by
  obtain ⟨hresult, hnotices, haccesses, hrelated⟩ := h.run_alike task.operation.run hst
  refine ⟨?_, hrelated⟩
  simp only [carryOut, Conduct.mk.injEq]
  exact ⟨hresult, hnotices, haccesses⟩

/-- Tasks of both readers go alike on buses that answer both alike. -/
theorem runBoth_alike (h : ∀ role, Alike role related) (course : List (Role × Task)) {s : σ} {t : ρ}
    (hst : related s t) : (runBoth course s).1 = (runBoth course t).1 ∧
      related (runBoth course s).2 (runBoth course t).2 := by
  induction course generalizing s t with
  | nil => exact ⟨rfl, hst⟩
  | cons first rest ih =>
    obtain ⟨side, task⟩ := first
    obtain ⟨hconduct, hrelated⟩ := carryOut_alike (h side) task hst
    obtain ⟨hrest, hend⟩ := ih hrelated
    simp only [runBoth, hconduct, hrest]
    exact ⟨trivial, hend⟩

end Alike

variable {role : Role} {fit : σ → Prop} {view : σ → π}

/-- **Mixed or alone.** The tasks of a side go as they go by themselves, from any bus that
looks alike to that side. -/
theorem runBoth_separate (h : Separate role fit view) (course : List (Role × Task)) {s t : σ}
    (hs : fit s) (hst : view s = view t) :
    ofSide role (runBoth course s).1 = (runAlone role (ofSide role course) t).1 ∧
      view (runBoth course s).2 = view (runAlone role (ofSide role course) t).2 := by
  induction course generalizing s t with
  | nil => exact ⟨rfl, hst⟩
  | cons first rest ih =>
    obtain ⟨side, task⟩ := first
    have hfit : fit (task.carryOut side s).2 := h.run_fit task.operation.run side hs
    by_cases hside : side = role
    · -- a task of this side: both runs take the same step
      subst hside
      obtain ⟨hconduct, hview⟩ := carryOut_alike h.alike task hst
      obtain ⟨hrest, hend⟩ := ih hfit hview
      simp only [runBoth, ofSide_cons_own, runAlone, hconduct, hrest]
      exact ⟨trivial, hend⟩
    · -- a task of the other side: the lone run does not even notice
      have hview : view (task.carryOut side s).2 = view s :=
        h.run_other task.operation.run hside hs
      obtain ⟨hrest, hend⟩ := ih hfit (hview.trans hst)
      simp only [runBoth, ofSide_cons_other hside]
      exact ⟨hrest, hend⟩

end Task

/-- **Readers do not interfere.** However the tasks of both readers are mixed, those of one
side have the results, leave the notices and make the accesses that they do when that reader
is the only one at work, whatever is at the other side; and they leave the same chip, or the
same device, with the same exchanges. On a serial bus the device of the other side must not
break down. -/
theorem readers_do_not_interfere (course : List (Role × Task)) (role : Role) :
    (∀ f g : Field, f.get role = g.get role →
      ofSide role (Task.runBoth course f).1 = (Task.runAlone role (ofSide role course) g).1 ∧
        (Task.runBoth course f).2.get role = (Task.runAlone role (ofSide role course) g).2.get role) ∧
    ∀ (δ : Type) [SpiDevice δ] (b c : SpiBus δ), b.FitFor role → b.part role = c.part role →
      ofSide role (Task.runBoth course b).1 = (Task.runAlone role (ofSide role course) c).1 ∧
        (Task.runBoth course b).2.part role =
          (Task.runAlone role (ofSide role course) c).2.part role := by
  constructor
  · intro f g hfg
    exact Task.runBoth_separate (Field.separate role) course trivial hfg
  · intro δ _ b c hfit hbc
    exact Task.runBoth_separate (SpiBus.separate role) course hfit hbc

/-- The reader of the entry fails in the middle of its start, and the reader of the exit
tells its version before and after as it does alone. -/
theorem readers_do_not_interfere_overrun :
    let exit : ScriptedDevice := { answers := [(Reg.version, [0x91, 0x92])] }
    let failing : ScriptedDevice := { faults := [(3, .transfer .overrun)] }
    let course := [(Role.exit, Task.version), (.entry, .init), (.exit, .version)]
    (ofSide .exit (Task.runBoth course (⟨⟨failing, exit⟩, false, []⟩ : SpiBus ScriptedDevice)).1).map
        (·.result) = [.ok (.octet 0x91), .ok (.octet 0x92)] ∧
      (ofSide .entry (Task.runBoth course Field.new).1).map (·.result) = [.ok (.octet 0x92)] := by
  intro exit failing course
  have hfailing : SpiDevice.Steady failing := ScriptedDevice.steady (by decide)
  have hfit : (⟨⟨failing, exit⟩, false, []⟩ : SpiBus ScriptedDevice).FitFor .exit := by
    intro other hother
    cases other with
    | entry => exact hfailing
    | exit => exact absurd rfl hother
  have hspi := (readers_do_not_interfere course .exit).2 ScriptedDevice
    ⟨⟨failing, exit⟩, false, []⟩ ⟨⟨{}, exit⟩, false, []⟩ hfit rfl
  have hfield := (readers_do_not_interfere course .entry).1 Field.new Field.new rfl
  rw [hspi.1, hfield.1]
  exact ⟨by decide +kernel, by decide +kernel⟩

end Turnstile

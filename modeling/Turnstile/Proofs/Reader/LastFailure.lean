import Turnstile.Proofs.Reader.ReadBlock
import Turnstile.Proofs.Reader.Tasks

/-!
# Failures of the bus are told

A reader that cannot be reached must not pass for a missing card or for a wrong key. The error of the
last access that failed is the outcome of whatever was asked of the reader, and without such an access
the outcome is no error of the bus.

* `lastFailure`, `Halts`: the error of the last access that failed, and nothing done after a failure.
* `Operation.Tells`: the outcome tells the last failure. A prompt operation does, and one that is closed
  by another (`tells_closing`).
* `SpiBus.lastFailure_run`: on a serial bus, an access fails if and only if its exchange does.
* `last_failure_told`: **every task of a reader tells the last failure**, and goes on after a failure
  only to end its session.
-/

namespace Turnstile

/-- The error of the last access that failed, if one did. -/
def lastFailure (t : List Access) : Option BusError :=
  (t.filterMap Access.failure).getLast?

/-- Whether nothing was done after an access that failed. -/
def Halts (t : List Access) : Prop :=
  Flawless t ∨ ∃ e, BreaksOff t e

/-- Whether these accesses end a session: the status is read, and written back without the bit of the
session unless it could not be read. -/
def Ends (t : List Access) : Prop :=
  (∃ v o, t = [.got Reg.status2 v, .write Reg.status2 (v &&& ~~~0x08) o]) ∨
    ∃ e, t = [.read Reg.status2 (.error e)]

section Lists

variable {t t₁ t₂ : List Access} {a : Access} {e : BusError}

theorem lastFailure_append (t₁ t₂ : List Access) :
    lastFailure (t₁ ++ t₂) = (lastFailure t₂).or (lastFailure t₁) := by
  rw [lastFailure, List.filterMap_append, List.getLast?_append]
  rfl

theorem lastFailure_cons (a : Access) (t : List Access) :
    lastFailure (a :: t) = (lastFailure t).or a.failure := by
  have hone : lastFailure [a] = a.failure := by
    cases h : a.failure <;> simp [lastFailure, h]
  rw [← List.singleton_append, lastFailure_append, hone]

theorem Flawless.lastFailure_eq (h : Flawless t) : lastFailure t = none := by
  rw [lastFailure, List.filterMap_eq_nil_iff.2 h]
  rfl

theorem BreaksOff.lastFailure_eq (h : BreaksOff t e) : lastFailure t = some e := by
  obtain ⟨before, last, rfl, -, hlast⟩ := h
  rw [lastFailure_append, lastFailure_cons, hlast]
  rfl

end Lists

namespace Operation

variable {α β : Type} {op : Operation α} {last : Operation Unit} {t : List Access}

/-- Whether the outcome of an operation is an error of the bus if and only if an access has failed, and
then the error of the last one that has. -/
def Tells (op : Operation α) : Prop :=
  ∀ t r, op.Makes t r → ∀ e, r = .error (.bus e) ↔ lastFailure t = some e

theorem Prompt.halts (h : Prompt op) {r : Except CardError α} (hm : op.Makes t r) : Halts t := by
  rcases h t r hm with ⟨hflawless, -⟩ | ⟨e, hbreaks, -⟩
  · exact .inl hflawless
  · exact .inr ⟨e, hbreaks⟩

theorem Prompt.tells (h : Prompt op) : Tells op := by
  intro t r hm e
  rcases h t r hm with ⟨hflawless, hr⟩ | ⟨b, hbreaks, rfl⟩
  · simp [hflawless.lastFailure_eq, hr e]
  · simp [hbreaks.lastFailure_eq]

/-- What ends a session either succeeds or fails with the bus. -/
theorem makes_stopCrypto {r : Except CardError Unit} (h : stopCrypto.Makes t r) :
    Ends t ∧ (r = .ok () ∧ lastFailure t = none ∨ ∃ e, r = .error (.bus e) ∧ lastFailure t = some e) := by
  rcases makes_bind.1 h with ⟨e, hread, rfl⟩ | ⟨_, t₂, v, rfl, hread, hwrite⟩
  · obtain ⟨o, rfl, ho⟩ := makes_readReg.1 hread
    cases o with
    | ok v => cases ho
    | error b =>
      cases ho
      exact ⟨.inr ⟨b, rfl⟩, .inr ⟨b, rfl, rfl⟩⟩
  · obtain rfl := makes_readReg_ok.1 hread
    obtain ⟨o, rfl, rfl⟩ := makes_writeReg.1 hwrite
    refine ⟨.inl ⟨v, o, rfl⟩, ?_⟩
    cases o with
    | ok u => exact .inl ⟨rfl, rfl⟩
    | error b => exact .inr ⟨b, rfl, rfl⟩

/-- **An operation that ends its session tells the failure that kept it from that**, or else its own. -/
theorem tells_closing (h : Tells op) : Tells (closing op stopCrypto) := by
  intro t r hm e
  obtain ⟨t₁, t₂, r₁, r₂, rfl, h₁, h₂, rfl⟩ := makes_closing hm
  rw [lastFailure_append]
  rcases (makes_stopCrypto h₂).2 with ⟨rfl, hnone⟩ | ⟨b, rfl, hfailed⟩
  · rw [hnone]
    exact h t₁ r₁ h₁ e
  · rw [hfailed]
    simp [Except.bind]

/-! ## The operations -/

theorem makes_map {f : α → β} {r : Except CardError β} :
    (f <$> op).Makes t r ↔ ∃ r', op.Makes t r' ∧ r = r'.map f := by
  rw [map_eq_pure_bind, makes_bind]
  constructor
  · rintro (⟨e, h, rfl⟩ | ⟨t₁, t₂, a, rfl, h, hpure⟩)
    · exact ⟨.error e, h, rfl⟩
    · obtain ⟨rfl, rfl⟩ := makes_pure.1 hpure
      exact ⟨.ok a, by rwa [List.append_nil], rfl⟩
  · rintro ⟨e | a, h, rfl⟩
    · exact .inl ⟨e, h, rfl⟩
    · exact .inr ⟨t, [], a, (List.append_nil t).symm, h, makes_pure.2 ⟨rfl, rfl⟩⟩

theorem Tells.map (h : Tells op) (f : α → β) : Tells (f <$> op) := by
  intro t r hm e
  obtain ⟨r', h', rfl⟩ := makes_map.1 hm
  rw [← h t r' h' e]
  cases r' <;> simp [Except.map]

theorem Prompt.map (h : Prompt op) (f : α → β) : Prompt (f <$> op) := by
  rw [map_eq_pure_bind]
  exact prompt_bind h fun a => prompt_pure (f a)

/-- A failure of the bus does not count as no card. -/
theorem prompt_absentUnlessBus (h : Prompt op) : Prompt (absentUnlessBus op) := by
  intro t r hm
  obtain ⟨t₁, t₂, r₁, rfl, h₁, h₂⟩ := (Script.makes_bind op.run _ t r).1 hm
  rcases h t₁ r₁ h₁ with ⟨hflawless, hr⟩ | ⟨e, hbreaks, rfl⟩
  · refine .inl ?_
    rcases r₁ with e | a
    · cases e with
      | bus e => exact absurd rfl (hr e)
      | _ =>
        obtain ⟨rfl, rfl⟩ := h₂
        exact ⟨by rwa [List.append_nil], nofun⟩
    · obtain ⟨rfl, rfl⟩ := h₂
      exact ⟨by rwa [List.append_nil], nofun⟩
  · obtain ⟨rfl, rfl⟩ := h₂
    exact .inr ⟨e, by rwa [List.append_nil], rfl⟩

theorem prompt_init : Prompt init :=
  have hantenna : Prompt antennaOn :=
    prompt_bind (prompt_readReg _) fun _ => Compositional.ite (prompt_writeReg _ _) (prompt_pure ())
  prompt_bind (prompt_writeReg _ _) fun _ =>
  prompt_bind (prompt_note _) fun _ =>
  prompt_bind (prompt_writeReg _ _) fun _ =>
  prompt_bind (prompt_writeReg _ _) fun _ =>
  prompt_bind (prompt_writeReg _ _) fun _ =>
  prompt_bind (prompt_writeReg _ _) fun _ =>
  prompt_bind (prompt_writeReg _ _) fun _ =>
  prompt_bind (prompt_writeReg _ _) fun _ =>
  prompt_bind hantenna fun _ =>
  prompt_bind (prompt_readReg _) fun _ =>
  prompt_bind (prompt_note _) fun _ => prompt_pure _

theorem prompt_request : Prompt request := by
  refine prompt_bind (prompt_writeReg _ _) fun _ =>
    prompt_bind (prompt_absentUnlessBus prompt_communicate) fun frame => ?_
  split
  · exact prompt_pure _
  · exact prompt_throw nofun

theorem prompt_anticollision : Prompt anticollision := by
  refine prompt_bind (prompt_writeReg _ _) fun _ =>
    prompt_bind (prompt_absentUnlessBus prompt_communicate) fun frame => ?_
  split
  · exact Compositional.ite (prompt_bind (prompt_throw nofun) fun _ => prompt_pure _) (prompt_pure _)
  · exact Compositional.ite (prompt_bind (prompt_throw nofun) fun _ => prompt_throw nofun) (prompt_throw nofun)

theorem prompt_identify : Prompt identify :=
  prompt_bind prompt_request fun _ =>
  prompt_bind prompt_anticollision fun uid =>
  prompt_bind (prompt_parts.select uid) fun _ => prompt_pure uid

end Operation

/-! ## Exchanges on a serial bus -/

/-- The error that an outcome is, if it is one. -/
def BusError.of? {α : Type} : Except BusError α → Option BusError
  | .ok _ => none
  | .error e => some e

/-- The error that an exchange shows as, if it failed. -/
def Exchange.failure (x : Exchange) : Option BusError :=
  match x.received with
  | .ok _ => none
  | .error (.transfer fault) => some (.transfer fault)
  | .error .crash => some .poisoned

theorem BusError.of?_map {α β : Type} (f : α → β) (r : Except BusError α) :
    BusError.of? (r.map f) = BusError.of? r := by
  cases r <;> rfl

theorem Access.failure_read (reg : UInt8) (r : Except BusError UInt8) :
    (Access.read reg r).failure = BusError.of? r := by
  cases r <;> rfl

theorem Access.failure_write (reg value : UInt8) (r : Except BusError Unit) :
    (Access.write reg value r).failure = BusError.of? r := by
  cases r <;> rfl

namespace SpiBus

variable {ν α δ : Type} [SpiDevice δ] {b b' : SpiBus δ} {role : Role}

/-- An exchange on a bus that is in use is recorded, and fails as its record says. The bus stays in use
unless the device breaks down. -/
theorem exchange_recorded (h : b.poisoned = false) (role : Role) (sent : UInt8 × UInt8) :
    ∃ x : Exchange, (b.exchange role sent).2.exchanges = x :: b.exchanges ∧
      BusError.of? (b.exchange role sent).1 = x.failure ∧
      ((b.exchange role sent).2.poisoned = false ∨ x.failure = some .poisoned) := by
  unfold exchange
  rw [if_neg (by simp [h])]
  obtain ⟨received, device⟩ := SpiDevice.transfer (b.devices.get role) sent
  refine ⟨⟨role, sent, received⟩, ?_⟩
  rcases received with (fault | _) | pair
  · exact ⟨rfl, rfl, .inl h⟩
  · exact ⟨rfl, rfl, .inr rfl⟩
  · exact ⟨rfl, rfl, .inl h⟩

/-- A bus that is out of use records nothing more, and every access to it fails. -/
theorem run_poisoned (x : Script ν α) (role : Role) (h : b.poisoned = true) :
    (x.run role b).2.1.exchanges = b.exchanges ∧
      (lastFailure (x.trace role b)).or (some .poisoned) = some .poisoned := by
  have hexchange (sent : UInt8 × UInt8) : b.exchange role sent = (.error .poisoned, b) := if_pos h
  induction x with
  | done a => exact ⟨rfl, rfl⟩
  | read reg next ih =>
    have hread : RegisterBus.read b role reg = (.error .poisoned, b) := by
      show b.read role reg = _
      rw [SpiBus.read, hexchange]
      rfl
    obtain ⟨hrun, hlast⟩ := ih (.error .poisoned)
    simp only [Script.run, Script.trace, hread, lastFailure_cons]
    exact ⟨hrun, by rw [Access.failure_read, BusError.of?, hlast]; rfl⟩
  | write reg value next ih =>
    have hwrite : RegisterBus.write b role reg value = (.error .poisoned, b) := by
      show b.write role reg value = _
      rw [SpiBus.write, hexchange]
      rfl
    obtain ⟨hrun, hlast⟩ := ih (.error .poisoned)
    simp only [Script.run, Script.trace, hwrite, lastFailure_cons]
    exact ⟨hrun, by rw [Access.failure_write, BusError.of?, hlast]; rfl⟩
  | note n next ih => exact ih

/-- One exchange, and what comes after it. -/
theorem lastFailure_step {x : Exchange} {a : Access} {y : Script ν α}
    (hrecord : b'.exchanges = x :: b.exchanges) (hfailure : a.failure = x.failure)
    (huse : b'.poisoned = false ∨ x.failure = some .poisoned)
    (hrest : b'.poisoned = false → ∃ made, (y.run role b').2.1.exchanges = made ++ b'.exchanges ∧
      lastFailure (y.trace role b') = made.findSome? Exchange.failure) :
    ∃ made, (y.run role b').2.1.exchanges = made ++ b.exchanges ∧
      lastFailure (a :: y.trace role b') = made.findSome? Exchange.failure := by
  cases hb : b'.poisoned with
  | false =>
    obtain ⟨made, hmade, hlast⟩ := hrest hb
    have hone : [x].findSome? Exchange.failure = x.failure := by
      cases hx : x.failure <;> simp [hx]
    refine ⟨made ++ [x], by rw [hmade, hrecord, List.append_assoc]; rfl, ?_⟩
    rw [lastFailure_cons, hlast, hfailure, List.findSome?_append, hone]
  | true =>
    -- the device broke down in this exchange, which is therefore the last
    have hcrash : x.failure = some .poisoned := huse.resolve_left (by simp [hb])
    obtain ⟨hmade, hlast⟩ := run_poisoned y role hb
    refine ⟨[x], by rw [hmade, hrecord]; rfl, ?_⟩
    rw [lastFailure_cons, hfailure, hcrash, hlast]
    simp [hcrash]

/-- **On a serial bus, an access fails if and only if its exchange does.** The exchanges that a script
makes are recorded, newest first, so the first failure among them is the last that the script has met. -/
theorem lastFailure_run (x : Script ν α) (role : Role) (h : b.poisoned = false) :
    ∃ made, (x.run role b).2.1.exchanges = made ++ b.exchanges ∧
      lastFailure (x.trace role b) = made.findSome? Exchange.failure := by
  induction x generalizing b with
  | done a => exact ⟨[], rfl, rfl⟩
  | read reg next ih =>
    obtain ⟨x, hrecord, hfailure, huse⟩ := exchange_recorded h role (readAddress reg, 0)
    refine lastFailure_step hrecord ?_ huse (ih _)
    rw [Access.failure_read, ← hfailure]
    exact BusError.of?_map _ _
  | write reg value next ih =>
    obtain ⟨x, hrecord, hfailure, huse⟩ := exchange_recorded h role (writeAddress reg, value)
    refine lastFailure_step hrecord ?_ huse (ih _)
    rw [Access.failure_write, ← hfailure]
    exact BusError.of?_map _ _
  | note n next ih => exact ih h

end SpiBus

/-! ## Every task -/

namespace Task

/-- The accesses that a task makes at its end, whatever became of it before: those that end a session, if
it reads or writes a block, and none otherwise. -/
def Closes : Task → List Access → Prop
  | .readBlock _ _, t => Ends t
  | .writeBlock _ _ _, t => Ends t
  | _, t => t = []

/-- What is told by the accesses of a task and its outcome. -/
structure FailureTold (task : Task) (t : List Access) (r : Except CardError Product) : Prop where
  /-- An error of the bus is the outcome if and only if an access failed, and then that of the last. -/
  last : ∀ e, r = .error (.bus e) ↔ lastFailure t = some e
  /-- Nothing is done after a failure, but to end the session. -/
  halts : ∃ own ending, t = own ++ ending ∧ Halts own ∧ task.Closes ending

variable {task : Task} {t : List Access} {r : Except CardError Product}

open Operation

theorem failureTold_of_prompt {α : Type} {op : Operation α} {f : α → Product} (h : Prompt op)
    (hcloses : task.Closes []) (hm : (f <$> op).Makes t r) : task.FailureTold t r :=
  ⟨h.tells.map f t r hm, t, [], (List.append_nil t).symm, (h.map f).halts hm, hcloses⟩

theorem failureTold_of_closing {α : Type} {op : Operation α} {f : α → Product} (h : Prompt op)
    (hcloses : ∀ ending, Ends ending → task.Closes ending)
    (hm : (f <$> closing op Operation.stopCrypto).Makes t r) : task.FailureTold t r := by
  refine ⟨(tells_closing h.tells).map f t r hm, ?_⟩
  obtain ⟨_, hm, -⟩ := makes_map.1 hm
  obtain ⟨own, ending, _, _, rfl, hown, hend, -⟩ := makes_closing hm
  exact ⟨own, ending, rfl, h.halts hown, hcloses ending (makes_stopCrypto hend).1⟩

/-- Whatever a task meets, it tells the last failure. -/
theorem makes_failureTold (task : Task) (hm : task.operation.Makes t r) : task.FailureTold t r := by
  cases task with
  | init => exact failureTold_of_prompt prompt_init rfl hm
  | version => exact failureTold_of_prompt (prompt_readReg _) rfl hm
  | request => exact failureTold_of_prompt prompt_request rfl hm
  | anticollision => exact failureTold_of_prompt prompt_anticollision rfl hm
  | checksum data => exact failureTold_of_prompt (prompt_parts.checksum data) rfl hm
  | communicate command send => exact failureTold_of_prompt prompt_communicate rfl hm
  | select uid => exact failureTold_of_prompt (prompt_parts.select uid) rfl hm
  | identify => exact failureTold_of_prompt prompt_identify rfl hm
  | authenticate kind block key uid => exact failureTold_of_prompt prompt_authenticate rfl hm
  | authenticateDefault block uid => exact failureTold_of_prompt prompt_authenticateDefault rfl hm
  | stopCrypto => exact failureTold_of_prompt (prompt_parts.clearBits _ _) rfl hm
  | readBlock block uid =>
    exact failureTold_of_closing (prompt_bind prompt_authenticateDefault fun _ => prompt_parts.readOpen block)
      (fun _ h => h) hm
  | writeBlock block uid data =>
    exact failureTold_of_closing
      (prompt_bind prompt_authenticateDefault fun _ => prompt_parts.writeOpen block data) (fun _ h => h) hm

end Task

/-- **The last failure is told**, whatever is asked of a reader and wherever accesses fail. On every bus
the outcome of a task is an error of the bus if and only if one of its accesses failed, and then it is
the error of the last that did; and nothing is done after a failure, but to end the session of a block
that was to be read or written. On a serial bus that is in use, a failed access is a failed exchange. -/
theorem last_failure_told (task : Task) (role : Role) :
    (∀ (σ : Type) [RegisterBus σ] (s : σ),
      task.FailureTold (task.operation.trace role s) (task.operation.perform role s).1) ∧
    ∀ (δ : Type) [SpiDevice δ] (b : SpiBus δ), b.poisoned = false →
      ∃ made, (task.operation.perform role b).2.1.exchanges = made ++ b.exchanges ∧
        ∀ e, (task.operation.perform role b).1 = .error (.bus e) ↔
          made.findSome? Exchange.failure = some e := by
  have htold : ∀ (σ : Type) [RegisterBus σ] (s : σ),
      task.FailureTold (task.operation.trace role s) (task.operation.perform role s).1 :=
    fun σ _ s => task.makes_failureTold (Operation.makes_trace role task.operation s)
  refine ⟨htold, fun δ _ b hb => ?_⟩
  obtain ⟨made, hmade, hlast⟩ := SpiBus.lastFailure_run task.operation.run role hb
  exact ⟨made, hmade, fun e => hlast ▸ (htold (SpiBus δ) b).last e⟩

/-- A bus that fails while a key is tried, and again while the session is ended: the second failure is
told. -/
theorem last_failure_told_twice :
    let device : ScriptedDevice := { faults := [(3, .transfer .overrun), (5, .transfer .chipSelectFault)] }
    let b : SpiBus ScriptedDevice := ⟨⟨device, {}⟩, false, []⟩
    let task := Task.writeBlock 8 ⟨1, 2, 3, 4⟩ (List.replicate 16 0x20)
    b.poisoned = false ∧
      (task.operation.perform .entry b).1 = .error (.bus (.transfer .chipSelectFault)) ∧
      ∃ made, (task.operation.perform .entry b).2.1.exchanges = made ++ b.exchanges ∧
        made.findSome? Exchange.failure = some (.transfer .chipSelectFault) := by
  intro device b task
  obtain ⟨hbus, hserial⟩ := last_failure_told task .entry
  have hlast : lastFailure (task.operation.trace .entry b) = some (.transfer .chipSelectFault) := by
    decide +kernel
  have htold := ((hbus (SpiBus ScriptedDevice) b).last _).2 hlast
  obtain ⟨made, hmade, hiff⟩ := hserial ScriptedDevice b rfl
  exact ⟨rfl, htold, made, hmade, (hiff _).1 htold⟩

end Turnstile

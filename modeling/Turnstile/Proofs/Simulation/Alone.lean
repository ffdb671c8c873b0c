import Turnstile.Proofs.Reader.Exchange
import Turnstile.Simulation.Field

/-!
# A simulated reader by itself

An operation on one of the two readers meets the chip of that reader and nothing else, so a
chip is a bus of its own, and what an operation does before both readers it does before one.

* `Operation.perform_field`: an operation on one reader of a field is one on its chip.
* `Operation.Runs`: with which outcome an operation ends on a chip, and how it leaves the chip.
* `Runs.bind`, `Runs.fail`, `Runs.closing`: operations in two parts.
* `runs_fetch`: what an operation reads from the buffer of a chip, and so on for every access.
-/

namespace Turnstile

/-- A chip by itself is a bus, whichever side it is said to be on. -/
instance : RegisterBus SimChip where
  read c _ reg := if c.broken then (.error (.transfer .other), c) else (.ok (c.read reg).1, (c.read reg).2)
  write c _ reg value := if c.broken then (.error (.transfer .other), c) else (.ok (), c.write reg value)

theorem Sides.set_get_self {α : Type} (s : Sides α) (role : Role) : s.set role (s.get role) = s := by
  cases role <;> rfl

theorem Sides.set_set {α : Type} (s : Sides α) (role : Role) (a b : α) :
    (s.set role a).set role b = s.set role b := by
  cases role <;> rfl

namespace Field

theorem read_eq (f : Field) (role : Role) (reg : UInt8) :
    RegisterBus.read f role reg =
      ((RegisterBus.read (f.get role) role reg).1, f.set role (RegisterBus.read (f.get role) role reg).2) := by
  show f.read role reg = _
  unfold read
  simp only [RegisterBus.read]
  split
  · rw [Sides.set_get_self]
  · rfl

theorem write_eq (f : Field) (role : Role) (reg value : UInt8) :
    RegisterBus.write f role reg value =
      ((RegisterBus.write (f.get role) role reg value).1,
        f.set role (RegisterBus.write (f.get role) role reg value).2) := by
  show f.write role reg value = _
  unfold write
  simp only [RegisterBus.write]
  split
  · rw [Sides.set_get_self]
  · rfl

end Field

/-- A script on one reader of a field is one on its chip. -/
theorem Script.run_field {ν α : Type} (x : Script ν α) (role : Role) (f : Field) :
    x.run role f = ((x.run role (f.get role)).1, f.set role (x.run role (f.get role)).2.1,
      (x.run role (f.get role)).2.2) := by
  induction x generalizing f with
  | done a => simp only [run, Sides.set_get_self]
  | read reg next ih => simp only [run, Field.read_eq, ih, Sides.get_set_self, Sides.set_set]
  | write reg value next ih => simp only [run, Field.write_eq, ih, Sides.get_set_self, Sides.set_set]
  | note n next ih => simp only [run, ih f]

namespace Operation

variable {α β σ : Type}

/-- **An operation on one reader of a field is one on its chip.** -/
theorem perform_field (op : Operation α) (role : Role) (f : Field) :
    op.perform role f = ((op.perform role (f.get role)).1, f.set role (op.perform role (f.get role)).2.1,
      (op.perform role (f.get role)).2.2) :=
  Script.run_field op.run role f

/-- Whether an operation ends with an outcome on a bus, and leaves the bus so. -/
def Runs [RegisterBus σ] (op : Operation α) (s : σ) (r : Except CardError α) (s' : σ) : Prop :=
  ∀ role, (op.perform role s).1 = r ∧ (op.perform role s).2.1 = s'

section Parts

variable [RegisterBus σ] {s s' s'' : σ} {op : Operation α} {f : α → Operation β}

theorem runs_pure (a : α) : Runs (pure a : Operation α) s (.ok a) s := fun _ => ⟨rfl, rfl⟩

theorem runs_throw (e : CardError) : Runs (throw e : Operation α) s (.error e) s := fun _ => ⟨rfl, rfl⟩

theorem runs_note (n : Notice) : Runs (note n) s (.ok ()) s := fun _ => ⟨rfl, rfl⟩

theorem perform_bindCont (role : Role) (op : Operation α) (f : α → Operation β) (s : σ) :
    (op >>= f).perform role s =
      (((ExceptT.bindCont f (op.perform role s).1).run role (op.perform role s).2.1).1,
        ((ExceptT.bindCont f (op.perform role s).1).run role (op.perform role s).2.1).2.1,
        (op.perform role s).2.2 ++
          ((ExceptT.bindCont f (op.perform role s).1).run role (op.perform role s).2.1).2.2) :=
  Script.run_bind role op.run (ExceptT.bindCont f) s

theorem Runs.bind {a : α} {r : Except CardError β} (h : Runs op s (.ok a) s')
    (hf : Runs (f a) s' r s'') : Runs (op >>= f) s r s'' := by
  intro role
  have hrest : (ExceptT.bindCont f (.ok a)).run role s' = (f a).perform role s' := rfl
  rw [perform_bindCont, (h role).1, (h role).2, hrest]
  exact hf role

theorem Runs.fail {e : CardError} (h : Runs op s (.error e) s') :
    Runs (op >>= f) s (.error e) s' := by
  intro role
  rw [perform_bindCont, (h role).1, (h role).2]
  exact ⟨rfl, rfl⟩

theorem Runs.closing {r : Except CardError α} {last : Operation Unit} (h : Runs op s r s')
    (hlast : Runs last s' (.ok ()) s'') : Runs (closing op last) s r s'' := by
  intro role
  have hop : (op.run.run role s).1 = r ∧ (op.run.run role s).2.1 = s' := h role
  have hend : (last.run.run role s').1 = .ok () ∧ (last.run.run role s').2.1 = s'' := hlast role
  simp only [perform, Operation.closing, ExceptT.run_mk, Script.bind_eq, Script.run_bind]
  rw [hop.1, hop.2, hend.1, hend.2]
  exact ⟨rfl, rfl⟩

theorem Runs.closing_fail {r : Except CardError α} {last : Operation Unit} {e : CardError}
    (h : Runs op s r s') (hlast : Runs last s' (.error e) s'') :
    Runs (Operation.closing op last) s (.error e) s'' := by
  intro role
  have hop : (op.run.run role s).1 = r ∧ (op.run.run role s).2.1 = s' := h role
  have hend : (last.run.run role s').1 = .error e ∧ (last.run.run role s').2.1 = s'' := hlast role
  simp only [perform, Operation.closing, ExceptT.run_mk, Script.bind_eq, Script.run_bind]
  rw [hop.1, hop.2, hend.1, hend.2]
  exact ⟨rfl, rfl⟩

/-- Failures, those of the bus apart, count as no card. -/
theorem Runs.absentUnlessBus {r : Except CardError α} (h : Runs op s r s')
    (hbus : ∀ e, r ≠ .error (.bus e)) :
    Runs (absentUnlessBus op) s (r.mapError fun _ => .noCard) s' := by
  intro role
  have hop : (op.run.run role s).1 = r ∧ (op.run.run role s).2.1 = s' := h role
  simp only [perform, Operation.absentUnlessBus, ExceptT.run_mk, Script.bind_eq, Script.run_bind]
  rw [hop.1, hop.2]
  cases r with
  | ok a => exact ⟨rfl, rfl⟩
  | error e =>
    cases e with
    | bus e => exact absurd rfl (hbus e)
    | _ => exact ⟨rfl, rfl⟩

end Parts

/-- A script goes on a chip by itself as it goes on either side. -/
theorem run_role {ν : Type} (x : Script ν α) (role other : Role) (c : SimChip) :
    x.run role c = x.run other c := by
  induction x generalizing c with
  | done a => rfl
  | read reg next ih => exact ih _ _
  | write reg value next ih => exact ih _ _
  | note n next ih => simp only [Script.run, ih]

/-- Every operation on a chip ends somehow. -/
theorem runs_somehow (op : Operation α) (c : SimChip) : ∃ r c', Runs op c r c' := by
  refine ⟨(op.perform .entry c).1, (op.perform .entry c).2.1, fun role => ?_⟩
  have hsame : op.perform role c = op.perform .entry c := run_role op.run role .entry c
  rw [hsame]
  exact ⟨rfl, rfl⟩

/-! ## Accesses to a chip that is not broken -/

section Chip

variable {c : SimChip} (h : c.broken = false)

include h in
theorem runs_readReg (reg : UInt8) : Runs (readReg reg) c (.ok (c.read reg).1) (c.read reg).2 := by
  intro role
  have hread : RegisterBus.read c role reg = (.ok (c.read reg).1, (c.read reg).2) := by
    simp [RegisterBus.read, h]
  have hrun : (readReg reg).perform role c = (ofBus (RegisterBus.read c role reg).1,
      (RegisterBus.read c role reg).2, []) := rfl
  rw [hrun, hread]
  exact ⟨rfl, rfl⟩

include h in
theorem runs_writeReg (reg value : UInt8) : Runs (writeReg reg value) c (.ok ()) (c.write reg value) := by
  intro role
  have hwrite : RegisterBus.write c role reg value = (.ok (), c.write reg value) := by
    simp [RegisterBus.write, h]
  have hrun : (writeReg reg value).perform role c = (ofBus (RegisterBus.write c role reg value).1,
      (RegisterBus.write c role reg value).2, []) := rfl
  rw [hrun, hwrite]
  exact ⟨rfl, rfl⟩

include h in
/-- A register that is merely stored. -/
theorem runs_readStored (reg : UInt8) (hreg : reg ≠ Reg.fifoData ∧ reg ≠ Reg.fifoLevel) :
    Runs (readReg reg) c (.ok (c.get reg)) c := by
  have hread : c.read reg = (c.get reg, c) := by
    unfold SimChip.read
    rw [if_neg hreg.1, if_neg hreg.2]
  have hruns := runs_readReg h reg
  rwa [hread] at hruns

include h in
theorem runs_setBits (reg : UInt8) (hreg : reg ≠ Reg.fifoData ∧ reg ≠ Reg.fifoLevel) (mask : UInt8) :
    Runs (setBits reg mask) c (.ok ()) (c.write reg (c.get reg ||| mask)) :=
  (runs_readStored h reg hreg).bind (runs_writeReg h reg _)

include h in
theorem runs_clearBits (reg : UInt8) (hreg : reg ≠ Reg.fifoData ∧ reg ≠ Reg.fifoLevel) (mask : UInt8) :
    Runs (clearBits reg mask) c (.ok ()) (c.write reg (c.get reg &&& ~~~mask)) :=
  (runs_readStored h reg hreg).bind (runs_writeReg h reg _)

include h in
/-- The buffer is flushed, however much is in it. -/
theorem runs_flush : Runs (setBits Reg.fifoLevel 0x80) c (.ok ()) { c with fifo := [] } := by
  have hflush : ∀ v : UInt8, (v ||| 0x80) &&& 0x80 ≠ 0 :=
    octet_forall (p := fun v => (v ||| 0x80) &&& 0x80 ≠ 0) (by decide +kernel)
  have hwrite : ∀ v, c.write Reg.fifoLevel (v ||| 0x80) = { c with fifo := [] } := by
    intro v
    have hreg : ¬ (Reg.fifoLevel = Reg.comIrq ∨ Reg.fifoLevel = Reg.divIrq) := by decide
    unfold SimChip.write
    rw [if_neg hreg, if_pos rfl, if_pos (hflush v)]
  have hlevel : (c.read Reg.fifoLevel).2 = c := rfl
  have hread := runs_readReg h Reg.fifoLevel
  rw [hlevel] at hread
  have hruns := runs_writeReg h Reg.fifoLevel ((c.read Reg.fifoLevel).1 ||| 0x80)
  rw [hwrite] at hruns
  exact hread.bind hruns

include h in
theorem runs_writeAll (bs : Bytes) :
    Runs (writeAll Reg.fifoData bs) c (.ok ()) { c with fifo := c.fifo ++ bs } := by
  induction bs generalizing c with
  | nil =>
    rw [List.append_nil]
    exact runs_pure ()
  | cons b bs ih =>
    have hwrite : c.write Reg.fifoData b = { c with fifo := c.fifo ++ [b] } := rfl
    have hrest := ih (c := c.write Reg.fifoData b) h
    rw [hwrite, List.append_assoc] at hrest
    exact (runs_writeReg h Reg.fifoData b).bind hrest

include h in
theorem runs_readMany : Runs (readMany Reg.fifoData c.fifo.length) c (.ok c.fifo) { c with fifo := [] } := by
  generalize hbs : c.fifo = bs
  induction bs generalizing c with
  | nil =>
    have hempty : { c with fifo := [] } = c := by rw [← hbs]
    rw [hempty]
    exact runs_pure []
  | cons b bs ih =>
    have hread : c.read Reg.fifoData = (b, { c with fifo := bs }) := by
      unfold SimChip.read
      rw [if_pos rfl, hbs]
    have hruns := runs_readReg h Reg.fifoData
    rw [hread] at hruns
    exact hruns.bind ((ih (c := { c with fifo := bs }) h rfl).bind (runs_pure _))

include h in
/-- A flag that shows at once. -/
theorem runs_pollUntil {reg mask : UInt8} {budget : Nat}
    (hreg : reg ≠ Reg.fifoData ∧ reg ≠ Reg.fifoLevel) (hflag : c.get reg &&& mask ≠ 0) :
    Runs (pollUntil reg mask (budget + 1)) c (.ok true) c := by
  have hfound : (if c.get reg &&& mask ≠ 0 then pure true else pollUntil reg mask budget) =
      (pure true : Operation Bool) := if_pos hflag
  refine (runs_readStored h reg hreg).bind ?_
  rw [hfound]
  exact runs_pure true

include h in
/-- Whether a flag shows or not, waiting for it changes nothing. -/
theorem runs_pollUntil_settled {reg mask : UInt8} (hreg : reg ≠ Reg.fifoData ∧ reg ≠ Reg.fifoLevel)
    (budget : Nat) : ∃ found, Runs (pollUntil reg mask budget) c (.ok found) c := by
  induction budget with
  | zero => exact ⟨false, runs_pure false⟩
  | succ budget ih =>
    by_cases hflag : c.get reg &&& mask ≠ 0
    · exact ⟨true, runs_pollUntil h hreg hflag⟩
    · obtain ⟨found, hrest⟩ := ih
      have hon : (if c.get reg &&& mask ≠ 0 then pure true else pollUntil reg mask budget) =
          pollUntil reg mask budget := if_neg hflag
      refine ⟨found, (runs_readStored h reg hreg).bind ?_⟩
      rwa [hon]

include h in
/-- What is in the buffer is the answer. -/
theorem runs_fetch (hlen : c.fifo.length ≤ fifoCapacity) :
    Runs fetch c (.ok ⟨c.fifo, validBits c.fifo.length (c.get Reg.control &&& 0x07).toNat⟩)
      { c with fifo := [] } := by
  have hlevel : c.read Reg.fifoLevel = (UInt8.ofNat c.fifo.length, c) := rfl
  have hcount : min (UInt8.ofNat c.fifo.length &&& 0x7F).toNat fifoCapacity = c.fifo.length := by
    have hall : ∀ n < 65, min (UInt8.ofNat n &&& 0x7F).toNat fifoCapacity = n := by decide +kernel
    exact hall _ (Nat.lt_succ_of_le hlen)
  have hread := runs_readReg h Reg.fifoLevel
  rw [hlevel] at hread
  refine hread.bind ?_
  rw [hcount]
  have hcontrol := runs_readStored (c := { c with fifo := [] }) h Reg.control (by decide)
  exact (runs_readMany h).bind (hcontrol.bind (runs_pure _))

end Chip

end Operation

end Turnstile

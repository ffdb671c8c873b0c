import Turnstile.Proofs.Card.Checksum
import Turnstile.Proofs.Reader.Session
import Turnstile.Proofs.Reader.Tasks
import Turnstile.Proofs.Simulation.Commands
import Turnstile.Proofs.Simulation.Sessions

/-!
# The checksum unit of a simulated reader

The unit computes what the serial register would hold, and raises a flag when it is done. No task takes
the flag back, so that the flag is up when the next computation starts.

* `checksum_unit_serial`: **the unit computes the serial checksum**, whatever was left in the buffer and
  in the registers.
* `Access.Spares`, `Task.spares`: no task marks the flag for being cleared.
* `Task.instants`: the accesses of tasks on both readers, each with the readers as it finds them.
* `checksum_flag_iff`: **when the flag is up**: if a checksum was computed since the last reset.
-/

namespace Turnstile

/-- **The checksum is the serial one, and the checksum unit agrees.** On either reader of a field whose
bus is intact, whatever is in its buffer and in its registers, the operation ends with the two octets of
the serial register, and leaves the buffer empty. -/
theorem checksum_unit_serial (data : Bytes) :
    Checksum.of data = Checksum.serial data ∧
      ∀ (f : Field) (role : Role), (f.get role).broken = false →
        ((Operation.checksum data).perform role f).1 = .ok (Checksum.serial data) ∧
          (((Operation.checksum data).perform role f).2.1.get role).fifo = [] := by
  have hserial : Checksum.of data = Checksum.serial data := Checksum.of_eq_serial data
  refine ⟨hserial, fun f role hf => ?_⟩
  obtain ⟨c', hruns, hfifo, -⟩ := Operation.runs_checksum hf data
  rw [Operation.perform_field, ← hserial]
  refine ⟨(hruns role).1, ?_⟩
  dsimp only
  rw [Sides.get_set_self, (hruns role).2, hfifo]

/-- A field with so many octets left in the buffer of the entry that their number shows as none, and
with the flag of the checksum unit up. -/
def floodedField : Field :=
  Field.new.set .entry {
    regs := (Registers.powerOn.set Reg.divIrq 0x04).set Reg.crcLow 0xFF
    fifo := List.replicate 256 0x5A }

/-- The checksum of a frame that reads the first block. -/
theorem checksum_unit_serial_flooded :
    (floodedField.get .entry).broken = false ∧
      ((floodedField.get .entry).read Reg.fifoLevel).1 = 0 ∧
      ((Operation.checksum [0x30, 0x00]).perform .entry floodedField).1 = .ok [0x02, 0xA8] := by
  have hserial : Checksum.serial [0x30, 0x00] = [0x02, 0xA8] := by decide +kernel
  refine ⟨rfl, by decide +kernel, ?_⟩
  rw [((checksum_unit_serial [0x30, 0x00]).2 floodedField .entry rfl).1, hserial]

/-! ## No task takes the flag back -/

/-- Whether an access leaves the flag of the checksum unit unmarked. A write of the flags clears, or
raises, those that it marks, and no others. -/
def Access.Spares : Access → Prop
  | .read _ _ => True
  | .write reg value _ => reg = Reg.divIrq → value &&& 0x04 = 0

theorem Access.spares_of_ne {reg : UInt8} (h : reg ≠ Reg.divIrq) (value : UInt8)
    (o : Except BusError Unit) : (Access.write reg value o).Spares :=
  fun hreg => absurd hreg h

theorem Access.Routine.spares {a : Access} (h : a.Routine) : a.Spares := by
  cases a with
  | read reg r => trivial
  | write reg value o =>
    rcases h with hreg | ⟨rfl, hvalue⟩ | ⟨rfl, -⟩ | ⟨rfl, -⟩
    · exact spares_of_ne (ne_of_mem_of_not_mem hreg (by decide)) value o
    · exact fun _ => hvalue
    · exact spares_of_ne (by decide) value o
    · exact spares_of_ne (by decide) value o

namespace Operation

theorem spares_write {reg value : UInt8} (h : reg ≠ Reg.divIrq) : Keeps Access.Spares (writeReg reg value) :=
  keeps_writeReg fun o => Access.spares_of_ne h value o

theorem spares_communicate (command : UInt8) (send : Bytes) :
    Keeps Access.Spares (communicate command send) := by
  refine keeps_mono (communicate_partOf command send) fun a h => ?_
  rcases h with h | ⟨o, rfl⟩ | ⟨-, v, o, rfl⟩
  · exact h.spares
  · exact Access.spares_of_ne (by decide) command o
  · exact Access.spares_of_ne (by decide) v o

theorem spares_closed (data : Bytes) : Keeps Access.Spares (closed data) :=
  keeps_mono (closed_routine data) fun _ h => h.spares

theorem spares_init : Keeps Access.Spares init :=
  have hread (reg : UInt8) : Keeps Access.Spares (readReg reg) := keeps_readReg fun _ => trivial
  have hantenna : Keeps Access.Spares antennaOn :=
    keeps_bind (hread _) fun _ => keeps_ite (spares_write (by decide)) (keeps_pure ())
  keeps_bind (spares_write (by decide)) fun _ =>
  keeps_bind (keeps_note _) fun _ =>
  keeps_bind (spares_write (by decide)) fun _ =>
  keeps_bind (spares_write (by decide)) fun _ =>
  keeps_bind (spares_write (by decide)) fun _ =>
  keeps_bind (spares_write (by decide)) fun _ =>
  keeps_bind (spares_write (by decide)) fun _ =>
  keeps_bind (spares_write (by decide)) fun _ =>
  keeps_bind hantenna fun _ =>
  keeps_bind (hread _) fun _ =>
  keeps_bind (keeps_note _) fun _ => keeps_pure _

theorem spares_readOpen (block : UInt8) : Keeps Access.Spares (readOpen block) :=
  keeps_bind (spares_closed _) fun _ =>
  keeps_bind (spares_communicate _ _) fun _ =>
  keeps_ite (keeps_bind (keeps_throw _) fun _ => keeps_pure _) (keeps_pure _)

theorem spares_writeOpen (block : UInt8) (data : Bytes) : Keeps Access.Spares (writeOpen block data) := by
  have hsubmit (data : Bytes) : Keeps Access.Spares (submit data) :=
    keeps_submit spares_closed (spares_communicate _) data
  rw [writeOpen_eq]
  exact keeps_bind (hsubmit _) fun _ => hsubmit data

theorem spares_stopCrypto : Keeps Access.Spares stopCrypto :=
  keeps_clearBits (fun _ => trivial) fun v o => Access.spares_of_ne (by decide) v o

end Operation

open Operation in
/-- **No task marks the flag of the checksum unit**, whatever the bus answers. -/
theorem Task.spares (task : Task) : Keeps Access.Spares task.operation := by
  have hframing (v : UInt8) (o : Except BusError Unit) : (Access.write Reg.bitFraming v o).Spares :=
    Access.spares_of_ne (by decide) v o
  have hsend := spares_communicate ReaderCommand.transceive
  have hkey := spares_communicate ReaderCommand.authenticate
  have hopen (block : UInt8) (uid : Uid) : Keeps Access.Spares (Operation.authenticateDefault block uid) :=
    keeps_authenticateDefault (fun _ => trivial) hkey
  cases task with
  | init => exact keeps_map spares_init
  | version => exact keeps_map (keeps_readReg fun _ => trivial)
  | request => exact keeps_map (keeps_request hframing hsend)
  | anticollision => exact keeps_map (keeps_anticollision hframing hsend)
  | checksum data => exact keeps_map (keeps_mono (checksum_routine data) fun _ h => h.spares)
  | communicate command send => exact keeps_map (spares_communicate command send)
  | select uid => exact keeps_map (keeps_select spares_closed hsend uid)
  | identify => exact keeps_map (keeps_identify hframing spares_closed hsend)
  | authenticate kind block key uid => exact keeps_map (keeps_authenticate (fun _ => trivial) hkey)
  | authenticateDefault block uid => exact keeps_map (hopen block uid)
  | stopCrypto => exact keeps_map spares_stopCrypto
  | readBlock block uid =>
    exact keeps_map <| keeps_closing (keeps_bind (hopen block uid) fun _ => spares_readOpen block)
      spares_stopCrypto
  | writeBlock block uid data =>
    exact keeps_map <| keeps_closing (keeps_bind (hopen block uid) fun _ => spares_writeOpen block data)
      spares_stopCrypto

/-! ## The flag -/

/-- Whether an access gave the reader a command. The reader looks at four bits of it. -/
def Access.gave (command : UInt8) : Access → Bool
  | .write reg value (.ok ()) => reg = Reg.command && value &&& 0x0F = command
  | _ => false

/-- Whether the flag of the checksum unit is up after an access. -/
def flagAfter (up : Bool) (a : Access) : Bool :=
  if a.gave ReaderCommand.computeCrc then true
  else if a.gave ReaderCommand.softReset then false
  else up

namespace SimChip

variable {c c' : SimChip} {reg value : UInt8} {regs : List UInt8}

/-- Whether the checksum unit shows that it is done. -/
def checksumDone (c : SimChip) : Bool :=
  c.get Reg.divIrq &&& 0x04 ≠ 0

theorem KeepsBut.checksumDone (h : KeepsBut regs c' c) (hregs : Reg.divIrq ∉ regs) :
    c'.checksumDone = c.checksumDone := by
  rw [SimChip.checksumDone, SimChip.checksumDone, h.kept _ hregs]

/-- Flags that are not marked stay as they are. -/
theorem flagsAfter_spared (current : UInt8) (h : value &&& 0x04 = 0) :
    flagsAfter current value &&& 0x04 = current &&& 0x04 := by
  have hmarked : value &&& 0x7F &&& 0x04 = 0 := by
    rw [UInt8.and_assoc]
    exact h
  have hunmarked : ∀ v : UInt8, v &&& 0x04 = 0 → ~~~v &&& 0x04 = 0x04 :=
    octet_forall (p := fun v => v &&& 0x04 = 0 → ~~~v &&& 0x04 = 0x04) (by decide +kernel)
  have hraise : (current ||| (value &&& 0x7F)) &&& 0x04 =
      (current &&& 0x04) ||| (value &&& 0x7F &&& 0x04) :=
    UInt8.toBitVec_inj.1 BitVec.and_or_distrib_right
  unfold flagsAfter
  dsimp only
  split
  · rw [hraise, hmarked, UInt8.or_zero]
  · rw [UInt8.and_assoc, hunmarked _ hmarked]

theorem checksumDone_computeChecksum (c : SimChip) : c.computeChecksum.checksumDone = true :=
  decide_eq_true (c.computeChecksum_eq).2.1

theorem checksumDone_reset (c : SimChip) : c.reset.checksumDone = false := by
  have hpower : Registers.powerOn.get Reg.divIrq &&& 0x04 = 0 := by decide +kernel
  simp [checksumDone, reset, get, hpower]

/-- What a command does to the flag. -/
theorem checksumDone_startCommand (c : SimChip) (command : UInt8) :
    (c.startCommand command).checksumDone =
      if command = ReaderCommand.computeCrc then true
      else if command = ReaderCommand.softReset then false
      else c.checksumDone := by
  unfold startCommand
  by_cases hreset : command = ReaderCommand.softReset
  · subst hreset
    exact checksumDone_reset c
  by_cases hcrc : command = ReaderCommand.computeCrc
  · rw [if_neg hreset, if_pos hcrc, if_pos hcrc]
    exact checksumDone_computeChecksum c
  rw [if_neg hreset, if_neg hcrc, if_neg hcrc, if_neg hreset]
  split
  · exact (keepsBut_authenticate c).checksumDone (by decide)
  · rfl

/-- **An access that spares the flag leaves it as it is**, unless it has a checksum computed or resets
the chip. -/
theorem checksumDone_write (h : (Access.write reg value (.ok ())).Spares) :
    (c.write reg value).checksumDone = flagAfter c.checksumDone (.write reg value (.ok ())) := by
  have hset (hreg : reg ≠ Reg.divIrq) (v : UInt8) : (c.set reg v).checksumDone = c.checksumDone :=
    (keepsBut_set (List.mem_singleton_self reg) c v).checksumDone fun hmem =>
      hreg (List.mem_singleton.1 hmem).symm
  by_cases hcommand : reg = Reg.command
  · subst hcommand
    have hwrite : c.write Reg.command value =
      (c.set Reg.command (value &&& 0x0F)).startCommand (value &&& 0x0F) := rfl
    rw [hwrite, checksumDone_startCommand, hset (by decide), flagAfter]
    simp only [Access.gave, decide_true, Bool.true_and, decide_eq_true_eq]
  have hflag : flagAfter c.checksumDone (.write reg value (.ok ())) = c.checksumDone := by
    simp [flagAfter, Access.gave, hcommand]
  rw [hflag]
  unfold write
  -- the branches are those of the write, of which the one of the command is excluded
  split
  · by_cases hdiv : reg = Reg.divIrq
    · subst hdiv
      rw [checksumDone, checksumDone, get_set_self, flagsAfter_spared _ (h rfl)]
    · exact hset hdiv _
  next hflags =>
  have hdiv : reg ≠ Reg.divIrq := fun hdiv => hflags (.inr hdiv)
  split
  · split <;> rfl
  split
  · rfl
  split
  · dsimp only
    split
    · exact ((keepsBut_transmit ..).checksumDone (by decide)).trans (hset hdiv value)
    · exact hset hdiv value
  · exact hset hdiv value

end SimChip

/-! ## Every access -/

/-- An access to one of two readers, and the readers as it found them. -/
structure Instant where
  role : Role
  field : Field
  access : Access

/-- Whether one reader was given a command. -/
def Instant.gave (role : Role) (command : UInt8) (m : Instant) : Bool :=
  m.role = role && m.access.gave command

/-- The accesses of a script, each with the readers as it finds them. -/
def Script.instants {ν α : Type} (role : Role) : Script ν α → Field → List Instant
  | done _, _ => []
  | read reg next, f =>
    match RegisterBus.read f role reg with
    | (r, g) => ⟨role, f, .read reg r⟩ :: (next r).instants role g
  | write reg value next, f =>
    match RegisterBus.write f role reg value with
    | (r, g) => ⟨role, f, .write reg value r⟩ :: (next r).instants role g
  | note _ next, f => next.instants role f

/-- The accesses of tasks of both readers, each with the readers as it finds them. -/
def Task.instants : List (Role × Task) → Field → List Instant
  | [], _ => []
  | (role, task) :: course, f =>
    task.operation.run.instants role f ++ instants course (task.carryOut role f).2

theorem Script.instants_access {ν α : Type} (role : Role) (x : Script ν α) (f : Field) :
    (x.instants role f).map (·.access) = x.trace role f := by
  induction x generalizing f with
  | done a => rfl
  | read reg next ih => exact congrArg _ (ih _ _)
  | write reg value next ih => exact congrArg _ (ih _ _)
  | note n next ih => exact ih f

theorem Script.instants_role {ν α : Type} (role : Role) (x : Script ν α) (f : Field) :
    ∀ m ∈ x.instants role f, m.role = role := by
  induction x generalizing f with
  | done a => exact fun m hm => absurd hm List.not_mem_nil
  | read reg next ih => exact List.forall_mem_cons.2 ⟨rfl, ih _ _⟩
  | write reg value next ih => exact List.forall_mem_cons.2 ⟨rfl, ih _ _⟩
  | note n next ih => exact ih f

/-- The accesses of a course of tasks are those that its tasks are reported to make. -/
theorem Task.instants_access (course : List (Role × Task)) (f : Field) :
    (instants course f).map (fun m => (m.role, m.access)) =
      (runBoth course f).1.flatMap fun conduct => conduct.2.accesses.map (conduct.1, ·) := by
  induction course generalizing f with
  | nil => rfl
  | cons first course ih =>
    obtain ⟨role, task⟩ := first
    have hfirst : (task.operation.run.instants role f).map (fun m => (m.role, m.access)) =
        (task.operation.trace role f).map (role, ·) := by
      rw [Operation.trace, ← Script.instants_access, List.map_map]
      refine List.map_congr_left fun m hm => ?_
      rw [Function.comp_apply, Script.instants_role role _ f m hm]
    rw [instants, runBoth, List.flatMap_cons, List.map_append, hfirst, ih]
    rfl

/-- Whether a checksum was computed on a reader since it was last reset. -/
def ComputedSince (role : Role) (past : List Instant) : Prop :=
  ∃ earlier m later, past = earlier ++ m :: later ∧ m.gave role ReaderCommand.computeCrc = true ∧
    ∀ other ∈ later, other.gave role ReaderCommand.softReset = false

/-- Whether the flag of one reader is up after an access to either. -/
def upAfter (role : Role) (up : Bool) (m : Instant) : Bool :=
  if m.role = role then flagAfter up m.access else up

/-- Whether the flag of one reader is up as the accesses so far say, at each moment and at the end. -/
def Tracks (role : Role) (g : Field) : Bool → List Instant → Prop
  | up, [] => (g.get role).checksumDone = up
  | up, m :: later => (m.field.get role).checksumDone = up ∧ Tracks role g (upAfter role up m) later

section Flag

variable {role : Role} {f g : Field} {up : Bool} {past later : List Instant} {m : Instant}

theorem Tracks.append (h : Tracks role f up past) (hlater : Tracks role g (f.get role).checksumDone later) :
    Tracks role g up (past ++ later) := by
  induction past generalizing up with
  | nil =>
    obtain rfl : (f.get role).checksumDone = up := h
    exact hlater
  | cons m past ih => exact ⟨h.1, ih h.2⟩

theorem Tracks.at (h : Tracks role g up (past ++ m :: later)) :
    (m.field.get role).checksumDone = past.foldl (upAfter role) up := by
  induction past generalizing up with
  | nil => exact h.1
  | cons first past ih => exact ih h.2

theorem upAfter_iff : upAfter role up m = true ↔ m.gave role ReaderCommand.computeCrc = true ∨
    up = true ∧ m.gave role ReaderCommand.softReset = false := by
  by_cases hrole : m.role = role
  · simp only [upAfter, Instant.gave, flagAfter, hrole, if_true, decide_true, Bool.true_and]
    split
    · next h => simp [h]
    · next h =>
      split
      · next hreset => simp [h, hreset]
      · next hreset => simp [h, hreset]
  · simp [upAfter, Instant.gave, hrole]

theorem computedSince_cons : ComputedSince role (m :: past) ↔
    m.gave role ReaderCommand.computeCrc = true ∧
      (∀ other ∈ past, other.gave role ReaderCommand.softReset = false) ∨ ComputedSince role past := by
  constructor
  · rintro ⟨_ | ⟨first, earlier⟩, last, later, heq, hgave, hlater⟩
    · cases heq
      exact .inl ⟨hgave, hlater⟩
    · cases heq
      exact .inr ⟨earlier, last, later, rfl, hgave, hlater⟩
  · rintro (⟨hgave, hlater⟩ | ⟨earlier, last, later, rfl, hgave, hlater⟩)
    · exact ⟨[], m, past, rfl, hgave, hlater⟩
    · exact ⟨m :: earlier, last, later, rfl, hgave, hlater⟩

/-- The flag is up if a checksum was computed since the last reset, or if it was up and there was none. -/
theorem foldl_upAfter_iff :
    past.foldl (upAfter role) up = true ↔ ComputedSince role past ∨
      up = true ∧ ∀ m ∈ past, m.gave role ReaderCommand.softReset = false := by
  induction past generalizing up with
  | nil => simp [ComputedSince]
  | cons m past ih =>
    rw [List.foldl_cons, ih, upAfter_iff, computedSince_cons, List.forall_mem_cons]
    tauto

/-- A read moves no flag. -/
theorem checksumDone_read (side : Role) (reg : UInt8) :
    ((RegisterBus.read f side reg).2.get role).checksumDone = (f.get role).checksumDone := by
  rcases Field.read_cases f side reg with ⟨-, heq⟩ | ⟨-, -, heq⟩
  · rw [heq]
  · rw [heq]
    by_cases hrole : role = side
    · rw [hrole, Sides.get_set_self]
      exact (SimChip.keepsBut_read _ reg).checksumDone List.not_mem_nil
    · rw [Sides.get_set_of_ne f hrole]

/-- A write that spares the flag moves that of its own reader, and of no other. -/
theorem upAfter_write {reg value : UInt8} (side : Role) (h : (Access.write reg value (.ok ())).Spares) :
    ((RegisterBus.write f side reg value).2.get role).checksumDone =
      upAfter role (f.get role).checksumDone
        ⟨side, f, .write reg value (RegisterBus.write f side reg value).1⟩ := by
  show ((f.write side reg value).2.get role).checksumDone =
    upAfter role (f.get role).checksumDone ⟨side, f, .write reg value (f.write side reg value).1⟩
  unfold Field.write upAfter
  by_cases hrole : side = role
  · subst hrole
    rw [if_pos rfl]
    cases hbroken : (f.get side).broken with
    | true => simp [flagAfter, Access.gave]
    | false =>
      rw [if_neg (by simp), Sides.get_set_self, SimChip.checksumDone_write h]
  · rw [if_neg hrole]
    split
    · rfl
    · rw [Sides.get_set_of_ne f (Ne.symm hrole)]

/-- **One script**: at each of its accesses the flag is as those before say. -/
theorem tracks_script {ν α : Type} (side : Role) (x : Script ν α)
    (h : ∀ a ∈ x.trace side f, a.Spares) :
    Tracks role (x.run side f).2.1 (f.get role).checksumDone (x.instants side f) := by
  induction x generalizing f with
  | done a => rfl
  | read reg next ih =>
    have hread : upAfter role (f.get role).checksumDone
        ⟨side, f, .read reg (RegisterBus.read f side reg).1⟩ =
        ((RegisterBus.read f side reg).2.get role).checksumDone := by
      rw [checksumDone_read]
      exact ite_self _
    have hrest := ih (RegisterBus.read f side reg).1 (f := (RegisterBus.read f side reg).2)
      fun a ha => h a (List.mem_cons_of_mem _ ha)
    rw [← hread] at hrest
    exact ⟨rfl, hrest⟩
  | write reg value next ih =>
    have hspares : (Access.write reg value (.ok ())).Spares :=
      h (.write reg value (RegisterBus.write f side reg value).1) List.mem_cons_self
    have hrest := ih (RegisterBus.write f side reg value).1 (f := (RegisterBus.write f side reg value).2)
      fun a ha => h a (List.mem_cons_of_mem _ ha)
    rw [upAfter_write side hspares] at hrest
    exact ⟨rfl, hrest⟩
  | note n next ih => exact ih h

/-- **A whole course of tasks.** -/
theorem tracks_course (role : Role) (course : List (Role × Task)) (f : Field) :
    ∃ g, Tracks role g (f.get role).checksumDone (Task.instants course f) := by
  induction course generalizing f with
  | nil => exact ⟨f, rfl⟩
  | cons first course ih =>
    obtain ⟨side, task⟩ := first
    obtain ⟨g, hrest⟩ := ih (task.carryOut side f).2
    have hspares : ∀ a ∈ task.operation.run.trace side f, a.Spares :=
      task.spares _ _ (Operation.makes_trace side task.operation f)
    exact ⟨g, (tracks_script side task.operation.run hspares).append hrest⟩

end Flag

/-- **When the flag of the checksum unit is up.** Whatever both readers are asked to do, with cards
before them or not, at every access the flag of either reader is up if and only if a checksum was
computed on that reader since its last reset, or the flag was up at the beginning and the reader was not
reset. So when a computation starts, the flag is down only if it is the first since a reset: no task
clears it, and what the reader polls for is there before it starts. -/
theorem checksum_flag_iff (course : List (Role × Task)) (f : Field) (role : Role)
    (before later : List Instant) (m : Instant) (h : Task.instants course f = before ++ m :: later) :
    (m.field.get role).checksumDone = true ↔ ComputedSince role before ∨
      (f.get role).checksumDone = true ∧
        ∀ other ∈ before, other.gave role ReaderCommand.softReset = false := by
  obtain ⟨g, htracks⟩ := tracks_course role course f
  rw [h] at htracks
  rw [htracks.at, foldl_upAfter_iff]

/-- Two checksums in a row on a reader that was just switched on. -/
def twoChecksums : List Instant :=
  Task.instants [(.entry, .checksum [0x30, 0x08]), (.entry, .checksum [0x30, 0x09])] Field.new

/-- The moment at which the second of them starts. -/
def secondStart : Instant :=
  twoChecksums.get ⟨16, by decide +kernel⟩

theorem twoChecksums_split :
    twoChecksums = twoChecksums.take 16 ++ secondStart :: twoChecksums.drop 17 := by
  simp [secondStart]

theorem checksum_flag_iff_second :
    twoChecksums = twoChecksums.take 16 ++ secondStart :: twoChecksums.drop 17 ∧
      (secondStart.field.get .entry).checksumDone = true ∧
      ComputedSince .entry (twoChecksums.take 16) := by
  have hup : (secondStart.field.get .entry).checksumDone = true := by decide +kernel
  have hdown : ¬ (Field.new.get .entry).checksumDone = true := by decide +kernel
  refine ⟨twoChecksums_split, hup, ?_⟩
  have hiff := checksum_flag_iff _ Field.new .entry _ _ secondStart twoChecksums_split
  exact (hiff.1 hup).resolve_right fun hthen => hdown hthen.1

/-- So the flag is not down whenever a checksum is started: the second finds it up. -/
theorem checksum_flag_not_fresh :
    ¬ ∀ (course : List (Role × Task)) (role : Role) (before later : List Instant) (m : Instant),
      Task.instants course Field.new = before ++ m :: later →
        m.gave role ReaderCommand.computeCrc = true → (m.field.get role).checksumDone = false := by
  intro hfresh
  have hstart : secondStart.gave .entry ReaderCommand.computeCrc = true := by decide +kernel
  have hup : (secondStart.field.get .entry).checksumDone = true := by decide +kernel
  have hdown := hfresh _ .entry _ _ secondStart twoChecksums_split hstart
  rw [hup] at hdown
  cases hdown

end Turnstile

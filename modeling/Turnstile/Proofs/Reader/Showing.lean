import Turnstile.Proofs.Reader.Exchange
import Turnstile.Proofs.Reader.Failures

/-!
# What a reader shows while a command runs

A command is started, awaited, and its answer fetched. Which accesses that takes, and what comes of it,
hangs on what the reader shows: the interrupt flags, then the error register, then the buffer.

* `Showing`: what a reader shows.
* `Showing.accesses`, `Showing.outcome`: the accesses of a command, and its outcome, told from that.
* `goes_communicate`: a command whose accesses all succeed makes these accesses and ends so, and no
  others.
* `command_told`: **every run of a command** breaks off at an access that fails, with its error, or is
  told by what the reader shows.
-/

namespace Turnstile

/-- What a reader shows while a command runs, in the order in which it is read. -/
structure Showing where
  /-- The interrupt flags, the fill of the buffer and the framing before the command is started. -/
  pending : UInt8 := 0
  fill : UInt8 := 0
  framing : UInt8 := 0
  /-- The interrupt flags, time after time, while the command is awaited. -/
  flags : List UInt8
  /-- The framing after that. -/
  sending : UInt8
  errors : UInt8 := 0
  /-- The fill of the buffer with the answer, the answer, and how its last octet is filled. -/
  level : UInt8 := 0
  octets : Bytes := []
  control : UInt8 := 0

/-- Whether an access reads a register. -/
def Access.reads (reg : UInt8) : Access → Bool
  | .read r _ => r = reg
  | .write _ _ _ => false

/-- Whether an access reads none but certain registers. -/
def Access.ReadsAmong (regs : List UInt8) : Access → Prop
  | .read reg _ => reg ∈ regs
  | .write _ _ _ => True

/-- The interrupts that end a command: its own, or the timer. -/
def endMask (command : UInt8) : UInt8 :=
  if command = ReaderCommand.authenticate then 0x11 else 0x31

namespace Showing

variable (command : UInt8) (send : Bytes) (v : Showing)

/-- Whether the flags have shown that the command is over. -/
def ended : Bool :=
  Operation.shows (endMask command) v.flags

/-- How many bits of the answer are valid. The last octet may be cut short. -/
def bits : Nat :=
  if v.control &&& 0x07 = 0 ∨ v.octets = [] then 8 * v.octets.length
  else 8 * (v.octets.length - 1) + (v.control &&& 0x07).toNat

/-- Whether the flags were read until they showed an end, at most 2000 times, and the answer is what
the buffer holds, at most 64 octets. -/
structure Fits : Prop where
  flags : Operation.Polled (endMask command) 2000 v.flags
  octets : v.octets.length = min (v.level &&& 0x7F).toNat 64

/-- The accesses that flush the buffer and load it. -/
def loading : List Access :=
  [.put Reg.comIEn (enableMask command ||| 0x80),
    .got Reg.comIrq v.pending, .put Reg.comIrq (v.pending &&& ~~~0x80),
    .got Reg.fifoLevel v.fill, .put Reg.fifoLevel (v.fill ||| 0x80),
    .put Reg.command ReaderCommand.idle] ++ send.map (.put Reg.fifoData)

/-- The accesses that tell the reader to send, if the command transmits. -/
def signalling : List Access :=
  if command = ReaderCommand.transceive then
    [.got Reg.bitFraming v.framing, .put Reg.bitFraming (v.framing ||| 0x80)]
  else []

/-- The accesses that await the end of the command, and end the sending. -/
def awaiting : List Access :=
  v.flags.map (.got Reg.comIrq) ++
    [.got Reg.bitFraming v.sending, .put Reg.bitFraming (v.sending &&& ~~~0x80)]

/-- The accesses that fetch an answer. -/
def fetching : List Access :=
  .got Reg.fifoLevel v.level :: v.octets.map (.got Reg.fifoData) ++ [.got Reg.control v.control]

/-- The accesses that find out what came of a command that is over. No answer is fetched if there are
errors or the command does not transmit. -/
def inquiring : List Access :=
  .got Reg.error v.errors ::
    if v.errors &&& 0x1B = 0 ∧ command = ReaderCommand.transceive then v.fetching else []

/-- The accesses of a command. -/
def accesses : List Access :=
  v.loading command send ++ .put Reg.command command ::
    (v.signalling command ++ (v.awaiting ++ if v.ended command then v.inquiring command else []))

/-- What comes of a command that is over. -/
def verdict : Except CardError Frame :=
  if v.errors &&& 0x1B ≠ 0 then .error (.readerFault v.errors)
  else if command ≠ ReaderCommand.transceive then .ok ⟨[], 0⟩
  else .ok ⟨v.octets, v.bits⟩

/-- The outcome of a command. -/
def outcome : Except CardError Frame :=
  if v.ended command then v.verdict command else .error .timeout

/-- A command has an answer if and only if it ended in time and without errors. -/
theorem outcome_eq_ok_iff {frame : Frame} : v.outcome command = .ok frame ↔
    v.ended command = true ∧ v.errors &&& 0x1B = 0 ∧
      frame = if command ≠ ReaderCommand.transceive then ⟨[], 0⟩ else ⟨v.octets, v.bits⟩ := by
  unfold outcome verdict
  by_cases hended : v.ended command = true
  · by_cases herrors : v.errors &&& 0x1B = 0
    · rw [if_pos hended, if_neg (not_not.2 herrors)]
      split
      all_goals simp [hended, herrors, eq_comm]
    · simp [hended, herrors]
  · simp [hended]

/-- Without an answer, a command has not ended in time or has met errors. -/
theorem outcome_eq_error {e : CardError} (h : v.outcome command = .error e) :
    e = .timeout ∨ ∃ bits, e = .readerFault bits := by
  unfold outcome verdict at h
  split at h
  · split at h
    · cases h
      exact .inr ⟨_, rfl⟩
    · split at h <;> cases h
  · cases h
    exact .inl rfl

/-- After the reader was told to stop sending, registers are only read. -/
theorem sending_cleared : ∃ before after, v.accesses command send = before ++
      [.got Reg.bitFraming v.sending, .put Reg.bitFraming (v.sending &&& ~~~0x80)] ++ after ∧
    ∀ a ∈ after, ∃ reg value, a = .got reg value := by
  refine ⟨v.loading command send ++ .put Reg.command command ::
    (v.signalling command ++ v.flags.map (.got Reg.comIrq)),
    if v.ended command then v.inquiring command else [], ?_, ?_⟩
  · simp [accesses, awaiting]
  · intro a ha
    split at ha
    · rcases List.mem_cons.1 ha with rfl | ha
      · exact ⟨_, _, rfl⟩
      · split at ha
        · simp only [fetching, List.cons_append, List.mem_cons, List.mem_append, List.mem_map,
            List.not_mem_nil, or_false] at ha
          rcases ha with rfl | ⟨b, -, rfl⟩ | rfl
          all_goals exact ⟨_, _, rfl⟩
        · cases ha
    · cases ha

end Showing

theorem waitMask_or (command : UInt8) : waitMask command ||| 0x01 = endMask command := by
  unfold waitMask endMask
  split <;> rfl

theorem Showing.validBits_eq (v : Showing) :
    validBits v.octets.length (v.control &&& 0x07).toNat = v.bits := by
  have hzero : (v.control &&& 0x07).toNat = 0 ↔ v.control &&& 0x07 = 0 :=
    ⟨fun h => UInt8.toNat.inj h, fun h => by rw [h]; rfl⟩
  have hnone : v.octets.length = 0 ↔ v.octets = [] := List.length_eq_zero_iff
  unfold validBits bits
  simp only [← hzero, ← hnone]
  split
  · rw [if_neg (by omega)]
    omega
  · rw [if_pos (by omega)]
    omega

namespace Operation

variable {command : UInt8} {send : Bytes} {t : List Access}

/-- What is asked once a command is over. -/
def inquire (command : UInt8) : Operation Frame := do
  let errors ← readReg Reg.error
  if errors &&& errorMask ≠ 0 then throw (.readerFault errors)
  if command = ReaderCommand.transceive then fetch else pure ⟨[], 0⟩

theorem conclude_eq (command : UInt8) :
    conclude command = await command >>= fun _ => inquire command := rfl

/-! ## Commands are prompt -/

/-- **A command is over as soon as an access fails.** -/
theorem prompt_communicate : Prompt (communicate command send) :=
  prompt_parts.communicate command send

/-! ## How often a register is read -/

theorem atMost_of_readsAmong {α : Type} {regs : List UInt8} {reg : UInt8} {op : Operation α}
    (h : Keeps (Access.ReadsAmong regs) op) (hreg : reg ∉ regs) : AtMost 0 (Access.reads reg) op := by
  refine atMost_of_keeps (keeps_mono h fun a ha => ?_)
  cases a with
  | read r o =>
    have hne : r ≠ reg := fun heq => hreg (heq ▸ ha)
    exact decide_eq_false hne
  | write r value o => rfl

theorem prepare_reads : Keeps (Access.ReadsAmong [Reg.comIrq, Reg.fifoLevel]) (prepare command send) :=
  keeps_bind (keeps_writeReg fun _ => trivial) fun _ =>
  keeps_bind (keeps_clearBits (fun _ => by simp [Access.ReadsAmong]) fun _ _ => trivial) fun _ =>
  keeps_bind (keeps_setBits (fun _ => by simp [Access.ReadsAmong]) fun _ _ => trivial) fun _ =>
  keeps_bind (keeps_writeReg fun _ => trivial) fun _ => keeps_writeAll (fun _ _ => trivial) send

theorem signal_reads : Keeps (Access.ReadsAmong [Reg.bitFraming]) (signal command) :=
  keeps_ite (keeps_setBits (fun _ => by simp [Access.ReadsAmong]) fun _ _ => trivial) (keeps_pure ())

/-- A register that is not changed to end the sending is read as often as to prepare the command, to
await it and to inquire what came of it. -/
theorem communicate_reads {reg : UInt8} {m n k : Nat} (hframing : reg ≠ Reg.bitFraming)
    (hprepare : AtMost k (Access.reads reg) (prepare command send))
    (hpoll : AtMost m (Access.reads reg)
      (pollUntil Reg.comIrq (waitMask command ||| 0x01) commandBudget))
    (hinquire : AtMost n (Access.reads reg) (inquire command)) :
    AtMost (k + (m + n)) (Access.reads reg) (communicate command send) := by
  have hquiet : ∀ {α : Type} {op : Operation α}, Keeps (Access.ReadsAmong [Reg.bitFraming]) op →
      AtMost 0 (Access.reads reg) op :=
    fun h => atMost_of_readsAmong h (by simpa using hframing)
  have hawait : AtMost (m + (0 + 0)) (Access.reads reg) (await command) :=
    atMost_bind hpoll fun _ =>
    atMost_bind (hquiet (keeps_clearBits (fun _ => by simp [Access.ReadsAmong]) fun _ _ => trivial)) fun _ =>
    hquiet (keeps_ite (keeps_bind (keeps_note _) fun _ => keeps_throw _) (keeps_pure ()))
  have hall : AtMost (k + (0 + (0 + (m + (0 + 0) + n)))) (Access.reads reg) (communicate command send) := by
    rw [communicate_eq]
    exact atMost_bind hprepare fun _ =>
      atMost_bind (hquiet (keeps_writeReg fun _ => trivial)) fun _ =>
      atMost_bind (hquiet signal_reads) fun _ => atMost_bind hawait fun _ => hinquire
  exact atMost_mono hall (by omega)

/-- An answer is read from the buffer in 64 octets at most. -/
theorem communicate_octets : AtMost 64 (Access.reads Reg.fifoData) (communicate command send) := by
  have hfetch : AtMost (0 + (64 + 0)) (Access.reads Reg.fifoData) fetch :=
    atMost_bind (atMost_of_keeps (keeps_readReg fun _ => rfl)) fun _ =>
    atMost_bind (atMost_mono atMost_readMany (Nat.min_le_right ..)) fun _ =>
    atMost_of_keeps (keeps_bind (keeps_readReg fun _ => rfl) fun _ => keeps_pure _)
  have hanswer := atMost_ite (q := command = ReaderCommand.transceive) hfetch
    (atMost_of_keeps (keeps_pure ⟨[], 0⟩))
  have hinquire : AtMost (0 + 64) (Access.reads Reg.fifoData) (inquire command) :=
    atMost_bind (atMost_of_keeps (keeps_readReg fun _ => rfl)) fun _ =>
    atMost_ite (atMost_bind (m := 0) (atMost_of_keeps (keeps_throw _)) fun _ => hanswer) hanswer
  exact communicate_reads (k := 0) (m := 0) (by decide) (atMost_of_readsAmong prepare_reads (by decide))
    (atMost_of_keeps (keeps_pollUntil (fun _ => rfl) _)) hinquire

/-- The flags are read once before a command is started, and 2000 times at most after that. -/
theorem communicate_flags : AtMost (1 + 2000) (Access.reads Reg.comIrq) (communicate command send) := by
  have hprepare : AtMost (0 + (1 + 0)) (Access.reads Reg.comIrq) (prepare command send) :=
    atMost_bind (atMost_of_keeps (keeps_writeReg fun _ => rfl)) fun _ =>
    atMost_bind (atMost_bind (n := 0) atMost_readReg fun _ =>
      atMost_of_keeps (keeps_writeReg fun _ => rfl)) fun _ =>
    atMost_of_keeps <|
      keeps_bind (keeps_setBits (fun _ => rfl) fun _ _ => rfl) fun _ =>
      keeps_bind (keeps_writeReg fun _ => rfl) fun _ => keeps_writeAll (fun _ _ => rfl) send
  have hanswer : Keeps (Access.ReadsAmong [Reg.fifoLevel, Reg.fifoData, Reg.control])
      (if command = ReaderCommand.transceive then fetch else pure ⟨[], 0⟩) :=
    keeps_ite (keeps_bind (keeps_readReg fun _ => by simp [Access.ReadsAmong]) fun _ =>
      keeps_bind (keeps_readMany (fun _ => by simp [Access.ReadsAmong]) _) fun _ =>
      keeps_bind (keeps_readReg fun _ => by simp [Access.ReadsAmong]) fun _ => keeps_pure _) (keeps_pure _)
  have hnone : AtMost 0 (Access.reads Reg.comIrq)
      (if command = ReaderCommand.transceive then fetch else pure ⟨[], 0⟩) :=
    atMost_of_readsAmong hanswer (by decide)
  have hinquire : AtMost (0 + 0) (Access.reads Reg.comIrq) (inquire command) :=
    atMost_bind (atMost_of_keeps (keeps_readReg fun _ => rfl)) fun _ =>
    atMost_ite (atMost_bind (m := 0) (atMost_of_keeps (keeps_throw _)) fun _ => hnone) hnone
  exact communicate_reads (by decide) hprepare atMost_pollUntil hinquire

/-! ## A command whose accesses all succeed -/

theorem goes_fetch {r : Except CardError Frame} : fetch.Goes t r ↔ ∃ v : Showing,
    v.octets.length = min (v.level &&& 0x7F).toNat 64 ∧ t = v.fetching ∧
      r = .ok ⟨v.octets, v.bits⟩ := by
  simp only [fetch, goes_readReg_bind, goes_readMany_bind, goes_pure]
  constructor
  · rintro ⟨level, _, rfl, octets, _, hlen, rfl, control, _, rfl, rfl, rfl⟩
    let v : Showing := { flags := [], sending := 0, level, octets, control }
    refine ⟨v, hlen, rfl, ?_⟩
    rw [← v.validBits_eq, ← hlen]
  · rintro ⟨v, hlen, rfl, rfl⟩
    refine ⟨v.level, _, rfl, v.octets, _, hlen, rfl, v.control, [], rfl, rfl, ?_⟩
    rw [fifoCapacity, ← hlen, v.validBits_eq]

/-- The errors decide whether there is an answer. -/
theorem goes_inquire {r : Except CardError Frame} : (inquire command).Goes t r ↔ ∃ v : Showing,
    v.octets.length = min (v.level &&& 0x7F).toNat 64 ∧ t = v.inquiring command ∧
      r = v.verdict command := by
  simp only [inquire, goes_readReg_bind]
  constructor
  · rintro ⟨errors, rest, rfl, hrest⟩
    let v : Showing := { flags := [], sending := 0, errors }
    have hempty : v.octets.length = min (v.level &&& 0x7F).toNat 64 := by simp [v]
    split at hrest
    · -- nothing else is asked
      next hbits =>
      have herrors : errors &&& 0x1B ≠ 0 := hbits
      obtain ⟨rfl, rfl⟩ := goes_throw_bind.1 hrest
      exact ⟨v, hempty, by simp [Showing.inquiring, v, herrors],
        by simp [Showing.verdict, v, herrors]⟩
    · next hbits =>
      have herrors : errors &&& 0x1B = 0 := not_not.1 hbits
      split at hrest
      · next hcommand =>
        obtain ⟨w, hlen, rfl, rfl⟩ := goes_fetch.1 hrest
        refine ⟨{ w with errors }, hlen, ?_, ?_⟩
        · simp [Showing.inquiring, herrors, hcommand, Showing.fetching]
        · simp [Showing.verdict, herrors, hcommand, Showing.bits]
      · next hcommand =>
        obtain ⟨rfl, rfl⟩ := goes_pure.1 hrest
        exact ⟨v, hempty, by simp [Showing.inquiring, v, hcommand],
          by simp [Showing.verdict, v, herrors, hcommand]⟩
  · rintro ⟨v, hlen, rfl, rfl⟩
    refine ⟨v.errors, _, rfl, ?_⟩
    unfold Showing.verdict
    by_cases herrors : v.errors &&& 0x1B = 0
    · have hbits : ¬ v.errors &&& errorMask ≠ 0 := not_not.2 herrors
      rw [if_neg hbits, if_neg (not_not.2 herrors)]
      by_cases hcommand : command = ReaderCommand.transceive
      · rw [if_pos hcommand, if_neg (not_not.2 hcommand), if_pos ⟨herrors, hcommand⟩]
        exact goes_fetch.2 ⟨v, hlen, rfl, rfl⟩
      · have hnone : ¬ (v.errors &&& 0x1B = 0 ∧ command = ReaderCommand.transceive) :=
          fun h => hcommand h.2
        rw [if_neg hnone, if_neg hcommand, if_pos hcommand]
        exact goes_pure.2 ⟨rfl, rfl⟩
    · have hbits : v.errors &&& errorMask ≠ 0 := herrors
      have hnone : ¬ (v.errors &&& 0x1B = 0 ∧ command = ReaderCommand.transceive) :=
        fun h => herrors h.1
      rw [if_neg hnone, if_pos hbits, if_pos herrors]
      exact goes_throw_bind.2 ⟨rfl, rfl⟩

/-- A command is awaited until the flags show its end, or that fails. -/
theorem goes_await_bind {α : Type} {f : Unit → Operation α} {r : Except CardError α} :
    (await command >>= f).Goes t r ↔ ∃ v : Showing, Polled (endMask command) 2000 v.flags ∧
      ∃ rest, t = v.awaiting ++ rest ∧
        if v.ended command then (f ()).Goes rest r else rest = [] ∧ r = .error .timeout := by
  have hnext : ∀ (ended : Bool) rest, ((if !ended then do note (.budgetExhausted command); throw .timeout
      else pure () : Operation Unit) >>= f).Goes rest r ↔
      if ended then (f ()).Goes rest r else rest = [] ∧ r = .error .timeout := by
    intro ended rest
    cases ended with
    | false => exact goes_throw_bind (f := f)
    | true => exact Iff.rfl
  simp only [await, bind_assoc, goes_pollUntil_bind, goes_clearBits_bind, waitMask_or, commandBudget, hnext]
  constructor
  · rintro ⟨flags, _, hflags, rfl, sending, rest, rfl, hrest⟩
    let v : Showing := { flags, sending }
    exact ⟨v, hflags, rest, by simp [v, Showing.awaiting], hrest⟩
  · rintro ⟨v, hflags, rest, rfl, hrest⟩
    exact ⟨v.flags, _, hflags, List.append_assoc .., v.sending, rest, rfl, hrest⟩

/-- What comes of a command is told by what the reader shows after it was started. -/
theorem goes_conclude {r : Except CardError Frame} : (conclude command).Goes t r ↔ ∃ v : Showing,
    v.Fits command ∧ t = v.awaiting ++ (if v.ended command then v.inquiring command else []) ∧
      r = v.outcome command := by
  rw [conclude_eq, goes_await_bind]
  constructor
  · rintro ⟨u, hflags, rest, rfl, hrest⟩
    -- what was shown while the command was awaited and what was shown after it make up one showing
    by_cases hended : u.ended command
    · rw [if_pos hended] at hrest
      obtain ⟨w, hlen, rfl, rfl⟩ := goes_inquire.1 hrest
      let v : Showing := { w with flags := u.flags, sending := u.sending }
      have hv : v.ended command := hended
      refine ⟨v, ⟨hflags, hlen⟩, ?_, ?_⟩
      · rw [if_pos hv]
        rfl
      · rw [Showing.outcome, if_pos hv]
        rfl
    · rw [if_neg hended] at hrest
      obtain ⟨rfl, rfl⟩ := hrest
      let v : Showing := { flags := u.flags, sending := u.sending }
      have hv : ¬ v.ended command := hended
      refine ⟨v, ⟨hflags, by simp [v]⟩, ?_, ?_⟩
      · rw [if_neg hv]
        rfl
      · rw [Showing.outcome, if_neg hv]
  · rintro ⟨v, hv, rfl, rfl⟩
    refine ⟨v, hv.flags, _, rfl, ?_⟩
    unfold Showing.outcome
    by_cases hended : v.ended command
    · rw [if_pos hended, if_pos hended, if_pos hended]
      exact goes_inquire.2 ⟨v, hv.octets, rfl, rfl⟩
    · rw [if_neg hended, if_neg hended, if_neg hended]
      exact ⟨rfl, rfl⟩

/-- The reader is told to send if the command transmits. -/
theorem goes_signal_bind {α : Type} {f : Unit → Operation α} {r : Except CardError α} :
    (signal command >>= f).Goes t r ↔ ∃ framing rest,
      t = (if command = ReaderCommand.transceive then
        [.got Reg.bitFraming framing, .put Reg.bitFraming (framing ||| 0x80)] else []) ++ rest ∧
      (f ()).Goes rest r := by
  unfold signal
  by_cases hcommand : command = ReaderCommand.transceive
  · simp only [if_pos hcommand, goes_setBits_bind, List.cons_append, List.nil_append]
  · simp [if_neg hcommand]

/-- **A command whose accesses all succeed**: what it does and what comes of it is told by what the
reader shows. -/
theorem goes_communicate {r : Except CardError Frame} : (communicate command send).Goes t r ↔
    ∃ v : Showing, v.Fits command ∧ t = v.accesses command send ∧ r = v.outcome command := by
  simp only [communicate_eq, prepare, bind_assoc, goes_writeReg_bind, goes_clearBits_bind,
    goes_setBits_bind, goes_writeAll_bind, goes_signal_bind, goes_conclude]
  constructor
  · rintro ⟨_, rfl, pending, _, rfl, fill, _, rfl, _, rfl, _, rfl, _, rfl, framing, _, rfl, v, hv,
      rfl, rfl⟩
    refine ⟨{ v with pending, fill, framing }, ⟨hv.flags, hv.octets⟩, ?_, rfl⟩
    simp only [Showing.accesses, Showing.loading, Showing.signalling, List.cons_append]
    rfl
  · rintro ⟨v, hv, rfl, rfl⟩
    exact ⟨_, rfl, v.pending, _, rfl, v.fill, _, rfl, _, rfl, _, rfl, _, rfl, v.framing, _, rfl, v, hv,
      rfl, rfl⟩

end Operation

/-- **Every run of a command**, on every bus. The flags are read 2000 times at most while it is
awaited, and the buffer 64 times. Either an access fails: then it is the last one, and its error is the
outcome. Or all succeed, the reader is told to stop sending, and what it shows tells the rest: the
accesses, and the outcome, which is

* a timeout if none of the flags that were read ended the command;
* else the errors, if any of them count;
* else nothing, if the command does not transmit;
* else the answer: as many octets as the buffer says it holds, of which the last may be cut short. -/
theorem command_told {σ : Type} [RegisterBus σ] (role : Role) (command : UInt8) (send : Bytes) (s : σ) :
    let accesses := (Operation.communicate command send).trace role s
    let result := ((Operation.communicate command send).perform role s).1
    accesses.countP (Access.reads Reg.comIrq) ≤ 1 + 2000 ∧
    accesses.countP (Access.reads Reg.fifoData) ≤ 64 ∧
    ((∃ e, BreaksOff accesses e ∧ result = .error (.bus e)) ∨
      ∃ v : Showing, v.Fits command ∧ accesses = v.accesses command send ∧
        (∃ before after, accesses = before ++
            [.got Reg.bitFraming v.sending, .put Reg.bitFraming (v.sending &&& ~~~0x80)] ++ after ∧
          ∀ a ∈ after, ∃ reg value, a = .got reg value) ∧
        result =
          if v.flags.all (fun flags => flags &&& endMask command = 0) then .error .timeout
          else if v.errors &&& 0x1B ≠ 0 then .error (.readerFault v.errors)
          else if command ≠ ReaderCommand.transceive then .ok ⟨[], 0⟩
          else .ok ⟨v.octets, v.bits⟩) := by
  intro accesses result
  have hmade : (Operation.communicate command send).Makes accesses result :=
    Operation.makes_trace role _ s
  refine ⟨Operation.communicate_flags _ _ hmade, Operation.communicate_octets _ _ hmade, ?_⟩
  -- a run in which an access fails breaks off there, and all others are told by what is shown
  rcases Operation.prompt_communicate.goes_or_breaksOff hmade with ⟨hgoes, -⟩ | hbreaks
  · obtain ⟨v, hv, haccesses, hresult⟩ := Operation.goes_communicate.1 hgoes
    have hended : v.flags.all (fun flags => flags &&& endMask command = 0) = true ↔
        ¬ v.ended command = true := by
      simp [Showing.ended, Operation.shows]
    refine .inr ⟨v, hv, haccesses, haccesses ▸ v.sending_cleared command send, ?_⟩
    rw [hresult, Showing.outcome, Showing.verdict]
    simp only [hended, ite_not]
  · exact .inl hbreaks

end Turnstile

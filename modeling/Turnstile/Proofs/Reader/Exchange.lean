import Turnstile.Proofs.Reader.Trace
import Turnstile.Proofs.Text.Utf8
import Turnstile.Reader.Session

/-!
# Exchanges with a card, access by access

* `loaded`: the octets that a command finds in the reader's buffer.
* `makes_communicate`: a command is started at most once, with its octets loaded; and the
  answer is read after that.
* `makes_closed`: octets are closed with the checksum that the reader computed of them.
-/

namespace Turnstile

/-- Whether an access starts a command. -/
def Access.starts (command : UInt8) : Access → Bool
  | .read _ _ => false
  | .write reg value _ => reg = Reg.command && value = command

/-- Whether an access starts no command that reaches a card, and leaves the session alone. -/
def Access.Silent : Access → Prop
  | .read _ _ => True
  | .write reg value _ => reg ≠ Reg.status2 ∧
    (reg = Reg.command → value = ReaderCommand.idle ∨ value = ReaderCommand.computeCrc)

/-- Whether an access is one of those that every exchange makes. It reads, has to do with the buffer or
with the flags of the reader, takes back the signal to send, or starts a checksum. -/
def Access.Routine : Access → Prop
  | .read _ _ => True
  | .write reg value _ => reg ∈ [Reg.comIEn, Reg.comIrq, Reg.fifoData, Reg.fifoLevel] ∨
    reg = Reg.divIrq ∧ value &&& 0x04 = 0 ∨ reg = Reg.bitFraming ∧ value &&& 0x80 = 0 ∨
    reg = Reg.command ∧ (value = ReaderCommand.idle ∨ value = ReaderCommand.computeCrc)

/-- Whether an access is one of a command: routine, or its start or, if it sends, the signal for that. -/
def Access.PartOf (command : UInt8) (a : Access) : Prop :=
  a.Routine ∨ (∃ o, a = .write Reg.command command o) ∨
    command = ReaderCommand.transceive ∧ ∃ v o, a = .write Reg.bitFraming v o

/-- Whether an access leaves the session alone: a frame may be sent. -/
def Access.Calm (a : Access) : Prop :=
  a.Silent ∨ ∃ o, a = .write Reg.command ReaderCommand.transceive o

theorem Access.Routine.silent {a : Access} (h : a.Routine) : a.Silent := by
  cases a with
  | read reg r => trivial
  | write reg value o =>
    rcases h with hreg | ⟨rfl, -⟩ | ⟨rfl, -⟩ | ⟨rfl, hvalue⟩
    · exact ⟨ne_of_mem_of_not_mem hreg (by decide),
        fun hcommand => absurd hcommand (ne_of_mem_of_not_mem hreg (by decide))⟩
    · exact ⟨by decide, nofun⟩
    · exact ⟨by decide, nofun⟩
    · exact ⟨by decide, fun _ => hvalue⟩

theorem Access.Silent.starts {a : Access} {command : UInt8} (h : a.Silent)
    (hc : command = ReaderCommand.authenticate ∨ command = ReaderCommand.transceive) :
    a.starts command = false := by
  cases a with
  | read reg r => rfl
  | write reg value o =>
    by_cases hreg : reg = Reg.command
    · subst hreg
      rcases hc with rfl | rfl <;> rcases h.2 rfl with rfl | rfl <;> rfl
    · simp [Access.starts, hreg]

theorem Access.Silent.authenticate {a : Access} (h : a.Silent) :
    a.starts ReaderCommand.authenticate = false := h.starts (.inl rfl)

theorem Access.Silent.transceive {a : Access} (h : a.Silent) :
    a.starts ReaderCommand.transceive = false := h.starts (.inr rfl)

theorem Access.Calm.authenticate {a : Access} (h : a.Calm) :
    a.starts ReaderCommand.authenticate = false := by
  rcases h with h | ⟨o, rfl⟩
  · exact h.authenticate
  · rfl

/-- What is in the reader's buffer after one more access, as far as it was written there. -/
def load (bs : Bytes) : Access → Bytes
  | .write reg value (.ok ()) =>
    if reg = Reg.fifoData then bs ++ [value]
    else if reg = Reg.fifoLevel ∧ value &&& 0x80 ≠ 0 then []
    else bs
  | _ => bs

/-- The octets that were written to the reader's buffer since it was flushed. -/
def loaded (past : List Access) : Bytes :=
  past.foldl load []

/-- The accesses that fetch an answer. -/
def Answers (frame : Frame) (t : List Access) : Prop :=
  ∃ level control, t = .read Reg.fifoLevel (.ok level) ::
      (frame.data.map fun b => .read Reg.fifoData (.ok b)) ++ [.read Reg.control (.ok control)] ∧
    frame.data.length = min (level &&& 0x7F).toNat fifoCapacity ∧
    frame.bits = validBits frame.data.length (control &&& 0x07).toNat

namespace Operation

variable {α : Type} {t : List Access}

theorem silent_of_ne {reg : UInt8} (h : reg ≠ Reg.status2 ∧ reg ≠ Reg.command) (v : UInt8)
    (o : Except BusError Unit) : (Access.write reg v o).Silent :=
  ⟨h.1, fun hreg => absurd hreg h.2⟩

theorem loaded_append (past t : List Access) : loaded (past ++ t) = t.foldl load (loaded past) :=
  List.foldl_append

/-- Loads the buffer of the reader for a command. -/
def prepare (command : UInt8) (send : Bytes) : Operation Unit := do
  writeReg Reg.comIEn (enableMask command ||| 0x80)
  clearBits Reg.comIrq 0x80
  setBits Reg.fifoLevel 0x80
  writeReg Reg.command ReaderCommand.idle
  writeAll Reg.fifoData send

/-- Tells the reader to send, if a command needs that. -/
def signal (command : UInt8) : Operation Unit :=
  if command = ReaderCommand.transceive then setBits Reg.bitFraming 0x80 else pure ()

/-- Waits for the end of a command and fetches its answer. -/
def conclude (command : UInt8) : Operation Frame := do
  await command
  let errors ← readReg Reg.error
  if errors &&& errorMask ≠ 0 then throw (.readerFault errors)
  if command = ReaderCommand.transceive then fetch else pure ⟨[], 0⟩

theorem communicate_eq (command : UInt8) (send : Bytes) :
    communicate command send = (do
      prepare command send
      writeReg Reg.command command
      signal command
      conclude command) := by
  simp only [communicate, start, prepare, signal, conclude, bind_assoc]

/-! ## Which accesses are routine, and which are silent -/

theorem prepare_routine (command : UInt8) (send : Bytes) :
    Keeps Access.Routine (prepare command send) :=
  keeps_bind (keeps_writeReg fun _ => .inl (by decide)) fun _ =>
  keeps_bind (keeps_clearBits (fun _ => trivial) fun _ _ => .inl (by decide)) fun _ =>
  keeps_bind (keeps_setBits (fun _ => trivial) fun _ _ => .inl (by decide)) fun _ =>
  keeps_bind (keeps_writeReg fun _ => .inr (.inr (.inr ⟨rfl, .inl rfl⟩))) fun _ =>
  keeps_writeAll (fun _ _ => .inl (by decide)) send

theorem fetch_routine : Keeps Access.Routine fetch :=
  keeps_bind (keeps_readReg fun _ => trivial) fun _ =>
  keeps_bind (keeps_readMany (fun _ => trivial) _) fun _ =>
  keeps_bind (keeps_readReg fun _ => trivial) fun _ => keeps_pure _

theorem await_routine (command : UInt8) : Keeps Access.Routine (await command) := by
  have hsignal (v : UInt8) : v &&& ~~~0x80 &&& 0x80 = 0 :=
    octet_forall (p := fun v => v &&& ~~~0x80 &&& 0x80 = 0) (by decide +kernel) v
  have hclear : Keeps Access.Routine (clearBits Reg.bitFraming 0x80) :=
    keeps_bind (keeps_readReg fun _ => trivial) fun v =>
    keeps_writeReg fun _ => .inr (.inr (.inl ⟨rfl, hsignal v⟩))
  exact keeps_bind (keeps_pollUntil (fun _ => trivial) _) fun _ => keeps_bind hclear fun _ =>
    keeps_ite (keeps_bind (keeps_note _) fun _ => keeps_throw _) (keeps_pure ())

theorem conclude_routine (command : UInt8) : Keeps Access.Routine (conclude command) :=
  keeps_bind (await_routine command) fun _ =>
  keeps_bind (keeps_readReg fun _ => trivial) fun _ =>
  keeps_ite (keeps_bind (keeps_throw _) fun _ => keeps_ite fetch_routine (keeps_pure _))
    (keeps_ite fetch_routine (keeps_pure _))

theorem checksum_routine (data : Bytes) : Keeps Access.Routine (checksum data) := by
  have hunmarked (v : UInt8) : v &&& ~~~0x04 &&& 0x04 = 0 :=
    octet_forall (p := fun v => v &&& ~~~0x04 &&& 0x04 = 0) (by decide +kernel) v
  have hclear : Keeps Access.Routine (clearBits Reg.divIrq 0x04) :=
    keeps_bind (keeps_readReg fun _ => trivial) fun v =>
    keeps_writeReg fun _ => .inr (.inl ⟨rfl, hunmarked v⟩)
  have hresult : Keeps Access.Routine (do
      let low ← readReg Reg.crcLow
      let high ← readReg Reg.crcHigh
      pure [low, high]) :=
    keeps_bind (keeps_readReg fun _ => trivial) fun _ =>
    keeps_bind (keeps_readReg fun _ => trivial) fun _ => keeps_pure _
  exact keeps_bind hclear fun _ =>
    keeps_bind (keeps_setBits (fun _ => trivial) fun _ _ => .inl (by decide)) fun _ =>
    keeps_bind (keeps_writeAll (fun _ _ => .inl (by decide)) data) fun _ =>
    keeps_bind (keeps_writeReg fun _ => .inr (.inr (.inr ⟨rfl, .inr rfl⟩))) fun _ =>
    keeps_bind (keeps_pollUntil (fun _ => trivial) _) fun _ =>
    keeps_ite (keeps_bind (keeps_throw _) fun _ => hresult) hresult

theorem closed_routine (data : Bytes) : Keeps Access.Routine (closed data) :=
  keeps_bind (checksum_routine data) fun _ => keeps_pure _

theorem prepare_silent (command : UInt8) (send : Bytes) : Keeps Access.Silent (prepare command send) :=
  keeps_mono (prepare_routine command send) fun _ h => h.silent

theorem signal_silent (command : UInt8) : Keeps Access.Silent (signal command) :=
  keeps_ite (keeps_setBits (fun _ => trivial) (silent_of_ne (by decide))) (keeps_pure ())

theorem conclude_silent (command : UInt8) : Keeps Access.Silent (conclude command) :=
  keeps_mono (conclude_routine command) fun _ h => h.silent

theorem closed_silent (data : Bytes) : Keeps Access.Silent (closed data) :=
  keeps_mono (closed_routine data) fun _ h => h.silent

theorem communicate_partOf (command : UInt8) (send : Bytes) :
    Keeps (Access.PartOf command) (communicate command send) := by
  have hsignal : Keeps (Access.PartOf command) (signal command) := by
    unfold signal
    split
    · next h => exact keeps_setBits (fun _ => .inl trivial) fun v o => .inr (.inr ⟨h, v, o, rfl⟩)
    · exact keeps_pure ()
  rw [communicate_eq]
  exact keeps_bind (keeps_mono (prepare_routine command send) fun _ h => .inl h) fun _ =>
    keeps_bind (keeps_writeReg fun o => .inr (.inl ⟨o, rfl⟩)) fun _ =>
    keeps_bind hsignal fun _ =>
    keeps_mono (conclude_routine command) fun _ h => .inl h

/-! ## What is loaded -/

theorem load_of_read (bs : Bytes) (reg : UInt8) (r : Except BusError UInt8) :
    load bs (.read reg r) = bs := rfl

theorem load_of_command (bs : Bytes) (v : UInt8) (r : Except BusError Unit) :
    load bs (.write Reg.command v r) = bs := by
  have hreg : Reg.command ≠ Reg.fifoData ∧ Reg.command ≠ Reg.fifoLevel := by decide
  cases r <;> simp [load, hreg]

theorem load_flush (bs : Bytes) (v : UInt8) :
    load bs (.write Reg.fifoLevel (v ||| 0x80) (.ok ())) = [] := by
  have hflush : (v ||| 0x80) &&& 0x80 ≠ 0 :=
    octet_forall (p := fun v => (v ||| 0x80) &&& 0x80 ≠ 0) (by decide +kernel) v
  have hreg : Reg.fifoLevel ≠ Reg.fifoData := by decide
  simp [load, hflush, hreg]

theorem foldl_load_data (bs send : Bytes) :
    (send.map fun b => Access.write Reg.fifoData b (.ok ())).foldl load bs = bs ++ send := by
  induction send generalizing bs with
  | nil => simp
  | cons b send ih =>
    rw [List.map_cons, List.foldl_cons, ih]
    simp [load]

/-- A command finds loaded what it is to send. -/
theorem loaded_prepare {command : UInt8} {send : Bytes} {u : Unit}
    (h : (prepare command send).Makes t (.ok u)) (past : List Access) : loaded (past ++ t) = send := by
  obtain ⟨_, _, _, rfl, h₁, h⟩ := makes_bind_ok.1 h
  obtain ⟨_, _, _, rfl, h₂, h⟩ := makes_bind_ok.1 h
  obtain ⟨_, _, _, rfl, h₃, h⟩ := makes_bind_ok.1 h
  obtain ⟨_, _, _, rfl, h₄, h₅⟩ := makes_bind_ok.1 h
  obtain ⟨v, rfl⟩ := makes_setBits_ok.1 h₃
  -- the buffer is flushed, and nothing but the octets is written to it after that
  rw [makes_writeReg_ok.1 h₄, makes_writeAll_ok h₅, loaded_append]
  simp only [List.foldl_append, List.foldl_cons, List.foldl_nil, load_of_read, load_flush,
    load_of_command, foldl_load_data, List.nil_append]

/-! ## One command -/

/-- What is read when an answer is fetched. -/
theorem makes_fetch {frame : Frame} (h : fetch.Makes t (.ok frame)) : Answers frame t := by
  obtain ⟨t₁, _, level, rfl, h₁, h⟩ := makes_bind_ok.1 h
  obtain ⟨t₂, _, data, rfl, h₂, h⟩ := makes_bind_ok.1 h
  obtain ⟨t₃, _, control, rfl, h₃, h⟩ := makes_bind_ok.1 h
  obtain ⟨rfl, hframe⟩ := makes_pure.1 h
  obtain ⟨rfl, hlen⟩ := makes_readMany_ok h₂
  rw [Except.ok.inj hframe, makes_readReg_ok.1 h₁, makes_readReg_ok.1 h₃, ← hlen]
  exact ⟨level, control, by simp, hlen, rfl⟩

/-- A transmission that succeeds ends with its answer. -/
theorem makes_conclude {frame : Frame} (h : (conclude ReaderCommand.transceive).Makes t (.ok frame)) :
    ∃ t₁ t₂, t = t₁ ++ t₂ ∧ Answers frame t₂ := by
  obtain ⟨t₁, _, _, rfl, -, h⟩ := makes_bind_ok.1 h
  obtain ⟨t₂, t₃, errors, rfl, -, h⟩ := makes_bind_ok.1 h
  refine ⟨t₁ ++ t₂, t₃, (List.append_assoc ..).symm, ?_⟩
  dsimp only at h
  split at h
  · -- an answer with errors is not fetched
    obtain ⟨_, _, _, -, hthrow, -⟩ := makes_bind_ok.1 h
    cases (makes_throw.1 hthrow).2
  · exact makes_fetch h

/-- **One command.** Either it is not started, and the exchange fails; or it is started once,
and it finds loaded what it is to send. -/
theorem makes_communicate {command : UInt8} {send : Bytes} {r : Except CardError Frame}
    (h : (communicate command send).Makes t r) :
    ((∀ a ∈ t, a.Silent) ∧ ∃ e, r = .error e) ∨
    ∃ before o after, t = before ++ .write Reg.command command o :: after ∧
      (∀ a ∈ before, a.Silent) ∧ (∀ a ∈ after, a.Silent) ∧
      (∀ past, loaded (past ++ before) = send) ∧
      ∀ frame, r = .ok frame → o = .ok () ∧
        ∃ t₁ t₂, after = t₁ ++ t₂ ∧ (conclude command).Makes t₂ (.ok frame) := by
  rw [communicate_eq] at h
  rcases makes_bind.1 h with ⟨e, hfail, rfl⟩ | ⟨before, _, _, rfl, hprepare, hrest⟩
  · exact .inl ⟨prepare_silent _ _ _ _ hfail, e, rfl⟩
  -- all is loaded, so the command is written, whatever becomes of that
  refine .inr ?_
  have hbefore := prepare_silent _ _ _ _ hprepare
  rcases makes_bind.1 hrest with ⟨e, hfail, rfl⟩ | ⟨_, t, _, rfl, hwrite, hlast⟩
  · obtain ⟨o, rfl, -⟩ := makes_writeReg.1 hfail
    exact ⟨before, o, [], rfl, hbefore, by simp, loaded_prepare hprepare, by simp⟩
  obtain rfl := makes_writeReg_ok.1 hwrite
  rcases makes_bind.1 hlast with ⟨e, hfail, rfl⟩ | ⟨t₁, t₂, _, rfl, hsignal, hend⟩
  · exact ⟨before, .ok (), t, rfl, hbefore, signal_silent _ _ _ hfail, loaded_prepare hprepare,
      by simp⟩
  refine ⟨before, .ok (), t₁ ++ t₂, rfl, hbefore, ?_, loaded_prepare hprepare, ?_⟩
  · intro a ha
    rcases List.mem_append.1 ha with ha | ha
    · exact signal_silent _ _ _ hsignal a ha
    · exact conclude_silent _ _ _ hend a ha
  · rintro frame rfl
    exact ⟨rfl, t₁, t₂, rfl, hend⟩

theorem communicate_keeps {kind : Access → Prop} {command : UInt8} {send : Bytes}
    (hsilent : ∀ a, a.Silent → kind a) (hstart : ∀ o, kind (.write Reg.command command o)) :
    Keeps kind (communicate command send) := by
  intro t r hm a ha
  rcases makes_communicate hm with ⟨hquiet, -⟩ | ⟨before, o, after, rfl, hbefore, hafter, -⟩
  · exact hsilent a (hquiet a ha)
  · rcases List.mem_append.1 ha with ha | ha
    · exact hsilent a (hbefore a ha)
    · rcases List.mem_cons.1 ha with rfl | ha
      · exact hstart o
      · exact hsilent a (hafter a ha)

theorem transceive_calm (send : Bytes) : Keeps Access.Calm (transceive send) :=
  communicate_keeps (fun _ h => .inl h) fun o => .inr ⟨o, rfl⟩

theorem communicate_atMost {command : UInt8} {send : Bytes}
    (h : command = ReaderCommand.authenticate ∨ command = ReaderCommand.transceive) :
    AtMost 1 (Access.starts command) (communicate command send) := by
  intro t r hm
  rcases makes_communicate hm with ⟨hquiet, -⟩ | ⟨before, o, after, rfl, hbefore, hafter, -⟩
  · rw [List.countP_eq_zero.2 fun a ha => by simp [(hquiet a ha).starts h]]
    exact Nat.zero_le 1
  · rw [List.countP_append, List.countP_cons,
      List.countP_eq_zero.2 fun a ha => by simp [(hbefore a ha).starts h],
      List.countP_eq_zero.2 fun a ha => by simp [(hafter a ha).starts h]]
    split <;> decide

/-! ## Checksums -/

theorem foldl_load_reads (bs : Bytes) (h : ∀ a ∈ t, ∃ reg r, a = .read reg r) :
    t.foldl load bs = bs := by
  induction t generalizing bs with
  | nil => rfl
  | cons a t ih =>
    obtain ⟨reg, r, rfl⟩ := h a (by simp)
    exact ih bs fun b hb => h b (by simp [hb])

/-- **Octets are closed with the checksum that is read while they are loaded.** -/
theorem makes_closed {data frame : Bytes} (h : (closed data).Makes t (.ok frame)) :
    ∃ before low high, frame = data ++ [low, high] ∧ (∀ past, loaded (past ++ before) = data) ∧
      t = before ++ [.read Reg.crcLow (.ok low), .read Reg.crcHigh (.ok high)] := by
  obtain ⟨_, _, crc, rfl, hcrc, hpure⟩ := makes_bind_ok.1 h
  obtain ⟨rfl, hframe⟩ := makes_pure.1 hpure
  obtain ⟨t₁, _, _, rfl, h₁, h⟩ := makes_bind_ok.1 hcrc
  obtain ⟨t₂, _, _, rfl, h₂, h⟩ := makes_bind_ok.1 h
  obtain ⟨t₃, _, _, rfl, h₃, h⟩ := makes_bind_ok.1 h
  obtain ⟨t₄, _, _, rfl, h₄, h⟩ := makes_bind_ok.1 h
  obtain ⟨t₅, _, ended, rfl, h₅, h⟩ := makes_bind_ok.1 h
  cases ended with
  | false =>
    obtain ⟨_, _, _, -, hthrow, -⟩ := makes_bind_ok.1 h
    cases (makes_throw.1 hthrow).2
  | true =>
    obtain ⟨_, _, low, rfl, hlow, h⟩ := makes_bind_ok.1 h
    obtain ⟨_, _, high, rfl, hhigh, h⟩ := makes_bind_ok.1 h
    obtain ⟨rfl, hoctets⟩ := makes_pure.1 h
    refine ⟨t₁ ++ (t₂ ++ (t₃ ++ (t₄ ++ t₅))), low, high, ?_, fun past => ?_, ?_⟩
    · rw [Except.ok.inj hframe, Except.ok.inj hoctets]
    · -- the checksum is computed of what is loaded, and waiting for it loads nothing
      obtain ⟨v, rfl⟩ := makes_setBits_ok.1 h₂
      have hreads : ∀ a ∈ t₅, ∃ reg r, a = .read reg r :=
        keeps_pollUntil (fun o => ⟨_, o, rfl⟩) _ _ _ h₅
      rw [makes_writeAll_ok h₃, makes_writeReg_ok.1 h₄, loaded_append]
      simp only [List.foldl_append, List.foldl_cons, List.foldl_nil, load_of_read, load_flush,
        load_of_command, foldl_load_data, List.nil_append,
        foldl_load_reads _ hreads]
    · rw [makes_readReg_ok.1 hlow, makes_readReg_ok.1 hhigh]
      simp

end Operation

end Turnstile

import Turnstile.Proofs.Simulation.Commands

/-!
# Sessions of simulated readers

Only a check of a key opens a session on a chip, and nothing but `Field.breakBus` breaks its bus.

* `SimChip.KeepsBut`: what a frame, a checksum and a check of a key leave of the registers.
* `SimChip.cryptoOn_write`: no calm access opens a session.
* `Operation.secure_of_calm`: so an operation of calm accesses leaves both readers without one.
* `Operation.secure_closing`: and so does any operation that ends its session at last.
-/

namespace Turnstile

namespace SimChip

/-- Whether a chip has the registers of another but for certain ones, and a broken bus if that has. -/
structure KeepsBut (regs : List UInt8) (c' c : SimChip) : Prop where
  kept : ∀ reg ∉ regs, c'.get reg = c.get reg
  broken : c'.broken = c.broken

/-- The registers that tell what came of a frame. -/
def answerRegs : List UInt8 :=
  [Reg.comIrq, Reg.error, Reg.control]

/-- The registers that tell what came of a checksum. -/
def checksumRegs : List UInt8 :=
  [Reg.divIrq, Reg.crcHigh, Reg.crcLow]

/-- Whether a chip has the status of another, and a broken bus if that has. -/
structure SameSession (c' c : SimChip) : Prop where
  status : c'.get Reg.status2 = c.get Reg.status2
  broken : c'.broken = c.broken

variable {c c' : SimChip} {reg value : UInt8} {regs : List UInt8}

theorem KeepsBut.trans {c'' : SimChip} (h' : KeepsBut regs c'' c') (h : KeepsBut regs c' c) :
    KeepsBut regs c'' c :=
  ⟨fun reg hreg => (h'.kept reg hreg).trans (h.kept reg hreg), h'.broken.trans h.broken⟩

theorem KeepsBut.mono {more : List UInt8} (h : KeepsBut regs c' c) (hsub : regs ⊆ more) :
    KeepsBut more c' c :=
  ⟨fun reg hreg => h.kept reg fun hmem => hreg (hsub hmem), h.broken⟩

theorem AlikeBut.keepsBut (h : AlikeBut regs c' c) : KeepsBut regs c' c :=
  ⟨h.kept, h.broken⟩

theorem KeepsBut.sameSession (h : KeepsBut regs c' c) (hregs : Reg.status2 ∉ regs) : SameSession c' c :=
  ⟨h.kept _ hregs, h.broken⟩

theorem SameSession.trans {c'' : SimChip} (h' : SameSession c'' c') (h : SameSession c' c) :
    SameSession c'' c :=
  ⟨h'.status.trans h.status, h'.broken.trans h.broken⟩

theorem SameSession.cryptoOn (h : SameSession c' c) : c'.cryptoOn = c.cryptoOn := by
  rw [SimChip.cryptoOn, SimChip.cryptoOn, h.status]

theorem keepsBut_set (h : reg ∈ regs) (c : SimChip) (value : UInt8) : KeepsBut regs (c.set reg value) c :=
  (alikeBut_set h c value).keepsBut

theorem sameSession_set (h : reg ≠ Reg.status2) (c : SimChip) : SameSession (c.set reg value) c :=
  (keepsBut_set (List.mem_singleton_self reg) c value).sameSession fun hmem =>
    h (List.mem_singleton.1 hmem).symm

theorem keepsBut_respond (c : SimChip) (data : Bytes) (lastBits : UInt8) :
    KeepsBut answerRegs (c.respond data lastBits) c :=
  (keepsBut_set (by decide) _ _).trans <| (keepsBut_set (by decide) _ _).trans ⟨fun _ _ => rfl, rfl⟩

theorem keepsBut_silence (c : SimChip) : KeepsBut answerRegs c.silence c :=
  (keepsBut_set (by decide) _ _).trans (keepsBut_set (by decide) _ _)

theorem keepsBut_takeFault {kind : SimFault → Bool} {f : SimFault}
    (h : c.takeFault kind = some (f, c')) : KeepsBut regs c' c := by
  obtain ⟨-, faults, rfl⟩ := takeFault_some h
  exact ⟨fun _ _ => rfl, rfl⟩

theorem keepsBut_answerRead (c : SimChip) (card : SimCard) (block : UInt8) :
    KeepsBut answerRegs (c.answerRead card block) c := by
  unfold answerRead
  split
  · next h => exact (keepsBut_respond ..).trans (keepsBut_takeFault h)
  · exact keepsBut_respond ..

theorem keepsBut_answerWrite (c : SimChip) (block : UInt8) :
    KeepsBut answerRegs (c.answerWrite block) c := by
  unfold answerWrite
  split
  · next h => exact (keepsBut_respond ..).trans (keepsBut_takeFault h)
  · exact (keepsBut_respond ..).trans ⟨fun _ _ => rfl, rfl⟩

theorem keepsBut_answerData (c : SimChip) (card : SimCard) (block : UInt8) (frame : Bytes) :
    KeepsBut answerRegs (c.answerData card block frame) c := by
  unfold answerData
  split
  · exact (keepsBut_respond ..).trans ⟨fun _ _ => rfl, rfl⟩
  · exact keepsBut_respond ..

theorem keepsBut_answer (c : SimChip) (card : SimCard) (lastBits : UInt8) (frame : Bytes) :
    KeepsBut answerRegs (c.answer card lastBits frame) c := by
  unfold answer
  split
  · split
    · exact (keepsBut_respond ..).trans ⟨fun _ _ => rfl, rfl⟩
    · exact keepsBut_silence c
  · split
    · exact keepsBut_respond ..
    · exact keepsBut_silence c
  · split
    · exact keepsBut_answerRead ..
    split
    · exact keepsBut_answerWrite ..
    · exact keepsBut_silence c
  · split
    · exact (keepsBut_respond ..).trans ⟨fun _ _ => rfl, rfl⟩
    · exact keepsBut_silence c
  · exact keepsBut_silence c

theorem keepsBut_receive (c : SimChip) (lastBits : UInt8) (frame : Bytes) :
    KeepsBut answerRegs (c.receive lastBits frame) c := by
  unfold receive
  split
  · exact keepsBut_silence c
  split
  · exact (keepsBut_answerData ..).trans ⟨fun _ _ => rfl, rfl⟩
  · exact keepsBut_answer ..

/-- Whatever comes of a frame, it changes only the registers that tell so. -/
theorem keepsBut_transmit (c : SimChip) (lastBits : UInt8) :
    KeepsBut answerRegs (c.transmit lastBits) c := by
  have hsent : KeepsBut answerRegs ({ c with fifo := [] }.set Reg.error 0) c :=
    (keepsBut_set (by decide) _ _).trans ⟨fun _ _ => rfl, rfl⟩
  unfold transmit
  dsimp only
  split
  · next h => exact (keepsBut_takeFault h).trans hsent
  split
  · next h =>
    exact (keepsBut_set (by decide) _ _).trans <| (keepsBut_set (by decide) _ _).trans <|
      (keepsBut_takeFault h).trans hsent
  · exact (keepsBut_receive ..).trans hsent

theorem keepsBut_computeChecksum (c : SimChip) : KeepsBut checksumRegs c.computeChecksum c :=
  (keepsBut_set (by decide) _ _).trans <| (keepsBut_set (by decide) _ _).trans <|
    (keepsBut_set (by decide) _ _).trans ⟨fun _ _ => rfl, rfl⟩

theorem keepsBut_read (c : SimChip) (reg : UInt8) : KeepsBut [] (c.read reg).2 c := by
  unfold read
  split
  · split <;> exact ⟨fun _ _ => rfl, rfl⟩
  · split <;> exact ⟨fun _ _ => rfl, rfl⟩

theorem keepsBut_authenticate (c : SimChip) :
    KeepsBut (Reg.status2 :: answerRegs) c.authenticate c := by
  have hsent : KeepsBut (Reg.status2 :: answerRegs) ({ c with fifo := [] }.set Reg.error 0) c :=
    (keepsBut_set (by decide) _ _).trans ⟨fun _ _ => rfl, rfl⟩
  unfold authenticate
  dsimp only
  split
  · next h => exact (keepsBut_takeFault h).trans hsent
  · exact ((alikeBut_checkKey ..).keepsBut.mono (by decide)).trans <| (keepsBut_set (by decide) _ _).trans hsent

theorem cryptoOn_reset (c : SimChip) : c.reset.cryptoOn = false := by
  have hpower : Registers.powerOn.get Reg.status2 &&& 0x08 = 0 := by decide +kernel
  simp [cryptoOn, reset, get, hpower]

/-- What a write does to the status and to the bus: nothing, unless it writes the status, or
resets the chip, or has a key checked. -/
theorem write_cases (c : SimChip) (reg value : UInt8) :
    SameSession (c.write reg value) c ∨
    reg = Reg.status2 ∧ c.write reg value = c.set reg value ∨
    reg = Reg.command ∧ (c.write reg value).broken = c.broken ∧
      ((c.write reg value).cryptoOn = false ∨ value &&& 0x0F = ReaderCommand.authenticate) := by
  unfold write
  -- the branches are those of the write: flags, the two of the buffer, the command, the signal
  -- to send, and all that is merely stored
  split
  · next h => exact .inl (sameSession_set (by rcases h with rfl | rfl <;> decide) c)
  split
  · split <;> exact .inl ⟨rfl, rfl⟩
  split
  · exact .inl ⟨rfl, rfl⟩
  split
  · next h =>
    subst h
    have hset : SameSession (c.set Reg.command (value &&& 0x0F)) c := sameSession_set (by decide) c
    unfold startCommand
    split
    · exact .inr (.inr ⟨rfl, rfl, .inl (cryptoOn_reset _)⟩)
    split
    · exact .inl (((keepsBut_computeChecksum _).sameSession (by decide)).trans hset)
    split
    · next h => exact .inr (.inr ⟨rfl, (keepsBut_authenticate _).broken, .inr h⟩)
    · exact .inl hset
  split
  · next h =>
    subst h
    have hset : SameSession (c.set Reg.bitFraming value) c := sameSession_set (by decide) c
    dsimp only
    split
    · exact .inl (((keepsBut_transmit ..).sameSession (by decide)).trans hset)
    · exact .inl hset
  · by_cases hreg : reg = Reg.status2
    · exact .inr (.inl ⟨hreg, rfl⟩)
    · exact .inl (sameSession_set hreg c)

theorem broken_write (c : SimChip) (reg value : UInt8) : (c.write reg value).broken = c.broken := by
  rcases write_cases c reg value with h | ⟨-, h⟩ | ⟨-, h, -⟩
  · exact h.broken
  · rw [h]; rfl
  · exact h

/-- **No calm access opens a session.** -/
theorem cryptoOn_write {o : Except BusError Unit} (ha : (Access.write reg value o).Calm)
    (h : c.cryptoOn = false) : (c.write reg value).cryptoOn = false := by
  have hcalm : reg ≠ Reg.status2 ∧
      (reg = Reg.command → value &&& 0x0F ≠ ReaderCommand.authenticate) := by
    -- the chip looks at four bits of a command, and no calm command has those of a check
    rcases ha with ha | ⟨_, ha⟩
    · refine ⟨ha.1, fun hreg => ?_⟩
      rcases ha.2 hreg with rfl | rfl <;> decide
    · cases ha
      exact ⟨by decide, fun _ => by decide⟩
  rcases write_cases c reg value with hsame | ⟨hreg, -⟩ | ⟨hreg, -, hoff | hkey⟩
  · rw [hsame.cryptoOn, h]
  · exact absurd hreg hcalm.1
  · exact hoff
  · exact absurd hkey (hcalm.2 hreg)

end SimChip

namespace Field

/-- Whether neither reader has a session. -/
def Secure (f : Field) : Prop :=
  ∀ role, (f.get role).cryptoOn = false

variable {f : Field} {role other : Role} {reg value : UInt8}

theorem secure_set {chip : SimChip} (hf : ∀ other, other ≠ role → (f.get other).cryptoOn = false)
    (h : chip.cryptoOn = false) : Secure (f.set role chip) := by
  intro other
  by_cases hrole : other = role
  · rw [hrole, Sides.get_set_self, h]
  · rw [Sides.get_set_of_ne f hrole, hf other hrole]

/-- What a read does to the readers: nothing if the one is broken, else nothing to the other. -/
theorem read_cases (f : Field) (role : Role) (reg : UInt8) :
    (f.get role).broken = true ∧ (RegisterBus.read f role reg).2 = f ∨
    (f.get role).broken = false ∧ (RegisterBus.read f role reg).1 = .ok ((f.get role).read reg).1 ∧
      (RegisterBus.read f role reg).2 = f.set role ((f.get role).read reg).2 := by
  show _ ∧ (f.read role reg).2 = f ∨ _ ∧ (f.read role reg).1 = _ ∧ (f.read role reg).2 = _
  unfold read
  split
  · next h => exact .inl ⟨h, rfl⟩
  · next h => exact .inr ⟨Bool.eq_false_iff.2 h, rfl, rfl⟩

/-- What a write does to the readers. -/
theorem write_cases (f : Field) (role : Role) (reg value : UInt8) :
    (f.get role).broken = true ∧ (RegisterBus.write f role reg value).2 = f ∨
    (f.get role).broken = false ∧
      (RegisterBus.write f role reg value).2 = f.set role ((f.get role).write reg value) := by
  show _ ∧ (f.write role reg value).2 = f ∨ _ ∧ (f.write role reg value).2 = _
  unfold write
  split
  · next h => exact .inl ⟨h, rfl⟩
  · next h => exact .inr ⟨Bool.eq_false_iff.2 h, rfl⟩

theorem secure_read (h : f.Secure) : Secure (RegisterBus.read f role reg).2 := by
  rcases read_cases f role reg with ⟨-, heq⟩ | ⟨-, -, heq⟩
  · rwa [heq]
  · rw [heq]
    exact secure_set (fun other _ => h other)
      (((SimChip.keepsBut_read _ reg).sameSession (by decide)).cryptoOn.trans (h role))

theorem secure_write {o : Except BusError Unit} (ha : (Access.write reg value o).Calm)
    (h : f.Secure) : Secure (RegisterBus.write f role reg value).2 := by
  rcases write_cases f role reg value with ⟨-, heq⟩ | ⟨-, heq⟩
  · rwa [heq]
  · rw [heq]
    exact secure_set (fun other _ => h other) (SimChip.cryptoOn_write ha (h role))

end Field

namespace Operation

variable {α β : Type}

/-- Whether an operation leaves both readers without a session, if it found them so. -/
def Secure (op : Operation α) : Prop :=
  ∀ (role : Role) (f : Field), f.Secure → (op.perform role f).2.1.Secure

theorem secure_of_calm {op : Operation α} (h : Keeps Access.Calm op) : Secure op := by
  intro role f hf
  refine perform_preserves (P := Field.Secure) ?_ ?_ h hf
  · intro f reg hf
    exact Field.secure_read hf
  · intro f reg value r ha hf
    exact Field.secure_write ha hf

theorem secure_bind {op : Operation α} {f : α → Operation β} (h : Secure op)
    (hf : ∀ a, Secure (f a)) : Secure (op >>= f) := by
  intro role s hs
  rw [perform_bind]
  split
  · exact hf _ role _ (h role s hs)
  · exact h role s hs

section Role

variable {role other : Role} {f : Field} {op : Operation α}

/-- An operation puts other chips in the place of one that is not broken, and does no more. -/
theorem perform_set {P : Field → Prop}
    (hset : ∀ s chip, (s.get role).broken = false → chip.broken = false → P s → P (s.set role chip))
    (h : P f) : P (op.perform role f).2.1 := by
  have hany : Keeps (fun _ => True) op := fun _ _ _ _ _ => trivial
  refine perform_preserves (P := P) ?_ ?_ hany h
  · intro s reg hs
    rcases Field.read_cases s role reg with ⟨-, heq⟩ | ⟨hsound, -, heq⟩
    · rwa [heq]
    · rw [heq]
      exact hset s _ hsound ((SimChip.keepsBut_read _ reg).broken.trans hsound) hs
  · intro s reg value _ _ hs
    rcases Field.write_cases s role reg value with ⟨-, heq⟩ | ⟨hsound, heq⟩
    · rwa [heq]
    · rw [heq]
      exact hset s _ hsound ((SimChip.broken_write _ reg value).trans hsound) hs

/-- An operation on one reader leaves the other alone. -/
theorem perform_get_of_ne (h : other ≠ role) : (op.perform role f).2.1.get other = f.get other :=
  perform_set (P := fun s => s.get other = f.get other)
    (fun s chip _ _ hs => (Sides.get_set_of_ne s h chip).trans hs) rfl

/-- An operation on a reader that is broken changes nothing. -/
theorem perform_broken (h : (f.get role).broken = true) : (op.perform role f).2.1 = f := by
  refine perform_set (P := fun s => s = f) ?_ rfl
  rintro s chip hsound - rfl
  rw [h] at hsound
  cases hsound

/-- No operation breaks the bus. -/
theorem broken_perform (h : (f.get role).broken = false) :
    ((op.perform role f).2.1.get role).broken = false :=
  perform_set (P := fun s => (s.get role).broken = false)
    (fun s chip _ hchip _ => (congrArg SimChip.broken (Sides.get_set_self s role chip)).trans hchip) h

/-- A reader that is not broken has no session after it was told to end it. -/
theorem cryptoOn_stopCrypto (h : (f.get role).broken = false) :
    ((stopCrypto.perform role f).2.1.get role).cryptoOn = false := by
  rcases Field.read_cases f role Reg.status2 with ⟨hbroken, -⟩ | ⟨-, hvalue, hread⟩
  · rw [h] at hbroken; cases hbroken
  rw [stopCrypto, perform_clearBits hvalue, hread]
  have hsame := SimChip.keepsBut_read (f.get role) Reg.status2
  generalize ((f.get role).read Reg.status2).2 = chip at hsame
  rcases Field.write_cases (f.set role chip) role Reg.status2 _ with ⟨hbroken, -⟩ | ⟨-, hwrite⟩
  · rw [Sides.get_set_self, hsame.broken, h] at hbroken; cases hbroken
  rw [hwrite, Sides.get_set_self, Sides.get_set_self]
  generalize ((f.get role).read Reg.status2).1 = v
  have hclear : v &&& ~~~0x08 &&& 0x08 = 0 :=
    octet_forall (p := fun v => v &&& ~~~0x08 &&& 0x08 = 0) (by decide +kernel) v
  have hset : chip.write Reg.status2 (v &&& ~~~0x08) = chip.set Reg.status2 (v &&& ~~~0x08) := rfl
  rw [hset]
  simp [SimChip.cryptoOn, SimChip.get, SimChip.set, Registers.get_set, hclear]

end Role

/-- **An operation that ends its session at last leaves none**, on whatever reader. -/
theorem secure_closing (op : Operation α) : Secure (closing op stopCrypto) := by
  intro role f hf
  rw [perform_closing]
  cases hbroken : (f.get role).broken with
  | true => rwa [perform_broken hbroken, perform_broken hbroken]
  | false =>
    -- whatever the operation did to this reader, its bus is intact when the session is ended
    intro other
    by_cases hrole : other = role
    · rw [hrole]
      exact cryptoOn_stopCrypto (broken_perform hbroken)
    · rw [perform_get_of_ne hrole, perform_get_of_ne hrole, hf other]

end Operation

end Turnstile

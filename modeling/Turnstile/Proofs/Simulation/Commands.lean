import Turnstile.Proofs.Simulation.Alone

/-!
# Commands of a simulated reader that meet no fault

Whatever is left in the buffer and in the registers, a command of a chip with an intact bus
and no fault to come ends at once, with what the card makes of it.

* `SimChip.AlikeBut`: what a command leaves alone.
* `runs_checksum`: the checksum unit computes the checksum of the octets.
* `runs_send`: a frame is sent, whatever comes of it.
* `runs_transceive_respond`, `runs_transceive_silence`: a frame that the card answers, and one
  that it does not.
* `runs_authenticate`: a key opens a session, or does not.
-/

namespace Turnstile

/-- Whether a chip is like another but for its buffer, the record of keys and certain
registers. -/
structure SimChip.AlikeBut (regs : List UInt8) (c' c : SimChip) : Prop where
  card : c'.card = c.card
  faults : c'.faults = c.faults
  selected : c'.selected = c.selected
  awaiting : c'.awaiting = c.awaiting
  broken : c'.broken = c.broken
  kept : ∀ reg ∉ regs, c'.get reg = c.get reg

/-- Whether no fault is to come that ends an exchange before the card hears of it. -/
structure SimChip.Heard (c : SimChip) : Prop where
  stall : c.takeFault (· = .stall) = none
  errorBits : c.takeFault (fun f => f matches .errorBits _) = none

/-- The registers that the commands of a reader work with. The status is not among them. -/
def workingRegs : List UInt8 :=
  [Reg.command, Reg.comIEn, Reg.comIrq, Reg.divIrq, Reg.error, Reg.control, Reg.bitFraming,
    Reg.crcHigh, Reg.crcLow]

namespace SimChip

variable {regs : List UInt8} {c c' c'' : SimChip} {reg value : UInt8}

theorem get_set_self (c : SimChip) (reg value : UInt8) : (c.set reg value).get reg = value :=
  (Registers.get_set ..).trans (if_pos rfl)

theorem get_set_of_ne (c : SimChip) {reg other : UInt8} (h : other ≠ reg) (value : UInt8) :
    (c.set reg value).get other = c.get other :=
  (Registers.get_set ..).trans (if_neg h)

theorem AlikeBut.refl (regs : List UInt8) (c : SimChip) : AlikeBut regs c c :=
  ⟨rfl, rfl, rfl, rfl, rfl, fun _ _ => rfl⟩

theorem AlikeBut.trans (h' : AlikeBut regs c'' c') (h : AlikeBut regs c' c) : AlikeBut regs c'' c :=
  ⟨h'.card.trans h.card, h'.faults.trans h.faults, h'.selected.trans h.selected,
    h'.awaiting.trans h.awaiting, h'.broken.trans h.broken,
    fun reg hreg => (h'.kept reg hreg).trans (h.kept reg hreg)⟩

theorem AlikeBut.symm (h : AlikeBut regs c' c) : AlikeBut regs c c' :=
  ⟨h.card.symm, h.faults.symm, h.selected.symm, h.awaiting.symm, h.broken.symm,
    fun reg hreg => (h.kept reg hreg).symm⟩

theorem AlikeBut.mono {more : List UInt8} (h : AlikeBut regs c' c) (hsub : regs ⊆ more) :
    AlikeBut more c' c :=
  { h with kept := fun reg hreg => h.kept reg fun hmem => hreg (hsub hmem) }

theorem alikeBut_set (h : reg ∈ regs) (c : SimChip) (value : UInt8) :
    AlikeBut regs (c.set reg value) c where
  card := rfl
  faults := rfl
  selected := rfl
  awaiting := rfl
  broken := rfl
  kept := by
    intro other hother
    have hne : other ≠ reg := fun heq => hother (heq ▸ h)
    exact get_set_of_ne c hne value

theorem alikeBut_fifo (regs : List UInt8) (c : SimChip) (fifo : Bytes) :
    AlikeBut regs { c with fifo } c :=
  ⟨rfl, rfl, rfl, rfl, rfl, fun _ _ => rfl⟩

/-- A fault that is found is of the kind that was looked for, and only the faults are fewer then. -/
theorem takeFault_some {kind : SimFault → Bool} {f : SimFault} (h : c.takeFault kind = some (f, c')) :
    kind f = true ∧ ∃ faults, c' = { c with faults } := by
  obtain ⟨g, hfound, h⟩ := Option.map_eq_some_iff.1 h
  cases h
  exact ⟨List.find?_some hfound, _, rfl⟩

/-- Whatever key is checked, that touches nothing but the status. -/
theorem alikeBut_checkKey (c : SimChip) (payload : Bytes) :
    AlikeBut [Reg.status2] (c.checkKey payload) c := by
  unfold checkKey
  split
  · exact AlikeBut.refl _ c
  split
  · exact AlikeBut.refl _ c
  next kind _ =>
  have htried : AlikeBut [Reg.status2] { c with attempts := kind :: c.attempts } c :=
    ⟨rfl, rfl, rfl, rfl, rfl, fun _ _ => rfl⟩
  dsimp only
  split
  · exact htried
  split
  · exact (alikeBut_set (List.mem_singleton_self _) _ _).trans htried
  · exact htried

theorem AlikeBut.cryptoOn (h : AlikeBut workingRegs c' c) : c'.cryptoOn = c.cryptoOn := by
  have hstatus : c'.get Reg.status2 = c.get Reg.status2 := h.kept _ (by decide)
  rw [SimChip.cryptoOn, SimChip.cryptoOn, hstatus]

/-- The flags that a mask raises show in it. -/
theorem raise_and_ne_zero (c : SimChip) {mask flag : UInt8} (hflag : mask &&& flag = mask)
    (hmask : mask ≠ 0) : (c.raise reg mask).get reg &&& flag ≠ 0 := by
  have hget : (c.raise reg mask).get reg = c.get reg ||| mask := get_set_self c reg _
  have hbits : (c.get reg ||| mask) &&& flag = (c.get reg &&& flag) ||| (mask &&& flag) :=
    UInt8.toBitVec_inj.1 BitVec.and_or_distrib_right
  rw [hget, hbits, hflag]
  intro hzero
  exact hmask (UInt8.or_eq_zero_iff.1 hzero).2

theorem computeChecksum_eq (c : SimChip) :
    c.computeChecksum.fifo = [] ∧ c.computeChecksum.get Reg.divIrq &&& 0x04 ≠ 0 ∧
      [c.computeChecksum.get Reg.crcLow, c.computeChecksum.get Reg.crcHigh] = Checksum.of c.fifo ∧
      AlikeBut workingRegs c.computeChecksum c := by
  let crc := Checksum.register c.fifo
  let low := ({ c with fifo := [] } : SimChip).set Reg.crcLow crc.toUInt8
  let high := low.set Reg.crcHigh (crc >>> 8).toUInt8
  have hlow : (high.raise Reg.divIrq 0x04).get Reg.crcLow = crc.toUInt8 :=
    (get_set_of_ne high (by decide) _).trans <|
      (get_set_of_ne low (by decide) _).trans (get_set_self _ _ _)
  have hhigh : (high.raise Reg.divIrq 0x04).get Reg.crcHigh = (crc >>> 8).toUInt8 :=
    (get_set_of_ne high (by decide) _).trans (get_set_self _ _ _)
  have halike : AlikeBut workingRegs (high.raise Reg.divIrq 0x04) c :=
    (alikeBut_set (by decide) high _).trans <| (alikeBut_set (by decide) low _).trans <|
      (alikeBut_set (by decide) _ _).trans (alikeBut_fifo _ c [])
  refine ⟨rfl, raise_and_ne_zero high (by decide) (by decide), ?_, halike⟩
  show [(high.raise Reg.divIrq 0x04).get Reg.crcLow, (high.raise Reg.divIrq 0x04).get Reg.crcHigh] = _
  rw [hlow, hhigh]
  rfl

end SimChip

namespace Operation

open SimChip (AlikeBut)

variable {c : SimChip}

/-- **The checksum unit computes the checksum**, of any octets and whatever was left in the
buffer and in the registers. -/
theorem runs_checksum (h : c.broken = false) (data : Bytes) :
    ∃ c', Runs (checksum data) c (.ok (Checksum.of data)) c' ∧ c'.fifo = [] ∧
      AlikeBut workingRegs c' c := by
  -- the flag is cleared, the buffer flushed and loaded, the computation started
  let c₁ := c.write Reg.divIrq (c.get Reg.divIrq &&& ~~~0x04)
  let c₂ : SimChip := ({ c₁ with fifo := [] ++ data }).set Reg.command ReaderCommand.computeCrc
  have hclear := runs_clearBits h Reg.divIrq (by decide) 0x04
  have hflush := runs_flush (c := c₁) h
  have hload := runs_writeAll (c := { c₁ with fifo := [] }) h data
  have hstart : Runs (writeReg Reg.command ReaderCommand.computeCrc) { c₁ with fifo := [] ++ data }
      (.ok ()) c₂.computeChecksum :=
    runs_writeReg (c := { c₁ with fifo := [] ++ data }) h Reg.command ReaderCommand.computeCrc
  have halike : AlikeBut workingRegs c₂ c :=
    (SimChip.alikeBut_set (by decide) _ _).trans <| (SimChip.alikeBut_fifo _ c₁ _).trans <|
      SimChip.alikeBut_set (by decide) c _
  obtain ⟨hfifo, hflag, hcrc, hdone⟩ := c₂.computeChecksum_eq
  have hbroken : c₂.computeChecksum.broken = false := (hdone.trans halike).broken.trans h
  refine ⟨c₂.computeChecksum, ?_, hfifo, hdone.trans halike⟩
  refine hclear.bind (hflush.bind (hload.bind (hstart.bind ?_)))
  -- it ended at once, and the result is in two registers
  refine (runs_pollUntil hbroken (by decide) hflag).bind ?_
  have hlow := runs_readStored hbroken Reg.crcLow (by decide)
  have hhigh := runs_readStored hbroken Reg.crcHigh (by decide)
  refine hlow.bind (hhigh.bind ?_)
  rw [hcrc]
  exact runs_pure _

/-- Octets are closed with their checksum. -/
theorem runs_closed (h : c.broken = false) (data : Bytes) :
    ∃ c', Runs (closed data) c (.ok (Checksum.close data)) c' ∧ AlikeBut workingRegs c' c := by
  obtain ⟨c', hruns, -, halike⟩ := runs_checksum h data
  exact ⟨c', hruns.bind (runs_pure _), halike⟩

/-! ## Frames and keys -/

/-- A chip whose buffer was emptied into the field, or into the check of a key. -/
structure Emptied (c' c : SimChip) : Prop extends AlikeBut workingRegs c' c where
  fifo : c'.fifo = []
  error : c'.get Reg.error = 0

/-- The buffer is loaded, whatever was in it. -/
theorem runs_prepare (h : c.broken = false) (command : UInt8) (send : Bytes) :
    ∃ c', Runs (prepare command send) c (.ok ()) c' ∧ c'.fifo = send ∧
      AlikeBut [Reg.comIEn, Reg.comIrq, Reg.command] c' c := by
  let c₁ := c.set Reg.comIEn (enableMask command ||| 0x80)
  let c₂ := c₁.write Reg.comIrq (c₁.get Reg.comIrq &&& ~~~0x80)
  let c₃ := ({ c₂ with fifo := [] } : SimChip).set Reg.command ReaderCommand.idle
  have henable : Runs (writeReg Reg.comIEn (enableMask command ||| 0x80)) c (.ok ()) c₁ :=
    runs_writeReg h _ _
  have hclear := runs_clearBits (c := c₁) h Reg.comIrq (by decide) 0x80
  have hflush := runs_flush (c := c₂) h
  have hidle : Runs (writeReg Reg.command ReaderCommand.idle) { c₂ with fifo := [] } (.ok ()) c₃ :=
    runs_writeReg (c := { c₂ with fifo := [] }) h _ _
  have hload := runs_writeAll (c := c₃) h send
  refine ⟨_, henable.bind (hclear.bind (hflush.bind (hidle.bind hload))), List.nil_append send, ?_⟩
  exact (SimChip.alikeBut_fifo _ c₃ _).trans <| (SimChip.alikeBut_set (by decide) _ _).trans <|
    (SimChip.alikeBut_fifo _ c₂ []).trans <| (SimChip.alikeBut_set (by decide) c₁ _).trans <|
    SimChip.alikeBut_set (by decide) c _

/-- The signal to send is taken back, and nothing is sent by that. -/
theorem runs_takeBack (h : c.broken = false) :
    Runs (clearBits Reg.bitFraming 0x80) c (.ok ())
      (c.set Reg.bitFraming (c.get Reg.bitFraming &&& ~~~0x80)) := by
  have hclear : ∀ v : UInt8, v &&& ~~~0x80 &&& 0x80 = 0 :=
    octet_forall (p := fun v => v &&& ~~~0x80 &&& 0x80 = 0) (by decide +kernel)
  have hwrite : c.write Reg.bitFraming (c.get Reg.bitFraming &&& ~~~0x80) =
      c.set Reg.bitFraming (c.get Reg.bitFraming &&& ~~~0x80) := by
    show (if (c.get Reg.bitFraming &&& ~~~0x80) &&& 0x80 ≠ 0 ∧ _ then _ else c.set _ _) = c.set _ _
    exact if_neg fun hand => hand.1 (hclear _)
  have hruns := runs_clearBits h Reg.bitFraming (by decide) 0x80
  rwa [hwrite] at hruns

/-- A command that ended without error has what is in the buffer for an answer. -/
theorem runs_conclude {command : UInt8} (h : c.broken = false)
    (hflag : c.get Reg.comIrq &&& (waitMask command ||| 0x01) ≠ 0) (herror : c.get Reg.error = 0)
    (hlen : c.fifo.length ≤ fifoCapacity) :
    ∃ c', Runs (conclude command) c
        (.ok (if command = ReaderCommand.transceive then
          ⟨c.fifo, validBits c.fifo.length (c.get Reg.control &&& 0x07).toNat⟩ else ⟨[], 0⟩)) c' ∧
      AlikeBut workingRegs c' c := by
  -- the signal to send is taken back, which does nothing to the answer
  let c₁ := c.set Reg.bitFraming (c.get Reg.bitFraming &&& ~~~0x80)
  have hpoll : Runs (pollUntil Reg.comIrq (waitMask command ||| 0x01) commandBudget) c (.ok true) c :=
    runs_pollUntil h (by decide) hflag
  have hsignal : Runs (clearBits Reg.bitFraming 0x80) c (.ok ()) c₁ := runs_takeBack h
  have hawait : Runs (await command) c (.ok ()) c₁ := hpoll.bind (hsignal.bind (runs_pure ()))
  have hget : ∀ reg, reg ≠ Reg.bitFraming → c₁.get reg = c.get reg := fun reg hreg =>
    SimChip.get_set_of_ne c hreg _
  have hread : Runs (readReg Reg.error) c₁ (.ok 0) c₁ := by
    have hruns := runs_readStored (c := c₁) h Reg.error (by decide)
    rwa [hget _ (by decide), herror] at hruns
  have halike : AlikeBut workingRegs c₁ c := SimChip.alikeBut_set (by decide) c _
  by_cases hcommand : command = ReaderCommand.transceive
  · have hfetch := runs_fetch (c := c₁) h hlen
    rw [hget Reg.control (by decide)] at hfetch
    refine ⟨_, hawait.bind (hread.bind ?_), (SimChip.alikeBut_fifo _ c₁ []).trans halike⟩
    rw [if_pos hcommand, if_pos hcommand]
    exact (runs_pure _).bind hfetch
  · refine ⟨c₁, hawait.bind (hread.bind ?_), halike⟩
    rw [if_neg hcommand, if_neg hcommand]
    exact (runs_pure _).bind (runs_pure _)

/-- However a command ended, what is fetched for an answer to it is what is in the buffer. -/
theorem runs_conclude_fetched (h : c.broken = false) (hlen : c.fifo.length ≤ fifoCapacity) :
    ∃ r c', Runs (conclude ReaderCommand.transceive) c r c' ∧ AlikeBut workingRegs c' c ∧
      ∀ frame, r = .ok frame → frame.data = c.fifo := by
  let c₁ := c.set Reg.bitFraming (c.get Reg.bitFraming &&& ~~~0x80)
  have halike : AlikeBut workingRegs c₁ c := SimChip.alikeBut_set (by decide) c _
  have hsignal : Runs (clearBits Reg.bitFraming 0x80) c (.ok ()) c₁ := runs_takeBack h
  have hsettled : ∃ ended, Runs (pollUntil Reg.comIrq (waitMask ReaderCommand.transceive ||| 0x01)
      commandBudget) c (.ok ended) c := runs_pollUntil_settled h (by decide) commandBudget
  obtain ⟨ended, hpoll⟩ := hsettled
  cases ended with
  | false =>
    have hawait : Runs (await ReaderCommand.transceive) c (.error .timeout) c₁ :=
      hpoll.bind (hsignal.bind ((runs_note _).bind (runs_throw _)))
    exact ⟨_, c₁, hawait.fail, halike, nofun⟩
  | true =>
    have hawait : Runs (await ReaderCommand.transceive) c (.ok ()) c₁ :=
      hpoll.bind (hsignal.bind (runs_pure ()))
    have hread := runs_readStored (c := c₁) h Reg.error (by decide)
    by_cases herror : c₁.get Reg.error &&& errorMask ≠ 0
    · have hfault : Runs (conclude ReaderCommand.transceive) c
          (.error (.readerFault (c₁.get Reg.error))) c₁ := by
        refine hawait.bind (hread.bind ?_)
        rw [if_pos herror]
        exact (runs_throw _).fail
      exact ⟨_, c₁, hfault, halike, nofun⟩
    · have hfetched : Runs (conclude ReaderCommand.transceive) c
          (.ok ⟨c.fifo, validBits c.fifo.length (c₁.get Reg.control &&& 0x07).toNat⟩)
          { c₁ with fifo := [] } := by
        refine hawait.bind (hread.bind ?_)
        rw [if_neg herror]
        exact (runs_pure _).bind (runs_fetch (c := c₁) h hlen)
      refine ⟨_, _, hfetched, (SimChip.alikeBut_fifo _ c₁ []).trans halike, ?_⟩
      rintro frame hframe
      cases hframe
      rfl

theorem takeFault_of_none (hfaults : c.faults = []) (kind : SimFault → Bool) :
    c.takeFault kind = none := by
  rw [SimChip.takeFault, hfaults]
  rfl

theorem takeFault_congr {c' : SimChip} {kind : SimFault → Bool} (h : c'.faults = c.faults)
    (hnone : c.takeFault kind = none) : c'.takeFault kind = none := by
  rw [SimChip.takeFault, Option.map_eq_none_iff] at hnone ⊢
  rwa [h]

theorem heard_of_none (hfaults : c.faults = []) : c.Heard :=
  ⟨takeFault_of_none hfaults _, takeFault_of_none hfaults _⟩

theorem heard_congr {c' : SimChip} (h : c'.faults = c.faults) (hheard : c.Heard) : c'.Heard :=
  ⟨takeFault_congr h hheard.stall, takeFault_congr h hheard.errorBits⟩

theorem transmit_of_heard (h : c.Heard) (lastBits : UInt8) :
    c.transmit lastBits = (({ c with fifo := [] } : SimChip).set Reg.error 0).receive lastBits c.fifo := by
  have hsent : (({ c with fifo := [] } : SimChip).set Reg.error 0).Heard := heard_congr (c := c) rfl h
  unfold SimChip.transmit
  dsimp only
  split
  · next hstall => cases hsent.stall.symm.trans hstall
  split
  · next hbits => cases hsent.errorBits.symm.trans hbits
  · rfl

theorem authenticate_of_none (hfaults : c.faults = []) :
    c.authenticate =
      ((({ c with fifo := [] } : SimChip).set Reg.error 0).raise Reg.comIrq 0x10).checkKey c.fifo := by
  have hsent : (({ c with fifo := [] } : SimChip).set Reg.error 0).faults = [] := hfaults
  unfold SimChip.authenticate
  dsimp only
  rw [takeFault_of_none hsent]

theorem emptied_of_alikeBut {c₁ : SimChip} (h : AlikeBut workingRegs c₁ c) :
    Emptied (({ c₁ with fifo := [] } : SimChip).set Reg.error 0) c where
  toAlikeBut := (SimChip.alikeBut_set (by decide) _ _).trans ((SimChip.alikeBut_fifo _ c₁ []).trans h)
  fifo := rfl
  error := SimChip.get_set_self _ _ _

/-- What is loaded is sent, with as many bits as the framing says. -/
theorem runs_send (h : c.broken = false) (send : Bytes) :
    ∃ c₁ : SimChip, c₁.fifo = send ∧ AlikeBut workingRegs c₁ c ∧ ∀ r c',
      Runs (conclude ReaderCommand.transceive) (c₁.transmit (c.get Reg.bitFraming &&& 0x07)) r c' →
      Runs (transceive send) c r c' := by
  obtain ⟨c₁, hprepare, hload, halike⟩ := runs_prepare h ReaderCommand.transceive send
  -- the command waits for the signal, which is a bit of the framing
  let c₂ := c₁.set Reg.command ReaderCommand.transceive
  let framing := c₂.get Reg.bitFraming ||| 0x80
  let c₃ := c₂.set Reg.bitFraming framing
  have hbroken : c₁.broken = false := halike.broken.trans h
  have hstart : Runs (writeReg Reg.command ReaderCommand.transceive) c₁ (.ok ()) c₂ :=
    runs_writeReg hbroken _ _
  have hset : ∀ v : UInt8, (v ||| 0x80) &&& 0x80 ≠ 0 ∧ (v ||| 0x80) &&& 0x07 = v &&& 0x07 :=
    octet_forall (p := fun v => (v ||| 0x80) &&& 0x80 ≠ 0 ∧ (v ||| 0x80) &&& 0x07 = v &&& 0x07)
      (by decide +kernel)
  have hcommand : c₃.get Reg.command = ReaderCommand.transceive :=
    (SimChip.get_set_of_ne c₂ (by decide) _).trans (SimChip.get_set_self c₁ _ _)
  have hframing : c₂.get Reg.bitFraming = c.get Reg.bitFraming :=
    (SimChip.get_set_of_ne c₁ (by decide) _).trans (halike.kept _ (by decide))
  have hwrite : c₂.write Reg.bitFraming framing = c₃.transmit (c.get Reg.bitFraming &&& 0x07) := by
    show (if framing &&& 0x80 ≠ 0 ∧ c₃.get Reg.command = ReaderCommand.transceive then
      c₃.transmit (framing &&& 0x07) else c₃) = _
    rw [if_pos ⟨(hset _).1, hcommand⟩, (hset _).2, hframing]
  have hsignal := runs_setBits (c := c₂) hbroken Reg.bitFraming (by decide) 0x80
  rw [hwrite] at hsignal
  have hlike : AlikeBut workingRegs c₃ c :=
    (SimChip.alikeBut_set (by decide) c₂ _).trans <| (SimChip.alikeBut_set (by decide) c₁ _).trans <|
      halike.mono (by decide)
  refine ⟨c₃, hload, hlike, fun r c' hruns => ?_⟩
  rw [transceive, communicate_eq]
  exact hprepare.bind (hstart.bind (hsignal.bind hruns))

/-- A frame reaches the field as it was loaded. -/
theorem runs_transceive (h : c.broken = false) (hheard : c.Heard) (send : Bytes) :
    ∃ c₁, Emptied c₁ c ∧ ∀ r c',
      Runs (conclude ReaderCommand.transceive) (c₁.receive (c.get Reg.bitFraming &&& 0x07) send) r c' →
      Runs (transceive send) c r c' := by
  obtain ⟨c₁, hload, hlike, hruns⟩ := runs_send h send
  rw [transmit_of_heard (heard_congr hlike.faults hheard), hload] at hruns
  exact ⟨_, emptied_of_alikeBut hlike, hruns⟩

/-- **A frame that the card answers**: the octets of the answer are received. -/
theorem runs_transceive_respond (h : c.broken = false) (hheard : c.Heard) (send data : Bytes)
    (lastBits : UInt8) (hlen : data.length ≤ fifoCapacity) {d : SimChip} (hd : d.broken = false)
    (hreceive : ∀ c₁, Emptied c₁ c → ∃ c₂, Emptied c₂ d ∧
      c₁.receive (c.get Reg.bitFraming &&& 0x07) send = c₂.respond data lastBits) :
    ∃ c', Runs (transceive send) c (.ok ⟨data, validBits data.length (lastBits &&& 0x07).toNat⟩) c' ∧
      AlikeBut workingRegs c' d := by
  obtain ⟨c₁, hsent, hruns⟩ := runs_transceive h hheard send
  obtain ⟨c₂, hempty, hanswer⟩ := hreceive c₁ hsent
  rw [hanswer] at hruns
  let c₃ := ({ c₂ with fifo := c₂.fifo ++ data } : SimChip).set Reg.control lastBits
  have hfifo : (c₂.respond data lastBits).fifo = data := by
    show c₂.fifo ++ data = data
    rw [hempty.fifo, List.nil_append]
  have hcontrol : (c₂.respond data lastBits).get Reg.control = lastBits :=
    (SimChip.get_set_of_ne c₃ (by decide) _).trans (SimChip.get_set_self _ _ _)
  have herror : (c₂.respond data lastBits).get Reg.error = 0 :=
    (SimChip.get_set_of_ne c₃ (by decide) _).trans <|
      (SimChip.get_set_of_ne _ (by decide) _).trans hempty.error
  have hbroken : (c₂.respond data lastBits).broken = false := hempty.broken.trans hd
  have hflag : (c₂.respond data lastBits).get Reg.comIrq &&&
      (waitMask ReaderCommand.transceive ||| 0x01) ≠ 0 :=
    SimChip.raise_and_ne_zero c₃ (by decide) (by decide)
  obtain ⟨c', hend, hafter⟩ := runs_conclude hbroken hflag herror (hfifo.symm ▸ hlen)
  rw [if_pos rfl, hfifo, hcontrol] at hend
  have halike : AlikeBut workingRegs (c₂.respond data lastBits) c₂ :=
    (SimChip.alikeBut_set (by decide) c₃ _).trans <| (SimChip.alikeBut_set (by decide) _ _).trans <|
      SimChip.alikeBut_fifo _ c₂ _
  exact ⟨c', hruns _ _ hend, hafter.trans (halike.trans hempty.toAlikeBut)⟩

/-- **A frame that nobody answers**: nothing is received. -/
theorem runs_transceive_silence (h : c.broken = false) (hheard : c.Heard) (send : Bytes)
    (hreceive : ∀ c₁, Emptied c₁ c →
      c₁.receive (c.get Reg.bitFraming &&& 0x07) send = c₁.silence) :
    ∃ c', Runs (transceive send) c (.ok ⟨[], 0⟩) c' ∧ AlikeBut workingRegs c' c := by
  obtain ⟨c₁, hempty, hruns⟩ := runs_transceive h hheard send
  rw [hreceive c₁ hempty] at hruns
  let c₂ := c₁.set Reg.control 0
  have hcontrol : c₁.silence.get Reg.control = 0 :=
    (SimChip.get_set_of_ne c₂ (by decide) _).trans (SimChip.get_set_self _ _ _)
  have herror : c₁.silence.get Reg.error = 0 :=
    (SimChip.get_set_of_ne c₂ (by decide) _).trans <|
      (SimChip.get_set_of_ne c₁ (by decide) _).trans hempty.error
  have hbroken : c₁.silence.broken = false := hempty.broken.trans h
  have hfifo : c₁.silence.fifo = [] := hempty.fifo
  have hflag : c₁.silence.get Reg.comIrq &&& (waitMask ReaderCommand.transceive ||| 0x01) ≠ 0 :=
    SimChip.raise_and_ne_zero c₂ (by decide) (by decide)
  obtain ⟨c', hend, hafter⟩ := runs_conclude hbroken hflag herror (by rw [hfifo]; exact Nat.zero_le _)
  rw [if_pos rfl, hfifo, hcontrol] at hend
  have halike : AlikeBut workingRegs c₁.silence c₁ :=
    (SimChip.alikeBut_set (by decide) c₂ _).trans (SimChip.alikeBut_set (by decide) c₁ _)
  exact ⟨c', hruns _ _ hend, hafter.trans (halike.trans hempty.toAlikeBut)⟩

end Operation

namespace SimChip

variable {c : SimChip}

/-- Whether the card before a chip is selected, has an identifier and accepts a key. -/
def Opens (c : SimChip) (kind : KeyKind) (uid : Uid) : Prop :=
  ∃ card, c.card = some card ∧ c.selected = true ∧ accepts card kind = true ∧ card.uid = uid

instance (c : SimChip) (kind : KeyKind) (uid : Uid) : Decidable (c.Opens kind uid) :=
  decidable_of_iff
    (c.card.any fun card => c.selected && accepts card kind && decide (card.uid = uid)) <| by
      simp only [Option.any_eq_true, Bool.and_eq_true, decide_eq_true_eq, and_assoc, Opens]

theorem uid_eq_of_bytes {u v : Uid} (h : u.bytes = v.bytes) : u = v := by
  cases u
  cases v
  simp only [Uid.bytes, List.cons.injEq, and_true] at h
  obtain ⟨h0, h1, h2, h3⟩ := h
  rw [h0, h1, h2, h3]

/-- The check of the factory key, in closed form: it is noted, and opens a session or does not. -/
theorem checkKey_eq (c : SimChip) (kind : KeyKind) (block : UInt8) (uid : Uid) :
    c.checkKey ([kind.command, block] ++ factoryKey ++ uid.bytes) =
      if c.Opens kind uid then { c with attempts := kind :: c.attempts }.raise Reg.status2 0x08
      else { c with attempts := kind :: c.attempts } := by
  have hkind : keyOf? kind.command = some kind := by cases kind <;> decide
  have hlength : ([kind.command, block] ++ factoryKey ++ uid.bytes).length = 12 := rfl
  have hhead : ([kind.command, block] ++ factoryKey ++ uid.bytes).head? = some kind.command := rfl
  have hkey : (([kind.command, block] ++ factoryKey ++ uid.bytes).drop 2).take 6 = factoryKey := rfl
  have huid : ([kind.command, block] ++ factoryKey ++ uid.bytes).drop 8 = uid.bytes := rfl
  unfold checkKey
  rw [if_neg (not_not_intro hlength), hhead, Option.bind_some, hkind, hkey, huid]
  dsimp only
  cases hcard : c.card with
  | none =>
    have hshut : ¬ c.Opens kind uid := by
      rintro ⟨card, hsome, -⟩
      rw [hcard] at hsome
      cases hsome
    rw [if_neg hshut]
  | some card =>
    have hiff : c.Opens kind uid ↔
        c.selected = true ∧ factoryKey = factoryKey ∧ accepts card kind = true ∧ uid.bytes = card.uid.bytes := by
      constructor
      · rintro ⟨card', hsome, hselected, haccepts, rfl⟩
        rw [hcard] at hsome
        cases hsome
        exact ⟨hselected, rfl, haccepts, rfl⟩
      · rintro ⟨hselected, -, haccepts, hbytes⟩
        exact ⟨card, hcard, hselected, haccepts, (uid_eq_of_bytes hbytes).symm⟩
    by_cases hopens : c.Opens kind uid
    · rw [if_pos hopens]
      exact if_pos (hiff.1 hopens)
    · rw [if_neg hopens]
      exact if_neg fun hand => hopens (hiff.2 hand)

theorem cryptoOn_raise (c : SimChip) : (c.raise Reg.status2 0x08).cryptoOn = true :=
  decide_eq_true (raise_and_ne_zero c (by decide) (by decide))

/-- A check of the factory key leaves the buffer alone, and ends no session. -/
theorem checkKey_alike (c : SimChip) (kind : KeyKind) (block : UInt8) (uid : Uid) :
    let c' := c.checkKey ([kind.command, block] ++ factoryKey ++ uid.bytes)
    c'.fifo = c.fifo ∧ AlikeBut [Reg.status2] c' c ∧
      c'.cryptoOn = (c.cryptoOn || decide (c.Opens kind uid)) := by
  have halike := c.alikeBut_checkKey ([kind.command, block] ++ factoryKey ++ uid.bytes)
  dsimp only
  rw [checkKey_eq] at halike ⊢
  by_cases hopens : c.Opens kind uid
  · rw [if_pos hopens] at halike ⊢
    rw [decide_eq_true hopens, Bool.or_true]
    exact ⟨rfl, halike, cryptoOn_raise _⟩
  · rw [if_neg hopens] at halike ⊢
    rw [decide_eq_false hopens, Bool.or_false]
    exact ⟨rfl, halike, rfl⟩

end SimChip

namespace Operation

variable {c : SimChip}

open SimChip (AlikeBut)

/-- The exchange in which a key is checked always succeeds. -/
theorem runs_checkKey (h : c.broken = false) (hfaults : c.faults = []) (kind : KeyKind) (block : UInt8)
    (uid : Uid) :
    ∃ c', Runs (communicate ReaderCommand.authenticate
        ([kind.command, block] ++ factoryKey ++ uid.bytes)) c (.ok ⟨[], 0⟩) c' ∧
      c'.cryptoOn = (c.cryptoOn || decide (c.Opens kind uid)) ∧
      AlikeBut (Reg.status2 :: workingRegs) c' c := by
  obtain ⟨c₁, hprepare, hload, halike⟩ :=
    runs_prepare h ReaderCommand.authenticate ([kind.command, block] ++ factoryKey ++ uid.bytes)
  -- the chip with the payload taken out of its buffer, and the key checked
  let c₂ := c₁.set Reg.command ReaderCommand.authenticate
  let c₃ := ({ c₂ with fifo := [] } : SimChip).set Reg.error 0
  let c₄ := c₃.raise Reg.comIrq 0x10
  let c₅ := c₄.checkKey ([kind.command, block] ++ factoryKey ++ uid.bytes)
  have hempty : Emptied c₃ c := emptied_of_alikeBut <|
    (SimChip.alikeBut_set (by decide) c₁ _).trans (halike.mono (by decide))
  have hlike₄ : AlikeBut workingRegs c₄ c :=
    (SimChip.alikeBut_set (by decide) c₃ _).trans hempty.toAlikeBut
  have hstart : Runs (writeReg Reg.command ReaderCommand.authenticate) c₁ (.ok ()) c₅ := by
    have hwrite : c₁.write Reg.command ReaderCommand.authenticate = c₂.authenticate := rfl
    have hfaults₂ : c₂.faults = [] := halike.faults.trans hfaults
    have hfifo : c₂.fifo = [kind.command, block] ++ factoryKey ++ uid.bytes := hload
    have hruns := runs_writeReg (halike.broken.trans h) Reg.command ReaderCommand.authenticate
    rwa [hwrite, authenticate_of_none hfaults₂, hfifo] at hruns
  obtain ⟨hfifo, hlike₅, hcrypto⟩ := c₄.checkKey_alike kind block uid
  have hbroken : c₅.broken = false := hlike₅.broken.trans (hlike₄.broken.trans h)
  have hflag : c₅.get Reg.comIrq &&& (waitMask ReaderCommand.authenticate ||| 0x01) ≠ 0 := by
    rw [hlike₅.kept _ (by decide)]
    exact SimChip.raise_and_ne_zero c₃ (by decide) (by decide)
  have herror : c₅.get Reg.error = 0 :=
    (hlike₅.kept _ (by decide)).trans <| (SimChip.get_set_of_ne c₃ (by decide) _).trans hempty.error
  have hlen : c₅.fifo.length ≤ fifoCapacity := by
    rw [hfifo.trans hempty.fifo]
    exact Nat.zero_le _
  obtain ⟨c', hend, hafter⟩ := runs_conclude hbroken hflag herror hlen
  have hopens : c₄.Opens kind uid ↔ c.Opens kind uid := by
    rw [SimChip.Opens, SimChip.Opens, hlike₄.card, hlike₄.selected]
  refine ⟨c', ?_, ?_, ?_⟩
  · rw [communicate_eq]
    exact hprepare.bind (hstart.bind ((runs_pure ()).bind hend))
  · rw [hafter.cryptoOn, hcrypto, hlike₄.cryptoOn, decide_eq_decide.2 hopens]
  · exact (hafter.mono (List.subset_cons_self _ _)).trans <| (hlike₅.mono (by simp)).trans
      (hlike₄.mono (List.subset_cons_self _ _))

/-- **A key opens a session** if the card is selected and accepts it, and nothing else does. A session
that is open stays so, and any key will do then. -/
theorem runs_authenticate (h : c.broken = false) (hfaults : c.faults = []) (kind : KeyKind)
    (block : UInt8) (uid : Uid) :
    ∃ c', Runs (authenticate kind block factoryKey uid) c
        (if c.cryptoOn = true ∨ c.Opens kind uid then .ok () else .error .authFailed) c' ∧
      c'.cryptoOn = (c.cryptoOn || decide (c.Opens kind uid)) ∧
      AlikeBut (Reg.status2 :: workingRegs) c' c := by
  obtain ⟨c', hexchange, hstatus, halike⟩ := runs_checkKey h hfaults kind block uid
  have hread := runs_readStored (halike.broken.trans h) Reg.status2 (by decide)
  have hsession : c'.cryptoOn = true ↔ c.cryptoOn = true ∨ c.Opens kind uid := by
    rw [hstatus, Bool.or_eq_true, decide_eq_true_eq]
  refine ⟨c', hexchange.bind (hread.bind ?_), hstatus, halike⟩
  by_cases hopen : c.cryptoOn = true ∨ c.Opens kind uid
  · have hset : ¬ c'.get Reg.status2 &&& 0x08 = 0 := of_decide_eq_true (hsession.2 hopen)
    rw [if_pos hopen, if_neg hset]
    exact runs_pure ()
  · have hoff : c'.cryptoOn = false := Bool.eq_false_iff.2 fun hon => hopen (hsession.1 hon)
    have hclear : c'.get Reg.status2 &&& 0x08 = 0 := not_not.1 (of_decide_eq_false hoff)
    rw [if_neg hopen, if_pos hclear]
    exact (runs_note _).bind (runs_throw _)

end Operation

end Turnstile

import Turnstile.Proofs.Reader.Session
import Turnstile.Proofs.Simulation.Encounter

/-!
# Blocks of a simulated card

A block is read or written within a session that one of the keys has opened, and the session
is over at the end.

* `SimChip.Agrees`: the card will agree to have a block written.
* `runs_authenticateDefault`: whether a key opens a session.
* `runs_readOpen`, `runs_writeOpen`: within the session the card gives a block, or takes it.
* `reader_refines_encounter`: **the operations on either reader of a field do what the steps
  do to the encounter**, and leave the other reader alone.
-/

namespace Turnstile

namespace SimChip

variable {c c' : SimChip}

theorem answerRead_of_none (hfaults : c.faults = []) (card : SimCard) (block : UInt8) :
    c.answerRead card block = c.respond (Checksum.close (card.blocks block)) 0 := by
  unfold answerRead
  rw [Operation.takeFault_of_none hfaults]

/-- Whether the card before a chip will agree to have a block written: it is there and hears of that, in
a session, and no refusal is to come. -/
structure Agrees (c : SimChip) : Prop extends Heard c where
  there : c.card.isSome = true
  session : c.cryptoOn = true
  willing : c.takeFault (· = .writeNak) = none

theorem AlikeBut.agrees (h : AlikeBut workingRegs c' c) (hc : c.Agrees) : c'.Agrees where
  toHeard := Operation.heard_congr h.faults hc.toHeard
  there := h.card ▸ hc.there
  session := h.cryptoOn.trans hc.session
  willing := Operation.takeFault_congr h.faults hc.willing

theorem Sound.agrees (hc : c.Sound) (hcrypto : c.cryptoOn = true) {card : SimCard}
    (hcard : c.card = some card) : c.Agrees :=
  ⟨Operation.heard_of_none hc.faults, hcard ▸ rfl, hcrypto, Operation.takeFault_of_none hc.faults _⟩

theorem answerWrite_of_willing (hwilling : c.takeFault (· = .writeNak) = none) (block : UInt8) :
    c.answerWrite block = { c with awaiting := some block }.respond [0x0A] 4 := by
  unfold answerWrite
  rw [hwilling]

/-- Sixteen octets with their checksum are taken for the block that is awaited. -/
theorem answerData_close (c : SimChip) (card : SimCard) (block : UInt8) {data : Bytes}
    (hdata : data.length = blockSize) :
    c.answerData card block (Checksum.close data) =
      { c with card := some (card.setBlock block data) }.respond [0x0A] 4 := by
  have hlength : (Checksum.close data).length = blockSize + 2 := by
    rw [Checksum.length_close, hdata]
  have htake : (Checksum.close data).take blockSize = data := by
    rw [← hdata, Checksum.take_close]
  unfold answerData
  rw [if_pos ⟨hlength, Checksum.closes_close data⟩, htake]

/-- The session ends, and that is all. -/
theorem cryptoOn_clear (c : SimChip) :
    (c.set Reg.status2 (c.get Reg.status2 &&& ~~~0x08)).cryptoOn = false := by
  have hclear : ∀ v : UInt8, v &&& ~~~0x08 &&& 0x08 = 0 :=
    octet_forall (p := fun v => v &&& ~~~0x08 &&& 0x08 = 0) (by decide +kernel)
  rw [cryptoOn, get_set_self, hclear]
  rfl

end SimChip

namespace Operation

open SimChip (AlikeBut Sound Undisturbed)

variable {α σ : Type} {c : SimChip}

/-! ## The session -/

section Keys

variable [RegisterBus σ] {s s' s'' : σ} {block : UInt8} {uid : Uid}

theorem Runs.firstKey (ha : Runs (authenticate .a block factoryKey uid) s (.ok ()) s') :
    Runs (authenticateDefault block uid) s (.ok ()) s' := by
  intro role
  have hkey : ((authenticate .a block factoryKey uid).run.run role s).1 = .ok () ∧
      ((authenticate .a block factoryKey uid).run.run role s).2.1 = s' := ha role
  simp only [perform, authenticateDefault, ExceptT.run_mk, Script.bind_eq, Script.run_bind]
  rw [hkey.1, hkey.2]
  exact ⟨rfl, rfl⟩

theorem Runs.secondKey {r : Except CardError Unit}
    (ha : Runs (authenticate .a block factoryKey uid) s (.error .authFailed) s')
    (hr : r = .ok () ∨ r = .error .authFailed)
    (hb : Runs (authenticate .b block factoryKey uid) s' r s'') :
    Runs (authenticateDefault block uid) s r s'' := by
  intro role
  have hkey : ((authenticate .a block factoryKey uid).run.run role s).1 = .error .authFailed ∧
      ((authenticate .a block factoryKey uid).run.run role s).2.1 = s' := ha role
  have hother : ((authenticate .b block factoryKey uid).run.run role s').1 = r ∧
      ((authenticate .b block factoryKey uid).run.run role s').2.1 = s'' := hb role
  simp only [perform, authenticateDefault, ExceptT.run_mk, Script.bind_eq, Script.run_bind]
  rw [hkey.1, hkey.2]
  simp only [Script.run_bind]
  rw [hother.1, hother.2]
  rcases hr with rfl | rfl <;> exact ⟨rfl, rfl⟩

end Keys

/-- **One of the keys opens a session** for a card that can be read and written, and none does
for another. A session that is open is taken for the one that was asked for. -/
theorem runs_authenticateDefault (hc : c.Sound) (block : UInt8) (uid : Uid) :
    ∃ c', Runs (authenticateDefault block uid) c
        (if c.cryptoOn || (c.encounter.open? uid).isSome then .ok () else .error .authFailed) c' ∧
      c'.cryptoOn = (c.cryptoOn || (c.encounter.open? uid).isSome) ∧
      AlikeBut (Reg.status2 :: workingRegs) c' c := by
  obtain ⟨c₁, hfirst, hon, hlike⟩ := runs_authenticate hc.broken hc.faults .a block uid
  have hopen := SimChip.open?_isSome_iff (c := c) uid
  by_cases ha : c.cryptoOn = true ∨ c.Opens .a uid
  · have hsession : (c.cryptoOn || (c.encounter.open? uid).isSome) = true := by
      rw [Bool.or_eq_true, hopen]
      exact ha.imp_right .inl
    have hon₁ : c₁.cryptoOn = true := by
      rw [hon, Bool.or_eq_true, decide_eq_true_eq]
      exact ha
    rw [if_pos ha] at hfirst
    rw [hsession]
    exact ⟨c₁, hfirst.firstKey, hon₁, hlike⟩
  · obtain ⟨hoff, hshut⟩ := not_or.1 ha
    have hoff : c.cryptoOn = false := Bool.eq_false_iff.2 hoff
    rw [if_neg ha] at hfirst
    rw [hoff, decide_eq_false hshut, Bool.or_false] at hon
    have hopens : c₁.Opens .b uid ↔ (c.encounter.open? uid).isSome = true := by
      rw [hopen, or_iff_right hshut, SimChip.Opens, SimChip.Opens, hlike.card, hlike.selected]
    obtain ⟨c', hsecond, hon', hlike'⟩ :=
      runs_authenticate (hlike.broken.trans hc.broken) (hlike.faults.trans hc.faults) .b block uid
    simp only [hon, Bool.false_eq_true, false_or, Bool.false_or, hopens, Bool.decide_eq_true] at hsecond hon'
    rw [hoff, Bool.false_or]
    refine ⟨c', ?_, hon', hlike'.trans hlike⟩
    cases hfound : (c.encounter.open? uid).isSome with
    | true =>
      rw [hfound] at hsecond
      exact hfirst.secondKey (.inl rfl) hsecond
    | false =>
      rw [hfound] at hsecond
      exact hfirst.secondKey (.inr rfl) hsecond

theorem runs_stopCrypto (h : c.broken = false) :
    ∃ c', Runs stopCrypto c (.ok ()) c' ∧ c'.cryptoOn = false ∧ AlikeBut [Reg.status2] c' c :=
  ⟨_, runs_clearBits h Reg.status2 (by decide) 0x08, c.cryptoOn_clear,
    SimChip.alikeBut_set (by decide) c _⟩

/-! ## The block -/

/-- **Within a session the card gives a block.** -/
theorem runs_readOpen (hc : c.Sound) (hcrypto : c.cryptoOn = true) {card : SimCard}
    (hcard : c.card = some card) (block : UInt8) :
    ∃ c', Runs (readOpen block) c (.ok (card.blocks block)) c' ∧ AlikeBut workingRegs c' c := by
  obtain ⟨c₁, hclosed, hlike⟩ := runs_closed hc.broken [CardCommand.read, block]
  have hc₁ : c₁.Sound := hlike.sound hc
  have hlength : (card.blocks block).length = 16 := hc.blocks card hcard block
  have hframe : (Checksum.close (card.blocks block)).length = 18 := by
    rw [Checksum.length_close, hlength]
  have hanswer : ∀ c₂, Emptied c₂ c₁ → ∃ c₃, Emptied c₃ c₁ ∧
      c₂.answer card (c₁.get Reg.bitFraming &&& 0x07) (Checksum.close [CardCommand.read, block]) =
        c₃.respond (Checksum.close (card.blocks block)) 0 := by
    intro c₂ h
    have hon : c₂.cryptoOn = true := h.cryptoOn.trans (hlike.cryptoOn.trans hcrypto)
    rw [SimChip.answer_block hon, if_pos rfl, SimChip.answerRead_of_none (h.sound hc₁).faults]
    exact ⟨c₂, h, rfl⟩
  obtain ⟨c', hruns, hafter⟩ := runs_transceive_answer hc₁ (hlike.card.trans hcard) _ _ _
    (by rw [hframe]; decide) hc₁.broken hanswer
  rw [hframe] at hruns
  refine ⟨c', hclosed.bind (hruns.bind ?_), hafter.trans hlike⟩
  -- a hundred and forty-four bits, of which the last sixteen are the checksum
  have hwhole : ¬ (validBits 18 ((0 : UInt8) &&& 0x07).toNat - 16 ≠ blockSize * 8 ∨
      (Checksum.close (card.blocks block)).length < blockSize) := by
    rw [hframe]
    decide
  have htake : (Checksum.close (card.blocks block)).take blockSize = card.blocks block := by
    rw [← hc.blocks card hcard block, Checksum.take_close]
  rw [if_neg hwhole, htake]
  exact (runs_pure _).bind (runs_pure _)

theorem runs_expectAck (c : SimChip) :
    Runs (expectAck ⟨[0x0A], validBits 1 ((4 : UInt8) &&& 0x07).toNat⟩) c (.ok ()) c :=
  runs_pure ()

/-- A card that agrees to a block awaits the data for it, and nothing else has changed. -/
theorem runs_submit_agreed (h : c.broken = false) (hawaiting : c.awaiting = none) (hagrees : c.Agrees)
    (block : UInt8) :
    ∃ c', Runs (submit [CardCommand.write, block]) c (.ok ()) c' ∧
      AlikeBut workingRegs c' { c with awaiting := some block } := by
  obtain ⟨c₁, hclosed, hlike⟩ := runs_closed h [CardCommand.write, block]
  have hagrees₁ : c₁.Agrees := hlike.agrees hagrees
  let d : SimChip := { c₁ with awaiting := some block }
  have hanswer : ∀ c₂, Emptied c₂ c₁ → ∃ c₃, Emptied c₃ d ∧
      c₂.receive (c₁.get Reg.bitFraming &&& 0x07) (Checksum.close [CardCommand.write, block]) =
        c₃.respond [0x0A] 4 := by
    intro c₂ h₂
    have hagrees₂ : c₂.Agrees := h₂.agrees hagrees₁
    obtain ⟨card, hcard⟩ := Option.isSome_iff_exists.1 hagrees₂.there
    have hnone : c₂.awaiting = none := (h₂.awaiting.trans hlike.awaiting).trans hawaiting
    rw [SimChip.receive_some hcard hnone, SimChip.answer_block hagrees₂.session, if_neg (by decide),
      if_pos rfl, SimChip.answerWrite_of_willing hagrees₂.willing]
    exact ⟨{ c₂ with awaiting := some block },
      ⟨⟨h₂.card, h₂.faults, h₂.selected, rfl, h₂.broken, h₂.kept⟩, h₂.fifo, h₂.error⟩, rfl⟩
  have hbroken : c₁.broken = false := hlike.broken.trans h
  obtain ⟨c', hruns, hlike'⟩ := runs_transceive_respond hbroken hagrees₁.toHeard _ _ _ (by decide)
    (d := d) hbroken hanswer
  exact ⟨c', hclosed.bind (hruns.bind (runs_expectAck c')), hlike'.trans
    ⟨hlike.card, hlike.faults, hlike.selected, rfl, hlike.broken, hlike.kept⟩⟩

/-- A card that awaits the data for a block takes them. -/
theorem runs_submit_data (h : c.broken = false) (hheard : c.Heard) {card : SimCard}
    (hcard : c.card = some card) {block : UInt8} (hawaiting : c.awaiting = some block) {data : Bytes}
    (hdata : data.length = blockSize) :
    ∃ c', Runs (submit data) c (.ok ()) c' ∧
      AlikeBut workingRegs c' { c with awaiting := none, card := some (card.setBlock block data) } := by
  obtain ⟨c₁, hclosed, hlike⟩ := runs_closed h data
  let d : SimChip := { c₁ with awaiting := none, card := some (card.setBlock block data) }
  have htaken : ∀ c₂, Emptied c₂ c₁ → ∃ c₃, Emptied c₃ d ∧
      c₂.receive (c₁.get Reg.bitFraming &&& 0x07) (Checksum.close data) = c₃.respond [0x0A] 4 := by
    intro c₂ h₂
    have hthere : c₂.card = some card := (h₂.card.trans hlike.card).trans hcard
    have hawaits : c₂.awaiting = some block := (h₂.awaiting.trans hlike.awaiting).trans hawaiting
    rw [SimChip.receive, hthere, hawaits]
    dsimp only
    rw [SimChip.answerData_close _ _ _ hdata]
    exact ⟨{ c₂ with awaiting := none, card := some (card.setBlock block data) },
      ⟨⟨rfl, h₂.faults, h₂.selected, rfl, h₂.broken, h₂.kept⟩, h₂.fifo, h₂.error⟩, rfl⟩
  have hbroken : c₁.broken = false := hlike.broken.trans h
  obtain ⟨c', hruns, hlike'⟩ := runs_transceive_respond hbroken (heard_congr hlike.faults hheard) _ _ _
    (by decide) (d := d) hbroken htaken
  exact ⟨c', hclosed.bind (hruns.bind (runs_expectAck c')), hlike'.trans
    ⟨rfl, hlike.faults, hlike.selected, rfl, hlike.broken, hlike.kept⟩⟩

/-- **A card that agrees takes a block**, and awaits nothing afterwards. -/
theorem runs_writeOpen (h : c.broken = false) (hawaiting : c.awaiting = none) (hagrees : c.Agrees)
    {card : SimCard} (hcard : c.card = some card) (block : UInt8) {data : Bytes}
    (hdata : data.length = blockSize) :
    ∃ c', Runs (writeOpen block data) c (.ok ()) c' ∧
      AlikeBut workingRegs c' { c with card := some (card.setBlock block data) } := by
  obtain ⟨c₁, hfirst, hlike₁⟩ := runs_submit_agreed h hawaiting hagrees block
  have hheard : c₁.Heard := heard_congr (c := c) hlike₁.faults hagrees.toHeard
  obtain ⟨c', hsecond, hlike'⟩ := runs_submit_data (hlike₁.broken.trans h) hheard
    (hlike₁.card.trans hcard) hlike₁.awaiting hdata
  rw [writeOpen_eq]
  exact ⟨c', hfirst.bind hsecond, hlike'.trans
    ⟨rfl, hlike₁.faults, hlike₁.selected, hawaiting.symm, hlike₁.broken, hlike₁.kept⟩⟩

/-! ## The operations -/

/-- **A block is read** of a card that can be read, whether a session is open at the start or not. -/
theorem runs_readBlock (hc : c.Sound) {card : SimCard} {uid : Uid}
    (hopen : c.encounter.open? uid = some card) (block : UInt8) :
    ∃ c', Runs (readBlock block uid) c (.ok (card.blocks block)) c' ∧ c'.encounter = c.encounter ∧
      c'.Undisturbed := by
  obtain ⟨c₁, hkey, hon, hlike⟩ := runs_authenticateDefault hc block uid
  rw [hopen, Option.isSome_some, Bool.or_true] at hkey hon
  have hc₁ : c₁.Sound := hlike.sound hc
  have hcard : c.card = some card := (Option.filter_eq_some_iff.1 hopen).1
  obtain ⟨c₂, hread, hlike₂⟩ := runs_readOpen hc₁ hon (hlike.card.trans hcard) block
  obtain ⟨c', hstop, hoff, hafter⟩ := runs_stopCrypto (hlike₂.broken.trans hc₁.broken)
  exact ⟨c', (hkey.bind hread).closing hstop,
    hafter.encounter.trans (hlike₂.encounter.trans hlike.encounter),
    hafter.sound (hlike₂.sound hc₁), hoff⟩

theorem refines_readBlock (block : UInt8) (uid : Uid) :
    Refines (readBlock block uid) (Encounter.readBlock block uid) := by
  intro c hc
  cases hopen : c.encounter.open? uid with
  | none =>
    have hstep : Encounter.readBlock block uid c.encounter = (.error .authFailed, c.encounter) := by
      rw [Encounter.readBlock, hopen]
    obtain ⟨c₁, hkey, -, hlike⟩ := runs_authenticateDefault hc.toSound block uid
    rw [hopen, hc.session] at hkey
    have hc₁ : c₁.Sound := hlike.sound hc.toSound
    obtain ⟨c', hstop, hoff, hafter⟩ := runs_stopCrypto hc₁.broken
    rw [hstep]
    exact ⟨c', hkey.fail.closing hstop, hafter.encounter.trans hlike.encounter,
      hafter.sound hc₁, hoff⟩
  | some card =>
    have hstep : Encounter.readBlock block uid c.encounter = (.ok (card.blocks block), c.encounter) := by
      rw [Encounter.readBlock, hopen]
    rw [hstep]
    exact runs_readBlock hc.toSound hopen block

theorem setBlock_eq (card : SimCard) (block : UInt8) (data : Bytes) :
    card.setBlock block data = { card with blocks := Function.update card.blocks block data } := by
  have hblocks : (card.setBlock block data).blocks = Function.update card.blocks block data := by
    funext b
    rw [SimCard.blocks_setBlock, Function.update_apply]
  rw [← hblocks]
  rfl

theorem wellFormed_setBlock {card : SimCard} (h : card.WellFormed) (block : UInt8) {data : Bytes}
    (hdata : data.length = blockSize) : (card.setBlock block data).WellFormed := by
  intro b
  rw [SimCard.blocks_setBlock]
  split
  · exact hdata
  · exact h b

/-- **A block is written** on a card that can be written, whether a session is open at the start or
not. -/
theorem runs_writeBlock (hc : c.Sound) {card : SimCard} {uid : Uid}
    (hopen : c.encounter.open? uid = some card) (block : UInt8) {data : Bytes}
    (hdata : data.length = blockSize) :
    ∃ c', Runs (writeBlock block uid data) c (.ok ()) c' ∧
      c'.encounter = ⟨some (card.setBlock block data), c.selected⟩ ∧ c'.Undisturbed := by
  obtain ⟨c₁, hkey, hon, hlike⟩ := runs_authenticateDefault hc block uid
  rw [hopen, Option.isSome_some, Bool.or_true] at hkey hon
  have hc₁ : c₁.Sound := hlike.sound hc
  have hcard : c.card = some card := (Option.filter_eq_some_iff.1 hopen).1
  obtain ⟨c₂, hwrite, hlike₂⟩ := runs_writeOpen hc₁.broken hc₁.awaiting
    (hc₁.agrees hon (hlike.card.trans hcard)) (hlike.card.trans hcard) block hdata
  let d : SimChip := { c₁ with card := some (card.setBlock block data) }
  have hd : d.Sound := by
    refine ⟨hc₁.broken, hc₁.faults, hc₁.awaiting, fun written hwritten => ?_⟩
    cases hwritten
    exact wellFormed_setBlock (hc.blocks card hcard) block hdata
  have hencounter : d.encounter = ⟨some (card.setBlock block data), c.selected⟩ := by
    show (⟨_, c₁.selected⟩ : Encounter) = _
    rw [hlike.selected]
  obtain ⟨c', hstop, hoff, hafter⟩ := runs_stopCrypto (hlike₂.broken.trans hc₁.broken)
  exact ⟨c', (hkey.bind hwrite).closing hstop,
    hafter.encounter.trans (hlike₂.encounter.trans hencounter),
    hafter.sound (hlike₂.sound hd), hoff⟩

theorem refines_writeBlock (block : UInt8) (uid : Uid) {data : Bytes} (hdata : data.length = blockSize) :
    Refines (writeBlock block uid data) (Encounter.writeBlock block uid data) := by
  intro c hc
  cases hopen : c.encounter.open? uid with
  | none =>
    have hstep : Encounter.writeBlock block uid data c.encounter =
        (.error .authFailed, c.encounter) := by
      rw [Encounter.writeBlock, hopen]
    obtain ⟨c₁, hkey, -, hlike⟩ := runs_authenticateDefault hc.toSound block uid
    rw [hopen, hc.session] at hkey
    have hc₁ : c₁.Sound := hlike.sound hc.toSound
    obtain ⟨c', hstop, hoff, hafter⟩ := runs_stopCrypto hc₁.broken
    rw [hstep]
    exact ⟨c', hkey.fail.closing hstop, hafter.encounter.trans hlike.encounter,
      hafter.sound hc₁, hoff⟩
  | some card =>
    have hstep : Encounter.writeBlock block uid data c.encounter =
        (.ok (), ⟨some (card.setBlock block data), c.selected⟩) := by
      rw [Encounter.writeBlock, hopen, setBlock_eq]
      rfl
    rw [hstep]
    exact runs_writeBlock hc.toSound hopen block hdata

/-- Whether an operation on one reader of a field does what a step does to the encounter there,
leaves that reader undisturbed, and does not touch the other. -/
def Plays (op : Operation α) (step : Encounter → Except CardError α × Encounter) (role : Role)
    (f : Field) : Prop :=
  let e := (f.get role).encounter
  let f' := (op.perform role f).2.1
  (op.perform role f).1 = (step e).1 ∧ (f'.get role).encounter = (step e).2 ∧
    (f'.get role).Undisturbed ∧ ∀ other, other ≠ role → f'.get other = f.get other

theorem Refines.plays {op : Operation α} {step : Encounter → Except CardError α × Encounter}
    (h : Refines op step) {role : Role} {f : Field} (hf : (f.get role).Undisturbed) :
    Plays op step role f := by
  obtain ⟨c', hruns, hencounter, hafter⟩ := h (f.get role) hf
  have hfield := perform_field op role f
  have hchip : ((op.perform role f).2.1).get role = c' := by
    rw [hfield]
    exact (Sides.get_set_self ..).trans (hruns role).2
  refine ⟨?_, ?_, ?_, ?_⟩
  · rw [hfield]
    exact (hruns role).1
  · rw [hchip]
    exact hencounter
  · rw [hchip]
    exact hafter
  · intro other hother
    rw [hfield]
    exact Sides.get_set_of_ne _ hother _

end Operation

/-- **The operations refine the card**: on either reader of a field, whatever its buffer and its
registers hold, each does to the card what the step of that name does to the encounter. -/
theorem reader_refines_encounter (f : Field) (role : Role) (h : (f.get role).Undisturbed)
    (block : UInt8) (uid : Uid) (data : Bytes) (hdata : data.length = blockSize) :
    Operation.Plays Operation.request Encounter.request role f ∧
      Operation.Plays Operation.anticollision Encounter.anticollision role f ∧
      Operation.Plays (Operation.select uid) (Encounter.select uid) role f ∧
      Operation.Plays (Operation.readBlock block uid) (Encounter.readBlock block uid) role f ∧
      Operation.Plays (Operation.writeBlock block uid data) (Encounter.writeBlock block uid data)
        role f :=
  ⟨Operation.refines_request.plays h, Operation.refines_anticollision.plays h,
    (Operation.refines_select uid).plays h, (Operation.refines_readBlock block uid).plays h,
    (Operation.refines_writeBlock block uid hdata).plays h⟩

/-- A field with a selected card at the entry, where an exchange was broken off: octets are left in
the buffer, and flags, error bits and framing in the registers. -/
def staleField : Field :=
  Field.new.set .entry {
    regs := ((Registers.powerOn.set Reg.comIrq 0x31).set Reg.error 0x1B).set Reg.bitFraming 0x87
    fifo := [0x30, 0x08, 0x4A]
    card := some { uid := ⟨0xDE, 0xAD, 0xBE, 0xEF⟩, acceptsA := false }
    selected := true }

theorem undisturbed_staleField : (staleField.get .entry).Undisturbed where
  broken := rfl
  faults := rfl
  awaiting := rfl
  blocks := by
    intro card hcard block
    cases hcard
    rfl
  session := by decide

theorem reader_refines_encounter_stale :
    (staleField.get .entry).Undisturbed ∧ (UserText.encode "Ana").length = blockSize ∧
      Operation.Plays Operation.request Encounter.request .entry staleField ∧
      Operation.Plays Operation.anticollision Encounter.anticollision .entry staleField ∧
      Operation.Plays (Operation.select ⟨0xDE, 0xAD, 0xBE, 0xEF⟩)
        (Encounter.select ⟨0xDE, 0xAD, 0xBE, 0xEF⟩) .entry staleField ∧
      Operation.Plays (Operation.readBlock 8 ⟨0xDE, 0xAD, 0xBE, 0xEF⟩)
        (Encounter.readBlock 8 ⟨0xDE, 0xAD, 0xBE, 0xEF⟩) .entry staleField ∧
      Operation.Plays (Operation.writeBlock 8 ⟨0xDE, 0xAD, 0xBE, 0xEF⟩ (UserText.encode "Ana"))
        (Encounter.writeBlock 8 ⟨0xDE, 0xAD, 0xBE, 0xEF⟩ (UserText.encode "Ana")) .entry staleField :=
  have hdata : (UserText.encode "Ana").length = blockSize := by decide +kernel
  ⟨undisturbed_staleField, hdata, reader_refines_encounter staleField .entry undisturbed_staleField 8
    ⟨0xDE, 0xAD, 0xBE, 0xEF⟩ (UserText.encode "Ana") hdata⟩

end Turnstile

import Turnstile.Proofs.Simulation.Blocks
import Turnstile.Proofs.Simulation.Sessions

/-!
# A block is written as a whole or not at all

Whatever faults are to come, a write of a block leaves the card with that block replaced, and says so,
or leaves the card as it was, and fails. A fault strikes before the card has agreed to the block or not
at all: what could strike between the agreement and the data would have struck before.

* `Access.Contained`, `sameCard_runs`: nothing but a frame or a reset reaches the card.
* `refused_transmit`: a card that does not agree to a block stays as it was.
* `runs_writeOpen_atomic`: what comes of the two frames of a write.
* `write_block_atomic`: **all or nothing**, on either reader of a field.
-/

namespace Turnstile

/-! ## What does not reach the card -/

/-- Whether an access neither sends a frame nor resets the reader. -/
def Access.Contained : Access → Prop
  | .read _ _ => True
  | .write reg value _ => (reg = Reg.bitFraming → value &&& 0x80 = 0) ∧
    (reg = Reg.command → value &&& 0x0F ≠ ReaderCommand.softReset)

theorem Access.Routine.contained {a : Access} (h : a.Routine) : a.Contained := by
  cases a with
  | read reg r => trivial
  | write reg value o =>
    rcases h with hreg | ⟨rfl, -⟩ | ⟨rfl, hvalue⟩ | ⟨rfl, hvalue⟩
    · exact ⟨fun hframing => absurd hframing (ne_of_mem_of_not_mem hreg (by decide)),
        fun hcommand => absurd hcommand (ne_of_mem_of_not_mem hreg (by decide))⟩
    · exact ⟨nofun, nofun⟩
    · exact ⟨fun _ => hvalue, nofun⟩
    · refine ⟨nofun, fun _ => ?_⟩
      rcases hvalue with rfl | rfl <;> decide

/-- Whether the card before a chip is that before another, awaits the same, and the bus is as intact. -/
structure SimChip.SameCard (c' c : SimChip) : Prop where
  card : c'.card = c.card
  awaiting : c'.awaiting = c.awaiting
  broken : c'.broken = c.broken

namespace SimChip

variable {c c' c'' : SimChip} {reg value : UInt8} {regs : List UInt8}

theorem SameCard.trans (h' : SameCard c'' c') (h : SameCard c' c) : SameCard c'' c :=
  ⟨h'.card.trans h.card, h'.awaiting.trans h.awaiting, h'.broken.trans h.broken⟩

theorem AlikeBut.sameCard (h : AlikeBut regs c' c) : SameCard c' c :=
  ⟨h.card, h.awaiting, h.broken⟩

theorem sameCard_takeFault {kind : SimFault → Bool} {f : SimFault}
    (h : c.takeFault kind = some (f, c')) : SameCard c' c ∧ c'.fifo = c.fifo := by
  obtain ⟨-, faults, rfl⟩ := takeFault_some h
  exact ⟨⟨rfl, rfl, rfl⟩, rfl⟩

theorem sameCard_authenticate (c : SimChip) : SameCard c.authenticate c := by
  unfold authenticate
  dsimp only
  split
  · next h => exact (sameCard_takeFault h).1.trans ⟨rfl, rfl, rfl⟩
  · exact (alikeBut_checkKey ..).sameCard.trans ⟨rfl, rfl, rfl⟩

theorem sameCard_read (c : SimChip) (reg : UInt8) : SameCard (c.read reg).2 c := by
  unfold read
  split
  · split <;> exact ⟨rfl, rfl, rfl⟩
  · split <;> exact ⟨rfl, rfl, rfl⟩

/-- A contained write does not reach the card. -/
theorem sameCard_write {o : Except BusError Unit} (h : (Access.write reg value o).Contained) :
    SameCard (c.write reg value) c := by
  unfold write
  split
  · exact ⟨rfl, rfl, rfl⟩
  split
  · split <;> exact ⟨rfl, rfl, rfl⟩
  split
  · exact ⟨rfl, rfl, rfl⟩
  split
  · next hreg =>
    unfold startCommand
    rw [if_neg (h.2 hreg)]
    split
    · exact ⟨rfl, rfl, rfl⟩
    split
    · exact (sameCard_authenticate _).trans ⟨rfl, rfl, rfl⟩
    · exact ⟨rfl, rfl, rfl⟩
  split
  · next hreg =>
    dsimp only
    rw [if_neg fun hand => hand.1 (h.1 hreg)]
    exact ⟨rfl, rfl, rfl⟩
  · exact ⟨rfl, rfl, rfl⟩

end SimChip

namespace Operation

open SimChip (AlikeBut SameCard)

variable {α : Type} {c : SimChip}

theorem sameCard_runs {op : Operation α} (hop : Keeps Access.Contained op) {r : Except CardError α}
    {c' : SimChip} (h : Runs op c r c') : SameCard c' c := by
  rw [← (h .entry).2]
  refine perform_preserves (P := fun d => SameCard d c) ?_ ?_ hop ⟨rfl, rfl, rfl⟩
  · intro d reg hd
    simp only [RegisterBus.read]
    split
    · exact hd
    · exact (SimChip.sameCard_read d reg).trans hd
  · intro d reg value o ha hd
    simp only [RegisterBus.write]
    split
    · exact hd
    · exact (SimChip.sameCard_write ha).trans hd

theorem contained_authenticateDefault (block : UInt8) (uid : Uid) :
    Keeps Access.Contained (authenticateDefault block uid) := by
  refine keeps_authenticateDefault (fun _ => trivial) fun send =>
    keeps_mono (communicate_partOf ReaderCommand.authenticate send) fun a h => ?_
  rcases h with h | ⟨o, rfl⟩ | ⟨hsend, -⟩
  · exact h.contained
  · exact ⟨nofun, fun _ => by decide⟩
  · cases hsend

end Operation

/-! ## The two frames of a write -/

namespace SimChip

variable {c c' : SimChip}

/-- Whether a frame did nothing to the card, and what is in the buffer afterwards is no
acknowledgement. -/
structure Refused (c' c : SimChip) : Prop extends SameCard c' c where
  fifo : c'.fifo = [] ∨ c'.fifo = [0x04]

theorem Refused.trans_sameCard {c'' : SimChip} (h' : Refused c'' c') (h : SameCard c' c) :
    Refused c'' c :=
  ⟨h'.toSameCard.trans h, h'.fifo⟩

theorem refused_silence (hfifo : c.fifo = []) : Refused c.silence c :=
  ⟨⟨rfl, rfl, rfl⟩, .inl hfifo⟩

/-- A card that does not agree is silent or refuses. -/
theorem refused_answer (hheard : c.Heard) (hrefuses : ¬ c.Agrees) {card : SimCard}
    (hcard : c.card = some card) (hfifo : c.fifo = []) (lastBits block : UInt8) :
    Refused (c.answer card lastBits (Checksum.close [CardCommand.write, block])) c := by
  have hread : CardCommand.write ≠ CardCommand.read := by decide
  rw [answer_closed, if_neg fun hand => hread hand.1]
  split
  · next hwrite =>
    unfold answerWrite
    split
    · next d hnak =>
      obtain ⟨hsame, hempty⟩ := sameCard_takeFault hnak
      have hrespond : SameCard (d.respond [0x04] 4) d := ⟨rfl, rfl, rfl⟩
      have hbuffer : (d.respond [0x04] 4).fifo = [0x04] := by
        show d.fifo ++ [0x04] = [0x04]
        rw [hempty, hfifo]
        rfl
      exact ⟨hrespond.trans hsame, .inr hbuffer⟩
    · next hwilling => exact absurd ⟨hheard, hcard ▸ rfl, hwrite.2, hwilling⟩ hrefuses
  · exact refused_silence hfifo

/-- **A frame that asks for a block to be written is refused** unless the card agrees. -/
theorem refused_transmit (hrefuses : ¬ c.Agrees) (hawait : c.awaiting = none) {block : UInt8}
    (hfifo : c.fifo = Checksum.close [CardCommand.write, block]) (lastBits : UInt8) :
    Refused (c.transmit lastBits) c := by
  let d := ({ c with fifo := [] } : SimChip).set Reg.error 0
  have hlike : AlikeBut workingRegs d c :=
    (alikeBut_set (by decide) _ _).trans (alikeBut_fifo _ c [])
  suffices h : Refused (c.transmit lastBits) d from h.trans_sameCard hlike.sameCard
  unfold transmit
  dsimp only
  split
  · next d' hstall =>
    obtain ⟨hsame, hempty⟩ := sameCard_takeFault hstall
    exact ⟨hsame, .inl hempty⟩
  next hstall =>
  split
  · next bits d' hbits =>
    obtain ⟨hsame, hempty⟩ := sameCard_takeFault hbits
    have hraised : SameCard ((d'.set Reg.error bits).raise Reg.comIrq 0x32) d' := ⟨rfl, rfl, rfl⟩
    exact ⟨hraised.trans hsame, .inl hempty⟩
  next hbits =>
  -- no fault strikes, so the frame is left to the card
  have hheard : d.Heard := by
    refine ⟨hstall, ?_⟩
    refine Option.eq_none_iff_forall_ne_some.2 fun found hfound => ?_
    obtain ⟨f, d'⟩ := found
    cases f with
    | errorBits bits => exact hbits bits d' hfound
    | _ => cases (takeFault_some hfound).1
  rw [hfifo]
  cases hcard : d.card with
  | none =>
    have hsilent : d.receive lastBits (Checksum.close [CardCommand.write, block]) = d.silence := by
      rw [receive, hcard]
    rw [hsilent]
    exact refused_silence rfl
  | some card =>
    rw [receive_some hcard hawait]
    exact refused_answer hheard (fun hagrees => hrefuses (hlike.symm.agrees hagrees)) hcard rfl lastBits
      block

end SimChip

namespace Operation

open SimChip (AlikeBut SameCard)

variable {c : SimChip}

theorem not_isAck {frame : Frame} (h : frame.data = [] ∨ frame.data = [0x04]) : isAck frame = false := by
  obtain ⟨data, bits⟩ := frame
  rcases h with rfl | rfl
  · rfl
  · exact Bool.and_false _

/-- A card that does not agree to a block is as it was, and that is a failure. -/
theorem runs_submit_refused (h : c.broken = false) (hawaiting : c.awaiting = none)
    (hrefuses : ¬ c.Agrees) (block : UInt8) :
    ∃ e c', Runs (submit [CardCommand.write, block]) c (.error e) c' ∧ SameCard c' c := by
  obtain ⟨c₁, hclosed, hlike₁⟩ := runs_closed h [CardCommand.write, block]
  have hbroken₁ : c₁.broken = false := hlike₁.broken.trans h
  obtain ⟨c₂, hfifo, hlike₂, hsend⟩ := runs_send hbroken₁ (Checksum.close [CardCommand.write, block])
  have hlike : AlikeBut workingRegs c₂ c := hlike₂.trans hlike₁
  have hrefused := SimChip.refused_transmit (fun hagrees => hrefuses (hlike.symm.agrees hagrees))
    (hlike.awaiting.trans hawaiting) hfifo (c₁.get Reg.bitFraming &&& 0x07)
  have hshort : (c₂.transmit (c₁.get Reg.bitFraming &&& 0x07)).fifo.length ≤ fifoCapacity := by
    rcases hrefused.fifo with hempty | hempty <;> rw [hempty] <;> decide
  have hbroken₃ : (c₂.transmit (c₁.get Reg.bitFraming &&& 0x07)).broken = false :=
    hrefused.broken.trans (hlike.broken.trans h)
  obtain ⟨r, c', hconclude, hlike₃, hanswer⟩ := runs_conclude_fetched hbroken₃ hshort
  have hsame : SameCard c' c := hlike₃.sameCard.trans (hrefused.toSameCard.trans hlike.sameCard)
  have hexchange := hsend r c' hconclude
  cases r with
  | error e => exact ⟨e, c', hclosed.bind hexchange.fail, hsame⟩
  | ok frame =>
    have hack : isAck frame = false := not_isAck (hanswer frame rfl ▸ hrefused.fifo)
    refine ⟨.notAcknowledged, c', hclosed.bind (hexchange.bind ?_), hsame⟩
    rw [expectAck, hack]
    exact runs_throw _

/-- Whether a block was written as a whole and that was the outcome, or the card is as it was and the
outcome is an error; and no card awaits data. -/
structure AllOrNothing (block : UInt8) (data : Bytes) (c : SimChip) (r : Except CardError Unit)
    (c' : SimChip) : Prop where
  settled : c'.awaiting = none
  outcome : (r = .ok () ∧ ∃ card, c.card = some card ∧ c'.card = some (card.setBlock block data)) ∨
    (∃ e, r = .error e) ∧ c'.card = c.card

/-- **Within a session or not, the block is written or it is not.** -/
theorem runs_writeOpen_atomic (h : c.broken = false) (hawaiting : c.awaiting = none) (block : UInt8)
    {data : Bytes} (hdata : data.length = blockSize) :
    ∃ r c', Runs (writeOpen block data) c r c' ∧ AllOrNothing block data c r c' ∧ c'.broken = false := by
  by_cases hagrees : c.Agrees
  · obtain ⟨card, hcard⟩ := Option.isSome_iff_exists.1 hagrees.there
    obtain ⟨c', hruns, hlike⟩ := runs_writeOpen h hawaiting hagrees hcard block hdata
    exact ⟨.ok (), c', hruns,
      ⟨hlike.awaiting.trans hawaiting, .inl ⟨rfl, card, hcard, hlike.card⟩⟩, hlike.broken.trans h⟩
  · obtain ⟨e, c', hruns, hsame⟩ := runs_submit_refused h hawaiting hagrees block
    rw [writeOpen_eq]
    exact ⟨.error e, c', hruns.fail,
      ⟨hsame.awaiting.trans hawaiting, .inr ⟨⟨e, rfl⟩, hsame.card⟩⟩, hsame.broken.trans h⟩

/-- On a chip with an intact bus, whatever faults are to come. -/
theorem runs_writeBlock_intact (h : c.broken = false) (hawaiting : c.awaiting = none) (block : UInt8)
    (uid : Uid) {data : Bytes} (hdata : data.length = blockSize) :
    ∃ r c', Runs (writeBlock block uid data) c r c' ∧ AllOrNothing block data c r c' := by
  obtain ⟨opened, c₁, hopen⟩ := runs_somehow (authenticateDefault block uid) c
  have hsame : SameCard c₁ c := sameCard_runs (contained_authenticateDefault block uid) hopen
  have hbroken₁ : c₁.broken = false := hsame.broken.trans h
  have hawaiting₁ : c₁.awaiting = none := hsame.awaiting.trans hawaiting
  -- what ends the session succeeds, and does not reach the card
  cases opened with
  | error e =>
    obtain ⟨c', hstop, -, hlike⟩ := runs_stopCrypto hbroken₁
    exact ⟨.error e, c', hopen.fail.closing hstop,
      hlike.awaiting.trans hawaiting₁, .inr ⟨⟨e, rfl⟩, hlike.card.trans hsame.card⟩⟩
  | ok u =>
    obtain ⟨r, c₂, hwrite, hatomic, hbroken₂⟩ := runs_writeOpen_atomic hbroken₁ hawaiting₁ block hdata
    obtain ⟨c', hstop, -, hlike⟩ := runs_stopCrypto hbroken₂
    have houtcome := hatomic.outcome
    rw [← hlike.card, hsame.card] at houtcome
    exact ⟨r, c', (hopen.bind hwrite).closing hstop, hlike.awaiting.trans hatomic.settled, houtcome⟩

/-- A chip whose bus is broken is told nothing, and an operation that ends its session fails. -/
theorem runs_closing_broken {α : Type} (h : c.broken = true) (op : Operation α) :
    Runs (closing op stopCrypto) c (.error (.bus (.transfer .other))) c := by
  have hread (d : SimChip) (role : Role) (reg : UInt8) (hd : d = c) :
      RegisterBus.read d role reg = (.error (.transfer .other), c) := by
    rw [hd]
    exact if_pos h
  obtain ⟨r, c₁, hruns⟩ := runs_somehow op c
  have hsame : c₁ = c := by
    rw [← (hruns .entry).2]
    have hany : Keeps (fun _ => True) op := fun _ _ _ _ _ => trivial
    refine perform_preserves (P := fun d => d = c) ?_ ?_ hany rfl
    · rintro d reg hd
      rw [hread d .entry reg hd]
    · rintro d reg value o - rfl
      exact congrArg Prod.snd (if_pos h)
  subst hsame
  have hstop : Runs stopCrypto c₁ (.error (.bus (.transfer .other))) c₁ := by
    have hfirst : Runs (readReg Reg.status2) c₁ (.error (.bus (.transfer .other))) c₁ := by
      intro role
      have hrun : (readReg Reg.status2).perform role c₁ =
        (ofBus (RegisterBus.read c₁ role Reg.status2).1, (RegisterBus.read c₁ role Reg.status2).2, []) := rfl
      rw [hrun, hread c₁ role Reg.status2 rfl]
      exact ⟨rfl, rfl⟩
    exact hfirst.fail
  exact hruns.closing_fail hstop

/-- A write of a block on any chip. -/
theorem runs_writeBlock_atomic (hawaiting : c.awaiting = none) (block : UInt8) (uid : Uid)
    {data : Bytes} (hdata : data.length = blockSize) :
    ∃ r c', Runs (writeBlock block uid data) c r c' ∧ AllOrNothing block data c r c' := by
  cases hbroken : c.broken with
  | true => exact ⟨_, c, runs_closing_broken hbroken _, hawaiting, .inr ⟨⟨_, rfl⟩, rfl⟩⟩
  | false => exact runs_writeBlock_intact hbroken hawaiting block uid hdata

end Operation

/-- **A block is written as a whole or not at all.** On either reader of a field, be its bus intact or
broken, with a card before it or not, whatever faults are to come in whatever order, and whatever its
buffer and its registers hold: if no card awaits data at the beginning, then a write of a block either
succeeds, and the card is the same but for that block, which holds the data; or it fails, and the card
is as it was. In both cases no card awaits data afterwards. -/
theorem write_block_atomic (f : Field) (role : Role) (h : (f.get role).awaiting = none) (block : UInt8)
    (uid : Uid) (data : Bytes) (hdata : data.length = blockSize) :
    let result := ((Operation.writeBlock block uid data).perform role f).1
    let after := ((Operation.writeBlock block uid data).perform role f).2.1.get role
    after.awaiting = none ∧
      ((result = .ok () ∧ ∃ card, (f.get role).card = some card ∧
          after.card = some { card with blocks := Function.update card.blocks block data }) ∨
        (∃ e, result = .error e) ∧ after.card = (f.get role).card) := by
  obtain ⟨r, c', hruns, hatomic⟩ := Operation.runs_writeBlock_atomic h block uid hdata
  dsimp only
  rw [Operation.perform_field]
  dsimp only
  rw [Sides.get_set_self, (hruns role).1, (hruns role).2]
  refine ⟨hatomic.settled, hatomic.outcome.imp_left ?_⟩
  rintro ⟨hok, card, hbefore, hafter⟩
  exact ⟨hok, card, hbefore, by rw [hafter, Operation.setBlock_eq]⟩

/-- A field with a selected card at the entry, and faults of every kind to come. When a block is written,
the first key stalls, and the frame that asks for the block is lost. -/
def faultyField : Field :=
  Field.new.set .entry {
    fifo := [0xA0, 0x08]
    card := some { uid := ⟨0xDE, 0xAD, 0xBE, 0xEF⟩ }
    faults := [.writeNak, .shortRead 3, .stall, .errorBits 0]
    selected := true }

/-- A field with a selected card at the entry that has no key A. The fault to come does not strike a
write. -/
def sparedField : Field :=
  Field.new.set .entry {
    fifo := [0xA0, 0x08]
    card := some { uid := ⟨0xDE, 0xAD, 0xBE, 0xEF⟩, acceptsA := false }
    faults := [.shortRead 3]
    selected := true }

/-- A text is written to the card at the entry. -/
def nameCard (f : Field) : Except CardError Unit × Field × List Notice :=
  (Operation.writeBlock 8 ⟨0xDE, 0xAD, 0xBE, 0xEF⟩ (UserText.encode "Ana")).perform .entry f

/-- The card of `faultyField` does not agree to be written and stays as it was; that of `sparedField` is
written with the second key. -/
theorem write_block_atomic_faulty :
    (faultyField.get .entry).awaiting = none ∧ (sparedField.get .entry).awaiting = none ∧
      (UserText.encode "Ana").length = blockSize ∧
      ((nameCard faultyField).1 = .error .notAcknowledged ∧
        ((nameCard faultyField).2.1.get .entry).awaiting = none ∧
        ((nameCard faultyField).2.1.get .entry).card = (faultyField.get .entry).card) ∧
      (nameCard sparedField).1 = .ok () ∧ ((nameCard sparedField).2.1.get .entry).awaiting = none ∧
        ∃ card, (sparedField.get .entry).card = some card ∧
          ((nameCard sparedField).2.1.get .entry).card =
            some { card with blocks := Function.update card.blocks 8 (UserText.encode "Ana") } := by
  have hdata : (UserText.encode "Ana").length = blockSize := by decide +kernel
  have hfails : (nameCard faultyField).1 = .error .notAcknowledged := by decide +kernel
  have hsucceeds : (nameCard sparedField).1 = .ok () := by decide +kernel
  refine ⟨rfl, rfl, hdata, ?_, ?_⟩
  · have hatomic := write_block_atomic faultyField .entry rfl 8 ⟨0xDE, 0xAD, 0xBE, 0xEF⟩
      (UserText.encode "Ana") hdata
    dsimp only at hatomic
    rw [← nameCard, hfails] at hatomic
    obtain ⟨hsettled, ⟨hok, -⟩ | ⟨-, hsame⟩⟩ := hatomic
    · cases hok
    · exact ⟨hfails, hsettled, hsame⟩
  · have hatomic := write_block_atomic sparedField .entry rfl 8 ⟨0xDE, 0xAD, 0xBE, 0xEF⟩
      (UserText.encode "Ana") hdata
    dsimp only at hatomic
    rw [← nameCard, hsucceeds] at hatomic
    obtain ⟨hsettled, ⟨-, hwritten⟩ | ⟨⟨e, he⟩, -⟩⟩ := hatomic
    · exact ⟨hsucceeds, hsettled, hwritten⟩
    · cases he

end Turnstile

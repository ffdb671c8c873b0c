import Mathlib.Logic.Function.Basic
import Turnstile.Proofs.Simulation.Commands

/-!
# Encounters of a reader and a card

What the operations of a reader come to, told in terms of the card: what it answers, whether
it is selected, and what its blocks hold. Registers, buffer and interrupts do not occur.

* `Encounter`: a card that may be before a reader, and what the operations make of it.
* `Operation.Refines`: an operation on a chip does what a step does to the encounter.
* `Operation.Mirrors`: it does so whether a session is open or not; `mirrors_identify` and others.
* `refines_request`, …, `refines_writeBlock`: the operations do.
* `reader_refines_encounter`: **so they do on either reader of a field**, whatever was left in
  its buffer and in its registers.
-/

namespace Turnstile

/-- A card before a reader, if there is one, and whether it is selected. -/
structure Encounter where
  card : Option SimCard
  selected : Bool

namespace Encounter

/-- A card that is asked for answers, and is selected no more. -/
def request (e : Encounter) : Except CardError Bytes × Encounter :=
  match e.card with
  | some _ => (.ok [0x04, 0x00], { e with selected := false })
  | none => (.error .noCard, e)

/-- A card says its identifier. -/
def anticollision (e : Encounter) : Except CardError Uid × Encounter :=
  match e.card with
  | some card => (.ok card.uid, e)
  | none => (.error .noCard, e)

/-- The card of an identifier is selected, and says of which kind it is. -/
def select (uid : Uid) (e : Encounter) : Except CardError UInt8 × Encounter :=
  if e.card.any (·.uid = uid) then (.ok 0x08, { e with selected := true })
  else (.error (.malformedAnswer 0 0), e)

/-- A card is asked for, says its identifier and is selected by it. -/
def identify (e : Encounter) : Except CardError Uid × Encounter :=
  match e.card with
  | some card => (.ok card.uid, { e with selected := true })
  | none => (.error .noCard, e)

/-- The card that can be read and written: it is selected, has the identifier, and accepts the
factory key as key A or as key B. -/
def open? (uid : Uid) (e : Encounter) : Option SimCard :=
  e.card.filter fun card => e.selected && card.uid = uid && (card.acceptsA || card.acceptsB)

/-- A block is read. -/
def readBlock (block : UInt8) (uid : Uid) (e : Encounter) : Except CardError Bytes × Encounter :=
  match e.open? uid with
  | some card => (.ok (card.blocks block), e)
  | none => (.error .authFailed, e)

/-- A block is written, and no other. -/
def writeBlock (block : UInt8) (uid : Uid) (data : Bytes) (e : Encounter) :
    Except CardError Unit × Encounter :=
  match e.open? uid with
  | some card =>
    (.ok (), { e with card := some { card with blocks := Function.update card.blocks block data } })
  | none => (.error .authFailed, e)

end Encounter

/-- Whether every block of a card holds sixteen octets. -/
def SimCard.WellFormed (card : SimCard) : Prop :=
  ∀ block, (card.blocks block).length = blockSize

theorem Checksum.length_close (bs : Bytes) : (close bs).length = bs.length + 2 := by
  simp [close, of]

theorem Checksum.take_close (bs : Bytes) : (close bs).take bs.length = bs :=
  List.take_left

theorem Checksum.closes_close (bs : Bytes) : closes (close bs) = true := by
  have hlength : (bs ++ of bs).length - 2 = bs.length := by
    simp [of]
  rw [closes, close, hlength, List.take_left, List.drop_left]
  exact decide_eq_true rfl

namespace SimChip

/-- The card before a chip. -/
def encounter (c : SimChip) : Encounter :=
  ⟨c.card, c.selected⟩

/-- Whether nothing is wrong with a chip: its bus is intact, no fault is to come, and no card
awaits data. -/
structure Sound (c : SimChip) : Prop where
  broken : c.broken = false
  faults : c.faults = []
  awaiting : c.awaiting = none
  blocks : ∀ card, c.card = some card → card.WellFormed

/-- Whether a chip that nothing is wrong with is between two operations: no session is open. Its
buffer may hold anything, and so may its registers, the bit of the session apart. -/
structure Undisturbed (c : SimChip) : Prop extends Sound c where
  session : c.cryptoOn = false

variable {c c' : SimChip} {regs : List UInt8}

theorem AlikeBut.encounter (h : AlikeBut regs c' c) : c'.encounter = c.encounter := by
  rw [SimChip.encounter, SimChip.encounter, h.card, h.selected]

theorem AlikeBut.sound (h : AlikeBut regs c' c) (hc : c.Sound) : c'.Sound where
  broken := h.broken.trans hc.broken
  faults := h.faults.trans hc.faults
  awaiting := h.awaiting.trans hc.awaiting
  blocks := fun card hcard => hc.blocks card (h.card.symm.trans hcard)

theorem opens_iff {card : SimCard} (hcard : c.card = some card) (kind : KeyKind) (uid : Uid) :
    c.Opens kind uid ↔ c.selected = true ∧ accepts card kind = true ∧ card.uid = uid := by
  constructor
  · rintro ⟨card', hsome, hselected, haccepts, huid⟩
    rw [hcard] at hsome
    cases hsome
    exact ⟨hselected, haccepts, huid⟩
  · rintro ⟨hselected, haccepts, huid⟩
    exact ⟨card, hcard, hselected, haccepts, huid⟩

/-- A card can be read and written if one of the keys opens a session. -/
theorem open?_isSome_iff (uid : Uid) :
    (c.encounter.open? uid).isSome = true ↔ c.Opens .a uid ∨ c.Opens .b uid := by
  cases hcard : c.card with
  | none =>
    have hshut : ∀ kind, ¬ c.Opens kind uid := by
      rintro kind ⟨card, hsome, -⟩
      rw [hcard] at hsome
      cases hsome
    simp [Encounter.open?, SimChip.encounter, hcard, hshut]
  | some card =>
    rw [opens_iff hcard, opens_iff hcard]
    simp only [Encounter.open?, SimChip.encounter, hcard, accepts, Option.isSome_filter,
      Option.any_some, Bool.and_eq_true, Bool.or_eq_true, decide_eq_true_eq]
    grind

/-! ## Answers of a card -/

theorem receive_some {card : SimCard} (hcard : c.card = some card) (hawaiting : c.awaiting = none)
    (lastBits : UInt8) (frame : Bytes) : c.receive lastBits frame = c.answer card lastBits frame := by
  rw [receive, hcard, hawaiting]

/-- A card is selected by its own identifier and by no other. -/
theorem answer_select (c : SimChip) (card : SimCard) (lastBits : UInt8) (uid : Uid) :
    c.answer card lastBits
        (Checksum.close ([CardCommand.select, CardCommand.selectAll] ++ uid.bytes ++ [uid.check])) =
      if card.uid = uid then { c with selected := true }.respond (Checksum.close [0x08]) 0
      else c.silence := by
  have hcloses := Checksum.closes_close
    ([CardCommand.select, CardCommand.selectAll] ++ uid.bytes ++ [uid.check])
  have hiff : (CardCommand.select = CardCommand.select ∧ CardCommand.selectAll = CardCommand.selectAll ∧
      uid.bytes ++ [uid.check] = card.uid.bytes ++ [card.uid.check] ∧
      Checksum.closes (Checksum.close
        ([CardCommand.select, CardCommand.selectAll] ++ uid.bytes ++ [uid.check])) = true) ↔
      card.uid = uid := by
    constructor
    · rintro ⟨-, -, hbytes, -⟩
      exact (uid_eq_of_bytes (List.append_inj_left hbytes rfl)).symm
    · rintro rfl
      exact ⟨rfl, rfl, rfl, hcloses⟩
  by_cases huid : card.uid = uid
  · rw [if_pos huid]
    exact if_pos (hiff.2 huid)
  · rw [if_neg huid]
    exact if_neg fun hand => huid (hiff.1 hand)

/-- A card is asked to have a block read or written, which it does not hear without a session. -/
theorem answer_closed (c : SimChip) (card : SimCard) (lastBits command block : UInt8) :
    c.answer card lastBits (Checksum.close [command, block]) =
      if command = CardCommand.read ∧ c.cryptoOn = true then c.answerRead card block
      else if command = CardCommand.write ∧ c.cryptoOn = true then c.answerWrite block
      else c.silence := by
  have hcloses := Checksum.closes_close [command, block]
  have hanswer : c.answer card lastBits (Checksum.close [command, block]) =
      if command = CardCommand.read ∧ c.cryptoOn ∧ Checksum.closes (Checksum.close [command, block]) then
        c.answerRead card block
      else if command = CardCommand.write ∧ c.cryptoOn ∧
          Checksum.closes (Checksum.close [command, block]) then c.answerWrite block
      else c.silence := rfl
  simp only [hanswer, hcloses, and_true]

/-- Within a session a card is asked to have a block read or written. -/
theorem answer_block (hcrypto : c.cryptoOn = true) (card : SimCard) (lastBits command block : UInt8) :
    c.answer card lastBits (Checksum.close [command, block]) =
      if command = CardCommand.read then c.answerRead card block
      else if command = CardCommand.write then c.answerWrite block else c.silence := by
  simp only [answer_closed, hcrypto, and_true]

end SimChip

namespace Operation

open SimChip (AlikeBut Sound Undisturbed)

variable {α β : Type} {c : SimChip}

theorem Emptied.sound {c₁ : SimChip} (h : Emptied c₁ c) (hc : c.Sound) : c₁.Sound :=
  h.toAlikeBut.sound hc

/-- Nobody answers where there is no card. -/
theorem runs_transceive_none (hc : c.Sound) (hcard : c.card = none) (send : Bytes) :
    ∃ c', Runs (transceive send) c (.ok ⟨[], 0⟩) c' ∧ AlikeBut workingRegs c' c := by
  refine runs_transceive_silence hc.broken (heard_of_none hc.faults) send fun c₁ h => ?_
  rw [SimChip.receive, h.card, hcard]

/-- A card answers a frame, and may come to be in another state by it. -/
theorem runs_transceive_answer (hc : c.Sound) {card : SimCard} (hcard : c.card = some card)
    (send data : Bytes) (lastBits : UInt8) (hlen : data.length ≤ fifoCapacity) {d : SimChip}
    (hd : d.broken = false)
    (hanswer : ∀ c₁, Emptied c₁ c → ∃ c₂, Emptied c₂ d ∧
      c₁.answer card (c.get Reg.bitFraming &&& 0x07) send = c₂.respond data lastBits) :
    ∃ c', Runs (transceive send) c (.ok ⟨data, validBits data.length (lastBits &&& 0x07).toNat⟩) c' ∧
      AlikeBut workingRegs c' d := by
  refine runs_transceive_respond hc.broken (heard_of_none hc.faults) send data lastBits hlen hd fun c₁ h => ?_
  rw [SimChip.receive_some (h.card.trans hcard) (h.sound hc).awaiting]
  exact hanswer c₁ h

theorem runs_bitFraming (h : c.broken = false) (value : UInt8) (hvalue : value &&& 0x80 = 0) :
    Runs (writeReg Reg.bitFraming value) c (.ok ()) (c.set Reg.bitFraming value) := by
  have hwrite : c.write Reg.bitFraming value = c.set Reg.bitFraming value := by
    show (if value &&& 0x80 ≠ 0 ∧ _ then _ else c.set Reg.bitFraming value) = _
    exact if_neg fun hand => hand.1 hvalue
  have hruns := runs_writeReg h Reg.bitFraming value
  rwa [hwrite] at hruns

/-- Whether an operation does to every undisturbed chip what a step does to the encounter, and
leaves it undisturbed. -/
def Refines (op : Operation α) (step : Encounter → Except CardError α × Encounter) : Prop :=
  ∀ c : SimChip, c.Undisturbed → ∃ c', Runs op c (step c.encounter).1 c' ∧
    c'.encounter = (step c.encounter).2 ∧ c'.Undisturbed

/-- Whether an operation does to every chip that nothing is wrong with what a step does to the
encounter, and opens and ends no session. -/
def Mirrors (op : Operation α) (step : Encounter → Except CardError α × Encounter) : Prop :=
  ∀ c : SimChip, c.Sound → ∃ c', Runs op c (step c.encounter).1 c' ∧
    c'.encounter = (step c.encounter).2 ∧ c'.Sound ∧ c'.cryptoOn = c.cryptoOn

theorem Mirrors.refines {op : Operation α} {step : Encounter → Except CardError α × Encounter}
    (h : Mirrors op step) : Refines op step := by
  intro c hc
  obtain ⟨c', hruns, hencounter, hsound, hsession⟩ := h c hc.toSound
  exact ⟨c', hruns, hencounter, hsound, hsession.trans hc.session⟩

/-! ## Which card is there -/

theorem mirrors_request : Mirrors request Encounter.request := by
  intro c hc
  let c₁ := c.set Reg.bitFraming 0x07
  have hlike : AlikeBut workingRegs c₁ c := SimChip.alikeBut_set (by decide) c _
  have hc₁ : c₁.Sound := hlike.sound hc
  have hframing := runs_bitFraming hc.broken 0x07 (by decide)
  cases hcard : c.card with
  | none =>
    have hstep : Encounter.request c.encounter = (.error .noCard, c.encounter) := by
      simp only [Encounter.request, SimChip.encounter, hcard]
    obtain ⟨c', hruns, hafter⟩ := runs_transceive_none hc₁ hcard [CardCommand.request]
    have hend := hafter.trans hlike
    rw [hstep]
    refine ⟨c', hframing.bind ?_, hend.encounter, hend.sound hc, hend.cryptoOn⟩
    exact (hruns.absentUnlessBus (fun e => by simp)).bind (runs_throw _)
  | some card =>
    have hstep : Encounter.request c.encounter = (.ok [0x04, 0x00], ⟨c.card, false⟩) := by
      simp only [Encounter.request, SimChip.encounter, hcard]
    -- a frame of seven bits, which the card answers and forgets that it was selected
    have hbits : c₁.get Reg.bitFraming &&& 0x07 = 7 := by
      rw [SimChip.get_set_self]
      decide
    let d : SimChip := { c₁ with selected := false }
    have hd : d.Sound := ⟨hc.broken, hc.faults, hc.awaiting, hc.blocks⟩
    have hanswer : ∀ c₂, Emptied c₂ c₁ → ∃ c₃, Emptied c₃ d ∧
        c₂.answer card (c₁.get Reg.bitFraming &&& 0x07) [CardCommand.request] =
          c₃.respond [0x04, 0x00] 0 := by
      intro c₂ h
      rw [hbits]
      exact ⟨{ c₂ with selected := false },
        ⟨⟨h.card, h.faults, rfl, h.awaiting, h.broken, h.kept⟩, h.fifo, h.error⟩, rfl⟩
    obtain ⟨c', hruns, hafter⟩ :=
      runs_transceive_answer hc₁ hcard _ _ _ (by decide) hd.broken hanswer
    rw [hstep]
    refine ⟨c', hframing.bind ?_, hafter.encounter, hafter.sound hd, hafter.cryptoOn.trans hlike.cryptoOn⟩
    exact (hruns.absentUnlessBus (fun e => by simp)).bind (runs_pure _)

theorem mirrors_anticollision : Mirrors anticollision Encounter.anticollision := by
  intro c hc
  let c₁ := c.set Reg.bitFraming 0x00
  have hlike : AlikeBut workingRegs c₁ c := SimChip.alikeBut_set (by decide) c _
  have hc₁ : c₁.Sound := hlike.sound hc
  have hframing := runs_bitFraming hc.broken 0x00 (by decide)
  cases hcard : c.card with
  | none =>
    have hstep : Encounter.anticollision c.encounter = (.error .noCard, c.encounter) := by
      simp only [Encounter.anticollision, SimChip.encounter, hcard]
    obtain ⟨c', hruns, hafter⟩ :=
      runs_transceive_none hc₁ hcard [CardCommand.select, CardCommand.anticollision]
    have hend := hafter.trans hlike
    rw [hstep]
    refine ⟨c', hframing.bind ?_, hend.encounter, hend.sound hc, hend.cryptoOn⟩
    exact (hruns.absentUnlessBus (fun e => by simp)).bind (runs_throw _).fail
  | some card =>
    have hstep : Encounter.anticollision c.encounter = (.ok card.uid, c.encounter) := by
      simp only [Encounter.anticollision, SimChip.encounter, hcard]
    have hanswer : ∀ c₂, Emptied c₂ c₁ → ∃ c₃, Emptied c₃ c₁ ∧
        c₂.answer card (c₁.get Reg.bitFraming &&& 0x07)
          [CardCommand.select, CardCommand.anticollision] =
          c₃.respond (card.uid.bytes ++ [card.uid.check]) 0 := fun c₂ h => ⟨c₂, h, rfl⟩
    have hlength : (card.uid.bytes ++ [card.uid.check]).length = 5 := rfl
    obtain ⟨c', hruns, hafter⟩ :=
      runs_transceive_answer hc₁ hcard _ _ _ (by rw [hlength]; decide) hc₁.broken hanswer
    have hend := hafter.trans hlike
    rw [hstep]
    refine ⟨c', hframing.bind ?_, hend.encounter, hend.sound hc, hend.cryptoOn⟩
    exact (hruns.absentUnlessBus (fun e => by simp)).bind ((runs_pure _).bind (runs_pure _))

/-- **A card is selected by its own identifier**, and by no other. -/
theorem mirrors_select (uid : Uid) : Mirrors (select uid) (Encounter.select uid) := by
  intro c hc
  obtain ⟨c₁, hclosed, hlike⟩ := runs_closed hc.broken
    ([CardCommand.select, CardCommand.selectAll] ++ uid.bytes ++ [uid.check])
  have hc₁ : c₁.Sound := hlike.sound hc
  by_cases hmine : ∃ card, c.card = some card ∧ card.uid = uid
  · obtain ⟨card, hcard, huid⟩ := hmine
    have hstep : Encounter.select uid c.encounter = (.ok 0x08, ⟨c.card, true⟩) := by
      simp [Encounter.select, SimChip.encounter, hcard, huid]
    let d : SimChip := { c₁ with selected := true }
    have hd : d.Sound := ⟨hc₁.broken, hc₁.faults, hc₁.awaiting, hc₁.blocks⟩
    have hanswer : ∀ c₂, Emptied c₂ c₁ → ∃ c₃, Emptied c₃ d ∧
        c₂.answer card (c₁.get Reg.bitFraming &&& 0x07) (Checksum.close
          ([CardCommand.select, CardCommand.selectAll] ++ uid.bytes ++ [uid.check])) =
          c₃.respond (Checksum.close [0x08]) 0 := by
      intro c₂ h
      rw [SimChip.answer_select, if_pos huid]
      exact ⟨{ c₂ with selected := true },
        ⟨⟨h.card, h.faults, rfl, h.awaiting, h.broken, h.kept⟩, h.fifo, h.error⟩, rfl⟩
    obtain ⟨c', hruns, hafter⟩ := runs_transceive_answer hc₁ (hlike.card.trans hcard) _ _ _
      (by decide) hd.broken hanswer
    have hencounter : d.encounter = ⟨c.card, true⟩ := by
      show (⟨c₁.card, true⟩ : Encounter) = _
      rw [hlike.card]
    rw [hstep]
    refine ⟨c', hclosed.bind (hruns.bind ?_), hafter.encounter.trans hencounter, hafter.sound hd,
      hafter.cryptoOn.trans hlike.cryptoOn⟩
    exact (runs_note _).bind (runs_pure _)
  · have hstep : Encounter.select uid c.encounter = (.error (.malformedAnswer 0 0), c.encounter) := by
      refine if_neg fun hany => ?_
      obtain ⟨card, hcard, huid⟩ := (Option.any_eq_true _ _).1 hany
      exact hmine ⟨card, hcard, of_decide_eq_true huid⟩
    have hsilence : ∀ c₂, Emptied c₂ c₁ → c₂.receive (c₁.get Reg.bitFraming &&& 0x07) (Checksum.close
        ([CardCommand.select, CardCommand.selectAll] ++ uid.bytes ++ [uid.check])) = c₂.silence := by
      intro c₂ h
      have hsame : c₂.card = c.card := h.card.trans hlike.card
      cases hcard : c.card with
      | none => rw [SimChip.receive, hsame, hcard]
      | some card =>
        have hother : card.uid ≠ uid := fun huid => hmine ⟨card, hcard, huid⟩
        rw [SimChip.receive_some (hsame.trans hcard) (h.sound hc₁).awaiting,
          SimChip.answer_select, if_neg hother]
    obtain ⟨c', hruns, hafter⟩ := runs_transceive_silence hc₁.broken (heard_of_none hc₁.faults) _ hsilence
    have hend := hafter.trans hlike
    rw [hstep]
    exact ⟨c', hclosed.bind (hruns.bind (runs_throw _)), hend.encounter, hend.sound hc, hend.cryptoOn⟩

/-- **A card is identified**, if there is one. -/
theorem mirrors_identify : Mirrors identify Encounter.identify := by
  intro c hc
  obtain ⟨c₁, hrequest, hencounter₁, hc₁, hsession₁⟩ := mirrors_request c hc
  cases hcard : c.card with
  | none =>
    have hasked : Encounter.request c.encounter = (.error .noCard, c.encounter) := by
      simp only [Encounter.request, SimChip.encounter, hcard]
    have hstep : Encounter.identify c.encounter = (.error .noCard, c.encounter) := by
      simp only [Encounter.identify, SimChip.encounter, hcard]
    rw [hasked] at hrequest hencounter₁
    rw [hstep]
    exact ⟨c₁, hrequest.fail, hencounter₁, hc₁, hsession₁⟩
  | some card =>
    have hasked : Encounter.request c.encounter = (.ok [0x04, 0x00], ⟨some card, false⟩) := by
      simp only [Encounter.request, SimChip.encounter, hcard]
    have hstep : Encounter.identify c.encounter = (.ok card.uid, ⟨some card, true⟩) := by
      simp only [Encounter.identify, SimChip.encounter, hcard]
    have hselected : Encounter.select card.uid ⟨some card, false⟩ = (.ok 0x08, ⟨some card, true⟩) :=
      if_pos (decide_eq_true rfl)
    rw [hasked] at hrequest hencounter₁
    obtain ⟨c₂, hnamed, hencounter₂, hc₂, hsession₂⟩ := mirrors_anticollision c₁ hc₁
    rw [hencounter₁] at hnamed hencounter₂
    obtain ⟨c₃, hselect, hencounter₃, hc₃, hsession₃⟩ := mirrors_select card.uid c₂ hc₂
    rw [hencounter₂] at hselect hencounter₃
    simp only [Encounter.anticollision, hselected] at hnamed hselect hencounter₃
    rw [hstep]
    exact ⟨c₃, hrequest.bind (hnamed.bind (hselect.bind (runs_pure _))), hencounter₃, hc₃,
      hsession₃.trans (hsession₂.trans hsession₁)⟩

theorem refines_request : Refines request Encounter.request :=
  mirrors_request.refines

theorem refines_anticollision : Refines anticollision Encounter.anticollision :=
  mirrors_anticollision.refines

theorem refines_select (uid : Uid) : Refines (select uid) (Encounter.select uid) :=
  (mirrors_select uid).refines

end Operation

end Turnstile

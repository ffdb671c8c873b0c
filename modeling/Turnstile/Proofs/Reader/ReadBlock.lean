import Turnstile.Proofs.Reader.Keys
import Turnstile.Simulation.Field

/-!
# Which answers are taken for a block

A card is asked for a block and answers with sixteen octets and their checksum.

* `Showing.Whole`, `Showing.block`: an answer of 18 whole octets, and what is made of an answer.
* `Summed`, `Unsummed`: the reader has computed a checksum, or has taken too long.
* `Asked`, `Answered`: a card was asked for a block, and its answer came in.
* `goes_readOpen`: within a session, the card is asked unless the checksum takes too long.
* `readBlock_exact`: **a block is read if and only if the answer is whole**, and every other answer is
  malformed; after a session was opened the card is asked, the checksum takes too long, or an access
  fails.
-/

namespace Turnstile

namespace Showing

variable (v : Showing)

/-- Whether an answer is 18 octets of which the last is not cut short. -/
def Whole : Prop :=
  v.octets.length = 18 ∧ v.control &&& 0x07 = 0

instance : Decidable v.Whole :=
  inferInstanceAs (Decidable (_ ∧ _))

/-- What is made of an answer to the request for a block. -/
def block : Except CardError Bytes :=
  if v.Whole then .ok (v.octets.take 16) else .error (.malformedAnswer v.octets.length v.bits)

theorem ok_eq_block {d : Bytes} : .ok d = v.block ↔ v.Whole ∧ d = v.octets.take 16 := by
  unfold block
  split
  all_goals simp [*]

theorem malformedAnswer_eq_block {n bits : Nat} : .error (.malformedAnswer n bits) = v.block ↔
    ¬ v.Whole ∧ n = v.octets.length ∧ bits = v.bits := by
  unfold block
  split
  all_goals simp [*]

/-- The bits of the data and their octets are enough if and only if the answer is whole. -/
theorem whole_iff : v.Whole ↔ v.bits - 16 = blockSize * 8 ∧ blockSize ≤ v.octets.length := by
  have hlast : (v.control &&& 0x07).toNat < 8 :=
    octet_forall (p := fun v => (v &&& 0x07).toNat < 8) (by decide +kernel) v.control
  have hnone : v.octets = [] ↔ v.octets.length = 0 := List.length_eq_zero_iff.symm
  unfold Whole bits blockSize
  by_cases hcontrol : v.control &&& 0x07 = 0
  · rw [if_pos (.inl hcontrol)]
    simp only [hcontrol, and_true]
    omega
  · -- an octet that is cut short has one bit at least, and eight of them would be an octet more
    have hbits : (v.control &&& 0x07).toNat ≠ 0 := fun h => hcontrol (UInt8.toNat.inj h)
    simp only [hcontrol, and_false, false_iff, false_or, hnone]
    split <;> omega

end Showing

/-- What comes of the request for a block: without an answer, what came of the command. -/
def Showing.reading (v : Showing) : Except CardError Bytes :=
  (v.outcome ReaderCommand.transceive).bind fun _ => v.block

/-- The accesses that give the reader octets to compute their checksum, and await that. -/
def summing (data : Bytes) (pending fill : UInt8) (flags : List UInt8) : List Access :=
  [.got Reg.divIrq pending, .put Reg.divIrq (pending &&& ~~~0x04),
      .got Reg.fifoLevel fill, .put Reg.fifoLevel (fill ||| 0x80)] ++
    data.map (.put Reg.fifoData) ++ .put Reg.command ReaderCommand.computeCrc ::
    flags.map (.got Reg.divIrq)

theorem summing_append (data : Bytes) (pending fill : UInt8) (flags : List UInt8) (rest : List Access) :
    summing data pending fill flags ++ rest =
      .got Reg.divIrq pending :: .put Reg.divIrq (pending &&& ~~~0x04) ::
      .got Reg.fifoLevel fill :: .put Reg.fifoLevel (fill ||| 0x80) ::
      (data.map (.put Reg.fifoData) ++ .put Reg.command ReaderCommand.computeCrc ::
        (flags.map (.got Reg.divIrq) ++ rest)) := by
  simp [summing]

/-- Whether the reader was given octets to compute their checksum, showed that it was done, and these
two were read. -/
def Summed (data : Bytes) (low high : UInt8) (t : List Access) : Prop :=
  ∃ pending fill flags, Operation.Polled 0x04 255 flags ∧ Operation.shows 0x04 flags = true ∧
    t = summing data pending fill flags ++ [.got Reg.crcLow low, .got Reg.crcHigh high]

/-- Whether the reader was given octets to compute their checksum, and never showed that it was done. -/
def Unsummed (data : Bytes) (t : List Access) : Prop :=
  ∃ pending fill flags, Operation.Polled 0x04 255 flags ∧ Operation.shows 0x04 flags = false ∧
    t = summing data pending fill flags

/-- Whether a card was asked for a block, with the checksum that the reader computed, and the reader
showed this. -/
def Asked (block : UInt8) (v : Showing) (t : List Access) : Prop :=
  ∃ low high sum, Summed [0x30, block] low high sum ∧
    t = sum ++ v.accesses ReaderCommand.transceive [0x30, block, low, high] ∧
    v.Fits ReaderCommand.transceive

/-- Whether a card was asked for a block, and its answer came in, in time and without errors. -/
def Answered (block : UInt8) (v : Showing) (t : List Access) : Prop :=
  Asked block v t ∧ v.ended ReaderCommand.transceive = true ∧ v.errors &&& 0x1B = 0

/-- The outcomes that an answer can have. -/
def Judged : Except CardError Bytes → Prop
  | .ok _ => True
  | .error (.malformedAnswer _ _) => True
  | .error _ => False

/-- The accesses that end a session. -/
def ending (status : UInt8) : List Access :=
  [.got Reg.status2 status, .put Reg.status2 (status &&& ~~~0x08)]

namespace Showing

variable {v : Showing}

theorem reading_of_error {e : CardError} (h : v.outcome ReaderCommand.transceive = .error e) :
    v.reading = .error e := by
  rw [reading, h]
  rfl

theorem reading_of_ok {frame : Frame} (h : v.outcome ReaderCommand.transceive = .ok frame) :
    v.reading = v.block := by
  rw [reading, h]
  rfl

/-- An outcome that an answer can have is that of an answer. -/
theorem asked_judged_iff {block : UInt8} {t : List Access} {r : Except CardError Bytes} (hr : Judged r) :
    Asked block v t ∧ r = v.reading ↔ Answered block v t ∧ r = v.block := by
  constructor
  · rintro ⟨hasked, rfl⟩
    cases hout : v.outcome ReaderCommand.transceive with
    | error e =>
      -- without an answer there is nothing to judge
      rw [reading_of_error hout] at hr
      rcases v.outcome_eq_error _ hout with rfl | ⟨bits, rfl⟩
      all_goals exact hr.elim
    | ok frame =>
      obtain ⟨hended, herrors, -⟩ := (v.outcome_eq_ok_iff _).1 hout
      exact ⟨⟨hasked, hended, herrors⟩, reading_of_ok hout⟩
  · rintro ⟨⟨hasked, hended, herrors⟩, hblock⟩
    have hout := (v.outcome_eq_ok_iff ReaderCommand.transceive).2 ⟨hended, herrors, rfl⟩
    exact ⟨hasked, hblock.trans (reading_of_ok hout).symm⟩

end Showing

namespace Operation

variable {α : Type} {block : UInt8} {uid : Uid} {t : List Access}

/-! ## The request -/

/-- Octets are closed once their checksum was computed, unless that takes too long. -/
theorem goes_closed_bind {data : Bytes} {f : Bytes → Operation α} {r : Except CardError α} :
    (closed data >>= f).Goes t r ↔ Unsummed data t ∧ r = .error .timeout ∨
      ∃ low high sum rest, Summed data low high sum ∧ t = sum ++ rest ∧
        (f (data ++ [low, high])).Goes rest r := by
  simp only [closed, checksum, bind_assoc, goes_clearBits_bind, goes_setBits_bind, goes_writeAll_bind,
    goes_writeReg_bind, goes_pollUntil_bind, checksumBudget]
  constructor
  · rintro ⟨pending, _, rfl, fill, _, rfl, _, rfl, _, rfl, flags, _, hflags, rfl, hrest⟩
    cases hshown : shows 0x04 flags with
    | false =>
      rw [hshown] at hrest
      obtain ⟨rfl, hr⟩ := goes_throw_bind.1 hrest
      exact .inl ⟨⟨pending, fill, flags, hflags, hshown, by simp [summing]⟩, hr⟩
    | true =>
      rw [hshown] at hrest
      simp only [Bool.not_true, Bool.false_eq_true, if_false, bind_assoc, goes_readReg_bind,
        pure_bind] at hrest
      obtain ⟨low, _, rfl, high, rest, rfl, hrest⟩ := hrest
      exact .inr ⟨low, high, _, rest, ⟨pending, fill, flags, hflags, hshown, rfl⟩, by simp [summing],
        hrest⟩
  · rintro (⟨⟨pending, fill, flags, hflags, hshown, rfl⟩, hr⟩ |
      ⟨low, high, _, rest, ⟨pending, fill, flags, hflags, hshown, rfl⟩, rfl, hrest⟩)
    · rw [← List.append_nil (summing ..), summing_append]
      refine ⟨pending, _, rfl, fill, _, rfl, _, rfl, _, rfl, flags, [], hflags, rfl, ?_⟩
      rw [hshown]
      exact goes_throw_bind.2 ⟨rfl, hr⟩
    · rw [List.append_assoc, summing_append]
      refine ⟨pending, _, rfl, fill, _, rfl, _, rfl, _, rfl, flags, _, hflags, rfl, ?_⟩
      rw [hshown]
      simp only [Bool.not_true, Bool.false_eq_true, if_false, bind_assoc, goes_readReg_bind, pure_bind]
      exact ⟨low, _, rfl, high, rest, rfl, hrest⟩

/-! ## The answer -/

/-- **Within a session**, the card is asked unless the checksum takes too long, and the outcome is what
comes of that. -/
theorem goes_readOpen {r : Except CardError Bytes} : (readOpen block).Goes t r ↔
    Unsummed [0x30, block] t ∧ r = .error .timeout ∨ ∃ v, Asked block v t ∧ r = v.reading := by
  have haccept : ∀ (v : Showing) rest, (do
      if v.bits - 16 ≠ blockSize * 8 ∨ v.octets.length < blockSize then
        throw (.malformedAnswer v.octets.length v.bits)
      pure (v.octets.take blockSize) : Operation Bytes).Goes rest r ↔ rest = [] ∧ r = v.block := by
    intro v rest
    by_cases hwhole : v.Whole
    · obtain ⟨hbits, hlen⟩ := v.whole_iff.1 hwhole
      have hrefuse : ¬ (v.bits - 16 ≠ blockSize * 8 ∨ v.octets.length < blockSize) := by omega
      rw [if_neg hrefuse, Showing.block, if_pos hwhole]
      exact goes_pure
    · have hrefuse : v.bits - 16 ≠ blockSize * 8 ∨ v.octets.length < blockSize := by
        rw [v.whole_iff] at hwhole
        omega
      rw [if_pos hrefuse, Showing.block, if_neg hwhole]
      exact goes_throw_bind
  rw [readOpen, goes_closed_bind]
  simp only [transceive, goes_bind, goes_communicate]
  refine or_congr_right ?_
  constructor
  · rintro ⟨low, high, sum, _, hsummed, rfl, ⟨e, ⟨v, hv, rfl, hout⟩, rfl⟩ |
      ⟨_, rest, frame, rfl, ⟨v, hv, rfl, hout⟩, hrest⟩⟩
    · exact ⟨v, ⟨low, high, sum, hsummed, rfl, hv⟩, (Showing.reading_of_error hout.symm).symm⟩
    · obtain ⟨-, -, hframe⟩ := (v.outcome_eq_ok_iff _).1 hout.symm
      rw [if_neg (not_not.2 rfl)] at hframe
      subst hframe
      obtain ⟨rfl, hblock⟩ := (haccept v rest).1 hrest
      exact ⟨v, ⟨low, high, sum, hsummed, by simp, hv⟩,
        hblock.trans (Showing.reading_of_ok hout.symm).symm⟩
  · rintro ⟨v, ⟨low, high, sum, hsummed, rfl, hv⟩, rfl⟩
    refine ⟨low, high, sum, _, hsummed, rfl, ?_⟩
    cases hout : v.outcome ReaderCommand.transceive with
    | error e => exact .inl ⟨e, ⟨v, hv, rfl, hout.symm⟩, Showing.reading_of_error hout⟩
    | ok frame =>
      obtain ⟨-, -, hframe⟩ := (v.outcome_eq_ok_iff _).1 hout
      rw [if_neg (not_not.2 rfl)] at hframe
      subst hframe
      exact .inr ⟨_, [], _, (List.append_nil _).symm, ⟨v, hv, rfl, hout.symm⟩,
        (haccept v []).2 ⟨rfl, Showing.reading_of_ok hout⟩⟩

/-! ## The session -/

/-- An access has failed if and only if an error of the bus is the outcome. -/
theorem Prompt.closing_flawless_iff {op : Operation α} (h : Prompt op) {r : Except CardError α}
    (hm : (closing op stopCrypto).Makes t r) : Flawless t ↔ ∀ e, r ≠ .error (.bus e) := by
  obtain ⟨t₁, t₂, r₁, r₂, rfl, hop, hstop, rfl⟩ := makes_closing hm
  rw [flawless_append]
  rcases (prompt_parts.clearBits _ _).goes_or_breaksOff hstop with ⟨hgoes, -⟩ | ⟨e, hbreaks, rfl⟩
  · obtain ⟨status, rfl, rfl⟩ := goes_clearBits.1 hgoes
    rcases h.goes_or_breaksOff hop with ⟨hgone, hr⟩ | ⟨e, hbreaks, rfl⟩
    · exact ⟨fun _ => hr, fun _ => ⟨hgone.2, hgoes.2⟩⟩
    · exact ⟨fun hall => absurd hall.1 hbreaks.not_flawless, fun hr => absurd rfl (hr e)⟩
  · exact ⟨fun hall => absurd hall.2 hbreaks.not_flawless, fun hr => absurd rfl (hr e)⟩

/-- **Without a failure of the bus** the session is opened or refused, the card is asked in it, and the
session is ended: that is the only way to such an outcome. -/
theorem makes_readBlock {r : Except CardError Bytes} (hr : ∀ e, r ≠ .error (.bus e)) :
    (readBlock block uid).Makes t r ↔ ∃ opening asking status,
      t = opening ++ (asking ++ ending status) ∧
      ((authenticateDefault block uid).Makes opening (.error .authFailed) ∧ asking = [] ∧
          r = .error .authFailed ∨
        (authenticateDefault block uid).Makes opening (.ok ()) ∧ (readOpen block).Goes asking r) := by
  constructor
  · intro h
    obtain ⟨t₁, t₂, r₁, r₂, rfl, hread, hstop, rfl⟩ := makes_closing h
    -- the session is ended without a failure, or that failure would be the outcome
    have hended : stopCrypto.Goes t₂ r₂ := by
      refine ((prompt_parts.clearBits _ _).makes_iff_goes ?_).1 hstop
      rintro e rfl
      exact hr e rfl
    obtain ⟨status, rfl, rfl⟩ := goes_clearBits.1 hended
    change ∀ e, r₁ ≠ .error (.bus e) at hr
    rcases makes_bind.1 hread with ⟨e, hopen, rfl⟩ | ⟨opening, asking, _, rfl, hopen, hask⟩
    · refine ⟨t₁, [], status, rfl, .inl ?_⟩
      rcases authenticateDefault_outcome hopen with hok | ⟨b, hbus⟩ | hrefused
      · cases hok
      · cases hbus
        exact absurd rfl (hr b)
      · cases hrefused
        exact ⟨hopen, rfl, rfl⟩
    · have hgoes := ((prompt_parts.readOpen block).makes_iff_goes hr).1 hask
      exact ⟨opening, asking, status, List.append_assoc .., .inr ⟨hopen, hgoes⟩⟩
  · rintro ⟨opening, asking, status, rfl, hread⟩
    have hstop : stopCrypto.Makes (ending status) (.ok ()) := (goes_clearBits.2 ⟨status, rfl, rfl⟩).1
    have hfirst : (do authenticateDefault block uid; readOpen block).Makes (opening ++ asking) r := by
      rcases hread with ⟨hopen, rfl, rfl⟩ | ⟨hopen, hgoes⟩
      · rw [List.append_nil]
        exact makes_bind.2 (.inl ⟨_, hopen, rfl⟩)
      · exact makes_bind.2 (.inr ⟨opening, asking, (), rfl, hopen, hgoes.1⟩)
    rw [← List.append_assoc]
    exact makes_closing_of hfirst hstop

/-- What a block is read with begins with what opens the session. -/
theorem readBlock_run (block : UInt8) (uid : Uid) : ∃ next, (readBlock block uid).run =
    (authenticateDefault block uid).run.bind next :=
  ⟨_, Script.bind_assoc ..⟩

/-- What comes of a block on a bus, told by what comes there of opening the session. -/
theorem perform_readBlock_iff {σ : Type} [RegisterBus σ] {role : Role} {s : σ}
    {r : Except CardError Bytes} (hr : ∀ e, r ≠ .error (.bus e)) :
    ((readBlock block uid).perform role s).1 = r ↔ ∃ asking status,
      (readBlock block uid).trace role s =
        (authenticateDefault block uid).trace role s ++ (asking ++ ending status) ∧
      (((authenticateDefault block uid).perform role s).1 = .error .authFailed ∧ asking = [] ∧
          r = .error .authFailed ∨
        ((authenticateDefault block uid).perform role s).1 = .ok () ∧ (readOpen block).Goes asking r) := by
  rw [perform_eq_iff, makes_readBlock hr]
  constructor
  · -- the accesses that open the session are the first, so they are those of this bus
    rintro ⟨opening, asking, status, haccesses, hread⟩
    have hfirst {q : Except CardError Unit} (hopen : (authenticateDefault block uid).Makes opening q) :
        (authenticateDefault block uid).trace role s = opening ∧
          ((authenticateDefault block uid).perform role s).1 = q := by
      obtain ⟨next, hnext⟩ := readBlock_run block uid
      have htrace : ((authenticateDefault block uid).run.bind next).trace role s =
          (readBlock block uid).trace role s := congrArg (Script.trace role · s) hnext.symm
      obtain ⟨htold, hopened⟩ := Script.makes_first hopen (htrace.trans haccesses)
      exact ⟨htold.symm, hopened.symm⟩
    rcases hread with ⟨hopen, hasking, hrefused⟩ | ⟨hopen, hgoes⟩
    · obtain ⟨rfl, hopened⟩ := hfirst hopen
      exact ⟨asking, status, haccesses, .inl ⟨hopened, hasking, hrefused⟩⟩
    · obtain ⟨rfl, hopened⟩ := hfirst hopen
      exact ⟨asking, status, haccesses, .inr ⟨hopened, hgoes⟩⟩
  · rintro ⟨asking, status, haccesses, hread⟩
    refine ⟨_, asking, status, haccesses, ?_⟩
    rw [perform_eq_iff, perform_eq_iff] at hread
    exact hread

end Operation

open Operation in
/-- **Which answers are taken for a block**, on every bus. A block is read if and only if the session
was opened; the card was asked for the block, and its answer came in, in time and without errors; it is
whole; and the session was ended. The block is the first sixteen octets of that answer. Every other
answer is malformed, and the outcome tells how many octets and bits it has; and no other outcome tells
that.

An access fails if and only if an error of the bus is the outcome. If none does and the session was
opened, then the card is asked, unless the reader takes too long to compute the checksum of the request,
and what the reader shows then tells the outcome. If the session was refused, the card is asked for
nothing. -/
theorem readBlock_exact {σ : Type} [RegisterBus σ] (role : Role) (block : UInt8) (uid : Uid) (s : σ) :
    let opened := ((authenticateDefault block uid).perform role s).1
    let opening := (authenticateDefault block uid).trace role s
    let accesses := (readBlock block uid).trace role s
    let result := ((readBlock block uid).perform role s).1
    (∀ d, result = .ok d ↔ opened = .ok () ∧ ∃ v asking status, Answered block v asking ∧
      accesses = opening ++ (asking ++ ending status) ∧ v.Whole ∧ d = v.octets.take 16) ∧
    (∀ n bits, result = .error (.malformedAnswer n bits) ↔ opened = .ok () ∧
      ∃ v asking status, Answered block v asking ∧ accesses = opening ++ (asking ++ ending status) ∧
      ¬ v.Whole ∧ n = v.octets.length ∧ bits = v.bits) ∧
    (Flawless accesses ↔ ∀ e, result ≠ .error (.bus e)) ∧
    (Flawless accesses → ∃ asking status, accesses = opening ++ (asking ++ ending status) ∧
      (opened = .error .authFailed ∧ asking = [] ∧ result = .error .authFailed ∨
        opened = .ok () ∧ (Unsummed [0x30, block] asking ∧ result = .error .timeout ∨
          ∃ v, Asked block v asking ∧ result = v.reading))) := by
  intro opened opening accesses result
  have hmade : (readBlock block uid).Makes accesses result := makes_trace role _ s
  have hflawless : Flawless accesses ↔ ∀ e, result ≠ .error (.bus e) :=
    (prompt_bind prompt_authenticateDefault fun _ => prompt_parts.readOpen block).closing_flawless_iff hmade
  have htold : ∀ r, Judged r → (result = r ↔ opened = .ok () ∧ ∃ v asking status,
      Answered block v asking ∧ accesses = opening ++ (asking ++ ending status) ∧ r = v.block) := by
    intro r hr
    have hbus : ∀ e, r ≠ .error (.bus e) := by
      rintro e rfl
      exact hr
    rw [perform_readBlock_iff hbus]
    constructor
    · rintro ⟨asking, status, haccesses, ⟨-, -, rfl⟩ | ⟨hopened, hgoes⟩⟩
      · exact hr.elim
      · rcases goes_readOpen.1 hgoes with ⟨-, rfl⟩ | ⟨v, hasked⟩
        · exact hr.elim
        · obtain ⟨hanswered, hblock⟩ := (Showing.asked_judged_iff hr).1 hasked
          exact ⟨hopened, v, asking, status, hanswered, haccesses, hblock⟩
    · rintro ⟨hopened, v, asking, status, hanswered, haccesses, hblock⟩
      have hasked := (Showing.asked_judged_iff hr).2 ⟨hanswered, hblock⟩
      exact ⟨asking, status, haccesses, .inr ⟨hopened, goes_readOpen.2 (.inr ⟨v, hasked⟩)⟩⟩
  refine ⟨fun d => ?_, fun n bits => ?_, hflawless, fun hall => ?_⟩
  · simp only [htold (.ok d) trivial, Showing.ok_eq_block]
  · simp only [htold (.error (.malformedAnswer n bits)) trivial, Showing.malformedAnswer_eq_block]
  · obtain ⟨asking, status, haccesses, hread⟩ := (perform_readBlock_iff (hflawless.1 hall)).1 rfl
    refine ⟨asking, status, haccesses, hread.imp_right ?_⟩
    exact And.imp_right goes_readOpen.1

/-- A field with a selected card at the entry that has no key A, and whose block 4 holds a text. -/
def namedField : Field :=
  Field.new.set .entry {
    card := some (SimCard.setBlock { uid := ⟨1, 2, 3, 4⟩, acceptsA := false } 4 (UserText.encode "Ana"))
    selected := true }

open Operation in
/-- The session is opened with key B, and the whole answer is taken. -/
theorem readBlock_exact_named :
    ((readBlock 4 ⟨1, 2, 3, 4⟩).perform .entry namedField).1 = .ok (UserText.encode "Ana") ∧
      ((authenticateDefault 4 ⟨1, 2, 3, 4⟩).perform .entry namedField).1 = .ok () ∧
      Flawless ((readBlock 4 ⟨1, 2, 3, 4⟩).trace .entry namedField) ∧
      ∃ v asking, Answered 4 v asking ∧ v.Whole ∧ UserText.encode "Ana" = v.octets.take 16 := by
  obtain ⟨hread, -, hflawless, -⟩ := readBlock_exact .entry 4 ⟨1, 2, 3, 4⟩ namedField
  have hok : ((readBlock 4 ⟨1, 2, 3, 4⟩).perform .entry namedField).1 = .ok (UserText.encode "Ana") := by
    decide +kernel
  obtain ⟨hopened, v, asking, status, hanswered, -, hwhole, hdata⟩ := (hread _).1 hok
  refine ⟨hok, hopened, hflawless.2 ?_, v, asking, hanswered, hwhole, hdata⟩
  rw [hok]
  exact nofun

open Operation in
/-- A card whose answer comes short is not read: ten octets are no block. -/
example : ((do readBlock 4 (← identify)).perform .entry
    ((Field.new.present .entry { uid := ⟨1, 2, 3, 4⟩ }).inject .entry (.shortRead 10))).1 =
      .error (.malformedAnswer 10 80) := by decide +kernel

end Turnstile

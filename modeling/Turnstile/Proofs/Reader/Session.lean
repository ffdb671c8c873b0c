import Turnstile.Proofs.Reader.Exchange

/-!
# Sessions, access by access

* `identify_calm`: no session is needed to find out which card is there.
* `SessionOpen`: a reader has shown that a session is open for a block.
* `makes_authenticateDefault`: at most two keys are tried, and success leaves a session open.
* `Acknowledged`: a card has acknowledged the octets that were sent to it.
* `makes_submit`: octets are sent at most once, and success leaves them acknowledged.
-/

namespace Turnstile

/-- Whether a key was tried for a block and the reader has shown the session open since; no
access touched the session after that. -/
def SessionOpen (block : UInt8) (uid : Uid) (past : List Access) : Prop :=
  ∃ (kind : KeyKind) (before during later : List Access) (v : UInt8),
    past = before ++ .write Reg.command ReaderCommand.authenticate (.ok ()) ::
      (during ++ .read Reg.status2 (.ok v) :: later) ∧
    loaded before = [kind.command, block] ++ factoryKey ++ uid.bytes ∧ v &&& 0x08 ≠ 0 ∧
    ∀ a ∈ during ++ later, a.Calm

/-- Whether octets are loaded, followed by the checksum that was read while they were loaded
alone. -/
def LoadedClosed (data : Bytes) (past : List Access) : Prop :=
  ∃ (before later : List Access) (low high : UInt8),
    past = before ++ .read Reg.crcLow (.ok low) :: .read Reg.crcHigh (.ok high) :: later ∧
    loaded before = data ∧ loaded past = data ++ [low, high]

/-- The accesses that fetch an acknowledgement: one octet of which four bits are valid, and these
are `0x0A`. -/
def Acknowledges (t : List Access) : Prop :=
  ∃ level octet control : UInt8,
    t = [.read Reg.fifoLevel (.ok level), .read Reg.fifoData (.ok octet),
      .read Reg.control (.ok control)] ∧
    level &&& 0x7F = 1 ∧ control &&& 0x07 = 4 ∧ octet &&& 0x0F = 0x0A

/-- Whether the last that was sent to the card are these octets with their checksum, and the
answer to them was an acknowledgement. -/
def Acknowledged (data : Bytes) (past : List Access) : Prop :=
  ∃ before during answer later : List Access,
    past = before ++ .write Reg.command ReaderCommand.transceive (.ok ()) ::
      (during ++ (answer ++ later)) ∧
    LoadedClosed data before ∧ Acknowledges answer ∧ (∀ a ∈ during ++ later, a.Silent)

theorem SessionOpen.append {block : UInt8} {uid : Uid} {past t : List Access}
    (h : SessionOpen block uid past) (ht : ∀ a ∈ t, a.Calm) :
    SessionOpen block uid (past ++ t) := by
  obtain ⟨kind, before, during, later, v, rfl, hload, hv, hquiet⟩ := h
  refine ⟨kind, before, during, later ++ t, v, by simp, hload, hv, fun a ha => ?_⟩
  rw [← List.append_assoc] at ha
  exact (List.mem_append.1 ha).elim (hquiet a) (ht a)

theorem Acknowledged.append {data : Bytes} {past t : List Access} (h : Acknowledged data past)
    (ht : ∀ a ∈ t, a.Silent) : Acknowledged data (past ++ t) := by
  obtain ⟨before, during, answer, later, rfl, hload, hanswer, hquiet⟩ := h
  refine ⟨before, during, answer, later ++ t, by simp, hload, hanswer, fun a ha => ?_⟩
  rw [← List.append_assoc] at ha
  exact (List.mem_append.1 ha).elim (hquiet a) (ht a)

namespace Operation

variable {t : List Access}

/-! ## Identification -/

section Kinds

variable {accepted : Access → Prop} (hframing : ∀ v o, accepted (.write Reg.bitFraming v o))
  (hclosed : ∀ data, Keeps accepted (closed data)) (hsend : ∀ send, Keeps accepted (transceive send))

include hframing hsend in
theorem keeps_request : Keeps accepted request := by
  refine keeps_bind (keeps_writeReg (hframing _)) fun _ =>
    keeps_bind (keeps_absentUnlessBus (hsend _)) fun frame => ?_
  split
  · exact keeps_pure _
  · exact keeps_throw _

include hframing hsend in
theorem keeps_anticollision : Keeps accepted anticollision := by
  refine keeps_bind (keeps_writeReg (hframing _)) fun _ =>
    keeps_bind (keeps_absentUnlessBus (hsend _)) fun frame => ?_
  split
  · exact keeps_ite (keeps_bind (keeps_throw _) fun _ => keeps_pure _) (keeps_pure _)
  · exact keeps_ite (keeps_bind (keeps_throw _) fun _ => keeps_throw _) (keeps_throw _)

include hclosed hsend in
theorem keeps_select (uid : Uid) : Keeps accepted (select uid) := by
  refine keeps_bind (hclosed _) fun _ => keeps_bind (hsend _) fun answer => ?_
  split
  · exact keeps_throw _
  · exact keeps_bind (keeps_note _) fun _ => keeps_pure _

include hframing hclosed hsend in
theorem keeps_identify : Keeps accepted identify :=
  keeps_bind (keeps_request hframing hsend) fun _ =>
  keeps_bind (keeps_anticollision hframing hsend) fun uid =>
  keeps_bind (keeps_select hclosed hsend uid) fun _ => keeps_pure uid

end Kinds

theorem identify_calm : Keeps Access.Calm identify :=
  keeps_identify (fun v o => .inl (silent_of_ne (by decide) v o))
    (fun data => keeps_mono (closed_silent data) fun _ h => .inl h) transceive_calm

/-! ## Keys -/

section Keys

variable {kind : KeyKind} {block : UInt8} {key : Bytes} {uid : Uid}

theorem keeps_authenticate {accepted : Access → Prop} (hstatus : ∀ o, accepted (.read Reg.status2 o))
    (hkey : ∀ send, Keeps accepted (communicate ReaderCommand.authenticate send)) :
    Keeps accepted (authenticate kind block key uid) :=
  keeps_bind (hkey _) fun _ =>
  keeps_bind (keeps_readReg hstatus) fun _ =>
  keeps_ite (keeps_bind (keeps_note _) fun _ => keeps_throw _) (keeps_pure ())

theorem authenticate_atMost :
    AtMost 1 (Access.starts ReaderCommand.authenticate) (authenticate kind block key uid) :=
  atMost_bind (n := 0) (communicate_atMost (.inl rfl)) fun _ => atMost_of_keeps <|
  keeps_bind (keeps_readReg fun _ => rfl) fun _ =>
  keeps_ite (keeps_bind (keeps_note _) fun _ => keeps_throw _) (keeps_pure ())

/-- **A key that is accepted leaves a session open.** -/
theorem makes_authenticate_ok {u : Unit}
    (h : (authenticate kind block factoryKey uid).Makes t (.ok u)) (past : List Access) :
    SessionOpen block uid (past ++ t) := by
  obtain ⟨t₁, _, frame, rfl, hrun, hrest⟩ := makes_bind_ok.1 h
  obtain ⟨_, _, v, rfl, hstatus, hend⟩ := makes_bind_ok.1 hrest
  obtain rfl := makes_readReg_ok.1 hstatus
  rcases makes_communicate hrun with ⟨-, e, herror⟩ |
    ⟨before, o, after, rfl, -, hafter, hload, hok⟩
  · cases herror
  obtain ⟨rfl, -⟩ := hok frame rfl
  split at hend
  · -- the bit is not set: the key was rejected
    obtain ⟨_, _, _, -, -, hthrow⟩ := makes_bind_ok.1 hend
    cases (makes_throw.1 hthrow).2
  · next hv =>
    obtain ⟨rfl, -⟩ := makes_pure.1 hend
    refine ⟨kind, past ++ before, after, [], v, by simp, hload past, hv, ?_⟩
    rw [List.append_nil]
    exact fun a ha => .inl (hafter a ha)

/-- What comes of both keys, from what came of the second: all but success and a failure of the bus is
that neither was accepted. -/
def settled : Except CardError Unit → Except CardError Unit
  | .ok () => .ok ()
  | .error (.bus e) => .error (.bus e)
  | .error _ => .error .authFailed

theorem settled_eq_ok {r : Except CardError Unit} : settled r = .ok () ↔ r = .ok () := by
  rcases r with (_ | _ | _ | _ | _ | _ | _) | u
  all_goals simp [settled]

theorem settled_eq_bus {r : Except CardError Unit} {e : BusError} :
    settled r = .error (.bus e) ↔ r = .error (.bus e) := by
  rcases r with (_ | _ | _ | _ | _ | _ | _) | u
  all_goals simp [settled]

/-- **The second key is tried when the first one was refused**, and not when it was accepted or when
the bus failed. -/
theorem makes_authenticateDefault {r : Except CardError Unit}
    (h : (authenticateDefault block uid).Makes t r) :
    ((authenticate .a block factoryKey uid).Makes t r ∧ (r = .ok () ∨ ∃ e, r = .error (.bus e))) ∨
    ∃ t₁ t₂ e r₂, t = t₁ ++ t₂ ∧ (authenticate .a block factoryKey uid).Makes t₁ (.error e) ∧
      (∀ b, e ≠ .bus b) ∧ (authenticate .b block factoryKey uid).Makes t₂ r₂ ∧ r = settled r₂ := by
  obtain ⟨t₁, t₂, r₁, rfl, h₁, h₂⟩ :=
    (Script.makes_bind (authenticate .a block factoryKey uid).run _ t r).1 h
  cases r₁ with
  | ok u =>
    obtain ⟨rfl, rfl⟩ := h₂
    rw [List.append_nil]
    exact .inl ⟨h₁, .inl rfl⟩
  | error e =>
    -- the second key is not tried after a failure of the bus
    cases e with
    | bus e =>
      obtain ⟨rfl, rfl⟩ := h₂
      rw [List.append_nil]
      exact .inl ⟨h₁, .inr ⟨e, rfl⟩⟩
    | _ =>
      obtain ⟨t₃, t₄, r₂, rfl, h₃, h₄⟩ :=
        (Script.makes_bind (authenticate .b block factoryKey uid).run _ t₂ r).1 h₂
      refine .inr ⟨t₁, t₃ ++ t₄, _, r₂, rfl, h₁, nofun, ?_⟩
      -- the outcome is settled without another access
      have hsettled : t₄ = [] ∧ r = settled r₂ := by
        rcases r₂ with (_ | _ | _ | _ | _ | _ | _) | u
        all_goals exact h₄
      obtain ⟨rfl, rfl⟩ := hsettled
      rw [List.append_nil]
      exact ⟨h₃, rfl⟩

theorem keeps_authenticateDefault {accepted : Access → Prop}
    (hstatus : ∀ o, accepted (.read Reg.status2 o))
    (hkey : ∀ send, Keeps accepted (communicate ReaderCommand.authenticate send)) :
    Keeps accepted (authenticateDefault block uid) := by
  intro t r hm a ha
  rcases makes_authenticateDefault hm with ⟨h, -⟩ | ⟨t₁, t₂, e, r₂, rfl, h₁, -, h₂, -⟩
  · exact keeps_authenticate hstatus hkey _ _ h a ha
  · rcases List.mem_append.1 ha with ha | ha
    · exact keeps_authenticate hstatus hkey _ _ h₁ a ha
    · exact keeps_authenticate hstatus hkey _ _ h₂ a ha

theorem authenticateDefault_keeps :
    Keeps (fun a => a.starts ReaderCommand.transceive = false) (authenticateDefault block uid) :=
  keeps_authenticateDefault (fun _ => rfl) fun _ =>
    communicate_keeps (fun _ h => h.transceive) fun _ => rfl

theorem authenticateDefault_atMost :
    AtMost 2 (Access.starts ReaderCommand.authenticate) (authenticateDefault block uid) := by
  intro t r hm
  rcases makes_authenticateDefault hm with ⟨h, -⟩ | ⟨t₁, t₂, e, r₂, rfl, h₁, -, h₂, -⟩
  · exact Nat.le_succ_of_le (authenticate_atMost _ _ h)
  · rw [List.countP_append]
    exact Nat.add_le_add (authenticate_atMost _ _ h₁) (authenticate_atMost _ _ h₂)

/-- **Success leaves a session open.** -/
theorem makes_authenticateDefault_ok (h : (authenticateDefault block uid).Makes t (.ok ()))
    (past : List Access) : SessionOpen block uid (past ++ t) := by
  rcases makes_authenticateDefault h with ⟨h, -⟩ | ⟨t₁, t₂, e, r₂, rfl, -, -, h₂, hsettled⟩
  · exact makes_authenticate_ok h past
  · rw [settled_eq_ok.1 hsettled.symm] at h₂
    rw [← List.append_assoc]
    exact makes_authenticate_ok h₂ (past ++ t₁)

end Keys

/-! ## Acknowledgements -/

/-- What is read when an answer is taken for an acknowledgement. -/
theorem acknowledges_of_isAck {frame : Frame} (hack : isAck frame = true) (h : Answers frame t) :
    Acknowledges t := by
  obtain ⟨level, control, rfl, hlen, hbits⟩ := h
  obtain ⟨data, bits⟩ := frame
  cases data with
  | nil => cases hack
  | cons octet data =>
    simp only [isAck, Bool.and_eq_true, decide_eq_true_eq] at hack
    have hcontrol : (control &&& 0x07).toNat < 8 :=
      octet_forall (p := fun v => (v &&& 0x07).toNat < 8) (by decide +kernel) control
    simp only [List.length_cons] at hlen hbits
    -- four bits are no whole octets, so a single one was received and cut short
    have hdata : data.length = 0 ∧ (control &&& 0x07).toNat = 4 := by
      rw [hack.1, validBits] at hbits
      split at hbits <;> omega
    obtain rfl := List.length_eq_zero_iff.1 hdata.1
    refine ⟨level, octet, control, rfl, UInt8.toNat.inj ?_, UInt8.toNat.inj hdata.2, hack.2⟩
    simp only [List.length_nil, fifoCapacity] at hlen
    show _ = 1
    omega

theorem makes_expectAck {frame : Frame} {r : Except CardError Unit} :
    (expectAck frame).Makes t r ↔
      t = [] ∧ r = if isAck frame then .ok () else .error .notAcknowledged := by
  rw [expectAck]
  split <;> rfl

/-- Octets that are loaded after their checksum was computed are loaded with it. -/
theorem loadedClosed_append {data frame : Bytes} {before : List Access}
    (h : (closed data).Makes t (.ok frame)) (hload : ∀ past, loaded (past ++ before) = frame)
    (past : List Access) : LoadedClosed data (past ++ (t ++ before)) := by
  obtain ⟨t₁, low, high, rfl, hdata, rfl⟩ := makes_closed h
  refine ⟨past ++ t₁, before, low, high, by simp, hdata past, ?_⟩
  rw [← List.append_assoc]
  exact hload _

/-- Sends octets with their checksum, which the card is to acknowledge. -/
def submit (data : Bytes) : Operation Unit := do
  let frame ← closed data
  let answer ← transceive frame
  expectAck answer

theorem writeOpen_eq (block : UInt8) (data : Bytes) :
    writeOpen block data = (do submit [CardCommand.write, block]; submit data) := by
  simp only [writeOpen, submit, bind_assoc]

/-- **Octets that are to be acknowledged.** Either they are not sent, and that fails; or they
are sent once, with their checksum, and success means that they were acknowledged. -/
theorem makes_submit {data : Bytes} {r : Except CardError Unit} (h : (submit data).Makes t r) :
    ((∀ a ∈ t, a.Silent) ∧ ∃ e, r = .error e) ∨
    ∃ before o after, t = before ++ .write Reg.command ReaderCommand.transceive o :: after ∧
      (∀ a ∈ before, a.Silent) ∧ (∀ a ∈ after, a.Silent) ∧
      (∀ past, LoadedClosed data (past ++ before)) ∧
      (r = .ok () → ∀ past, Acknowledged data (past ++ t)) := by
  rcases makes_bind.1 h with ⟨e, hfail, rfl⟩ | ⟨t₁, _, frame, rfl, hclosed, hrest⟩
  · exact .inl ⟨closed_silent data _ _ hfail, e, rfl⟩
  have hquiet : ∀ t, (∀ a ∈ t, a.Silent) → ∀ a ∈ t₁ ++ t, a.Silent :=
    fun t ht a ha => (List.mem_append.1 ha).elim (closed_silent data _ _ hclosed a) (ht a)
  rcases makes_bind.1 hrest with ⟨e, hfail, rfl⟩ | ⟨_, t₃, answer, rfl, hrun, hack⟩
  · rcases makes_communicate hfail with ⟨ht, -⟩ | ⟨before, o, after, rfl, hbefore, hafter, hload, -⟩
    · exact .inl ⟨hquiet _ ht, e, rfl⟩
    · exact .inr ⟨t₁ ++ before, o, after, by simp, hquiet _ hbefore, hafter,
        loadedClosed_append hclosed hload, nofun⟩
  · rcases makes_communicate hrun with ⟨-, e, herror⟩ |
      ⟨before, o, after, rfl, hbefore, hafter, hload, hok⟩
    · cases herror
    obtain ⟨rfl, t₄, _, rfl, hend⟩ := hok answer rfl
    obtain ⟨t₅, t₆, rfl, hanswer⟩ := makes_conclude hend
    obtain ⟨rfl, hr⟩ := makes_expectAck.1 hack
    refine .inr ⟨t₁ ++ before, .ok (), t₄ ++ (t₅ ++ t₆), by simp, hquiet _ hbefore, hafter,
      loadedClosed_append hclosed hload, ?_⟩
    rintro rfl past
    have htaken : isAck answer = true := by
      by_contra hno
      simp [hno] at hr
    refine ⟨past ++ (t₁ ++ before), t₄ ++ t₅, t₆, [], by simp, loadedClosed_append hclosed hload past,
      acknowledges_of_isAck htaken hanswer, fun a ha => hafter a ?_⟩
    rw [List.append_nil] at ha
    rw [← List.append_assoc]
    exact List.mem_append_left t₆ ha

theorem keeps_submit {accepted : Access → Prop} (hclosed : ∀ data, Keeps accepted (closed data))
    (hsend : ∀ send, Keeps accepted (transceive send)) (data : Bytes) : Keeps accepted (submit data) :=
  keeps_bind (hclosed data) fun _ =>
  keeps_bind (hsend _) fun _ => keeps_ite (keeps_pure ()) (keeps_throw _)

theorem submit_calm (data : Bytes) : Keeps Access.Calm (submit data) :=
  keeps_submit (fun data => keeps_mono (closed_silent data) fun _ h => .inl h) transceive_calm data

theorem submit_atMost (data : Bytes) :
    AtMost 1 (Access.starts ReaderCommand.transceive) (submit data) :=
  atMost_bind (m := 0) (atMost_of_keeps (keeps_mono (closed_silent data) fun _ h => h.transceive)) fun _ =>
  atMost_bind (n := 0) (communicate_atMost (.inr rfl)) fun _ =>
  atMost_of_keeps (keeps_ite (keeps_pure ()) (keeps_throw _))

/-- Octets are sent only when they are loaded, and nothing was sent since the operation began. -/
theorem submit_onlyAfter {data : Bytes} {r : Except CardError Unit} {past : List Access}
    {G : List Access → Prop} (h : (submit data).Makes t r)
    (hG : ∀ before, (∀ a ∈ before, a.Silent) → LoadedClosed data (past ++ before) →
      G (past ++ before)) :
    OnlyAfter (Access.starts ReaderCommand.transceive) G past t := by
  rcases makes_submit h with ⟨hquiet, -⟩ | ⟨before, o, after, rfl, hbefore, hafter, hload, -⟩
  · exact onlyAfter_of_none fun a ha => (hquiet a ha).transceive
  · exact onlyAfter_once (hG before hbefore (hload past)) (fun a ha => (hbefore a ha).transceive)
      fun a ha => (hafter a ha).transceive

theorem makes_submit_ok {data : Bytes} (h : (submit data).Makes t (.ok ())) (past : List Access) :
    Acknowledged data (past ++ t) := by
  rcases makes_submit h with ⟨-, e, herror⟩ | ⟨_, _, _, -, -, -, -, hok⟩
  · cases herror
  · exact hok rfl past

end Operation

end Turnstile

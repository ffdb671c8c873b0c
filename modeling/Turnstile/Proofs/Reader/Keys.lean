import Turnstile.Proofs.Reader.Session
import Turnstile.Proofs.Reader.Showing
import Turnstile.Register.Spi

/-!
# Which keys are tried

A session is opened with the factory key, which a card may know as its key A or as its key B.

* `Tries`, `Attempts`: a key is tried once, or an access fails before that.
* `ShownOpen`: the last key that was tried has opened a session, and the reader has shown it.
* `goes_authenticate`, `makes_authenticate_told`: what comes of one key.
* `keys_tried`: **the key is tried as key A and then, if that was refused, as key B**; success is what
  the reader has shown, and all but a failure of the bus is one error.
* `no_key_tried`: a bus that fails at once leaves no key tried.
-/

namespace Turnstile

/-- The octets with which a key is tried. -/
def keyOctets (kind : UInt8) (block : UInt8) (uid : Uid) : Bytes :=
  [kind, block, 0xFF, 0xFF, 0xFF, 0xFF, 0xFF, 0xFF] ++ uid.bytes

/-- Whether the command that tries a key was started once, with these octets in the buffer, and no
other command that reaches a card. -/
def Tries (octets : Bytes) (t : List Access) : Prop :=
  ∃ before o after, t = before ++ .write Reg.command ReaderCommand.authenticate o :: after ∧
    (∀ a ∈ before, a.Silent) ∧ (∀ a ∈ after, a.Silent) ∧ loaded before = octets

/-- Whether a key is tried, unless an access fails before that. -/
def Attempts (octets : Bytes) (t : List Access) : Prop :=
  Tries octets t ∨ (∀ a ∈ t, a.Silent) ∧ ∃ e, BreaksOff t e

/-- Whether the last command that was started has tried a key, it ended in time and without errors, and
the reader has shown after that that a session is open. -/
def ShownOpen (block : UInt8) (uid : Uid) (t : List Access) : Prop :=
  ∃ (before : List Access) (kind : KeyKind) (v : Showing) (status : UInt8),
    t = before ++ v.accesses ReaderCommand.authenticate (keyOctets kind.command block uid) ++
      [.got Reg.status2 status] ∧
    v.Fits ReaderCommand.authenticate ∧ v.ended ReaderCommand.authenticate = true ∧
    v.errors &&& 0x1B = 0 ∧ status &&& 0x08 ≠ 0

theorem Attempts.ne_nil {octets : Bytes} {t : List Access} (h : Attempts octets t) : t ≠ [] := by
  rcases h with ⟨before, o, after, rfl, -⟩ | ⟨-, e, hbreaks⟩
  · simp
  · exact hbreaks.ne_nil

theorem Tries.starts {octets : Bytes} {t : List Access} (h : Tries octets t) :
    t.countP (Access.starts ReaderCommand.authenticate) = 1 := by
  obtain ⟨before, o, after, rfl, hbefore, hafter, -⟩ := h
  rw [List.countP_append, List.countP_cons,
    List.countP_eq_zero.2 fun a ha => by simp [(hbefore a ha).authenticate],
    List.countP_eq_zero.2 fun a ha => by simp [(hafter a ha).authenticate]]
  rfl

theorem ShownOpen.append {block : UInt8} {uid : Uid} {t : List Access} (h : ShownOpen block uid t)
    (past : List Access) : ShownOpen block uid (past ++ t) := by
  obtain ⟨before, kind, v, status, rfl, h⟩ := h
  exact ⟨past ++ before, kind, v, status, by simp, h⟩

theorem ShownOpen.getLast? {block : UInt8} {uid : Uid} {t : List Access} (h : ShownOpen block uid t) :
    ∃ status, t.getLast? = some (.got Reg.status2 status) ∧ status &&& 0x08 ≠ 0 := by
  obtain ⟨before, kind, v, status, rfl, -, -, -, hstatus⟩ := h
  exact ⟨status, by simp, hstatus⟩

namespace Showing

variable {octets : Bytes} (v : Showing)

/-- A command that tries a key does not end with a look at the session. -/
theorem accesses_getLast? (status : UInt8) :
    (v.accesses ReaderCommand.authenticate octets).getLast? ≠ some (.got Reg.status2 status) := by
  -- no answer is fetched, so the errors come last, or the framing if the command is not over
  have hcommand : ReaderCommand.authenticate ≠ ReaderCommand.transceive := by decide
  have hreg : Reg.error ≠ Reg.status2 := by decide
  have hinquiring : v.inquiring ReaderCommand.authenticate = [.got Reg.error v.errors] := by
    simp [inquiring, hcommand]
  unfold accesses
  split
  · simp [hinquiring, hreg, List.getLast?_cons]
  · simp [awaiting, List.getLast?_cons]

end Showing

namespace Operation

variable {kind : KeyKind} {block : UInt8} {uid : Uid} {t : List Access} {r : Except CardError Unit}

/-! ## One key -/

theorem prompt_authenticate {key : Bytes} : Prompt (authenticate kind block key uid) :=
  prompt_parts.authenticate kind block key uid

/-- **A key whose accesses all succeed** is accepted if and only if its command is over in time and
without errors, and the reader shows the session open. -/
theorem goes_authenticate : (authenticate kind block factoryKey uid).Goes t r ↔
    ∃ v : Showing, v.Fits ReaderCommand.authenticate ∧
      ((∃ e, v.outcome ReaderCommand.authenticate = .error e ∧
          t = v.accesses ReaderCommand.authenticate (keyOctets kind.command block uid) ∧
          r = .error e) ∨
        ∃ frame status, v.outcome ReaderCommand.authenticate = .ok frame ∧
          t = v.accesses ReaderCommand.authenticate (keyOctets kind.command block uid) ++
            [.got Reg.status2 status] ∧
          r = if status &&& 0x08 = 0 then .error .authFailed else .ok ()) := by
  have hcheck : ∀ status rest, (if status &&& 0x08 = 0 then do
      note (.keyRejected status kind block); throw .authFailed else pure () : Operation Unit).Goes rest r ↔
      rest = [] ∧ r = if status &&& 0x08 = 0 then .error .authFailed else .ok () := by
    intro status rest
    split
    · exact goes_throw
    · exact goes_pure
  rw [authenticate, goes_bind]
  simp only [goes_communicate, goes_readReg_bind, hcheck]
  constructor
  · rintro (⟨e, ⟨v, hv, rfl, hout⟩, rfl⟩ | ⟨_, _, frame, rfl, ⟨v, hv, rfl, hout⟩, status, _, rfl, rfl, rfl⟩)
    · exact ⟨v, hv, .inl ⟨e, hout.symm, rfl, rfl⟩⟩
    · exact ⟨v, hv, .inr ⟨frame, status, hout.symm, rfl, rfl⟩⟩
  · rintro ⟨v, hv, ⟨e, hout, rfl, rfl⟩ | ⟨frame, status, hout, rfl, rfl⟩⟩
    · exact .inl ⟨e, ⟨v, hv, rfl, hout.symm⟩, rfl⟩
    · exact .inr ⟨_, _, frame, rfl, ⟨v, hv, rfl, hout.symm⟩, status, [], rfl, rfl, rfl⟩

/-- What is told by the accesses of one key, and by its outcome. -/
structure KeyTold (kind : KeyKind) (block : UInt8) (uid : Uid) (t : List Access)
    (r : Except CardError Unit) : Prop where
  /-- The key was tried, unless an access failed before. -/
  tried : Attempts (keyOctets kind.command block uid) t
  /-- Success was shown. -/
  shown : r = .ok () → ShownOpen block uid t
  /-- What is shown at the end is success. -/
  accepted : ∀ status, t.getLast? = some (.got Reg.status2 status) → status &&& 0x08 ≠ 0 → r = .ok ()

/-- Success is what is shown at the end, whatever was done before. -/
theorem KeyTold.ok_iff (h : KeyTold kind block uid t r) (past : List Access) :
    r = .ok () ↔ ShownOpen block uid (past ++ t) := by
  constructor
  · intro hok
    exact (h.shown hok).append past
  · -- the last access is one of this key, since the key has made some
    intro hopen
    obtain ⟨status, hlast, hstatus⟩ := hopen.getLast?
    rw [List.getLast?_append_of_ne_nil _ h.tried.ne_nil] at hlast
    exact h.accepted status hlast hstatus

/-- A key is tried once, or not at all. -/
theorem makes_authenticate_tries (h : (authenticate kind block factoryKey uid).Makes t r) :
    Tries (keyOctets kind.command block uid) t ∨ ∀ a ∈ t, a.Silent := by
  -- the session is looked at after the command, if that has ended well, and nothing else is started
  have hstarted : ∀ {t₁ r₁} rest, (communicate ReaderCommand.authenticate
      ([kind.command, block] ++ factoryKey ++ uid.bytes)).Makes t₁ r₁ → (∀ a ∈ rest, a.Silent) →
      Tries (keyOctets kind.command block uid) (t₁ ++ rest) ∨ ∀ a ∈ t₁ ++ rest, a.Silent := by
    intro t₁ r₁ rest h₁ hrest
    rcases makes_communicate h₁ with ⟨hsilent, -⟩ | ⟨before, o, after, rfl, hbefore, hafter, hload, -⟩
    · exact .inr fun a ha => (List.mem_append.1 ha).elim (hsilent a) (hrest a)
    · refine .inl ⟨before, o, after ++ rest, by simp, hbefore, fun a ha => ?_, hload []⟩
      exact (List.mem_append.1 ha).elim (hafter a) (hrest a)
  rcases makes_bind.1 h with ⟨e, hfail, -⟩ | ⟨t₁, t₂, frame, rfl, hrun, hend⟩
  · simpa using hstarted [] hfail (by simp)
  · have hlook : Keeps Access.Silent (do
        let status ← readReg Reg.status2
        if status &&& 0x08 = 0 then note (.keyRejected status kind block); throw .authFailed) :=
      keeps_bind (keeps_readReg fun _ => trivial) fun _ =>
      keeps_ite (keeps_bind (keeps_note _) fun _ => keeps_throw _) (keeps_pure ())
    exact hstarted t₂ hrun (hlook _ _ hend)

/-- **What comes of one key.** -/
theorem makes_authenticate_told (h : (authenticate kind block factoryKey uid).Makes t r) :
    KeyTold kind block uid t r := by
  have htries := makes_authenticate_tries h
  rcases prompt_authenticate.goes_or_breaksOff h with ⟨hgoes, -⟩ | ⟨e, hbreaks, rfl⟩
  · -- no access failed, so the command that tries the key was started
    have htried : Tries (keyOctets kind.command block uid) t := by
      refine htries.resolve_right fun hsilent => ?_
      obtain ⟨v, -, hv⟩ := goes_authenticate.1 hgoes
      have hstart : Access.put Reg.command ReaderCommand.authenticate ∈ t := by
        obtain ⟨e, -, rfl, -⟩ | ⟨frame, status, -, rfl, -⟩ := hv
        · simp [Showing.accesses]
        · simp [Showing.accesses]
      have hidle := (hsilent _ hstart).2 rfl
      exact absurd hidle (by decide)
    obtain ⟨v, hv, ⟨e, hout, rfl, rfl⟩ | ⟨frame, status, hout, rfl, rfl⟩⟩ := goes_authenticate.1 hgoes
    · exact ⟨.inl htried, by simp, fun status hlast => absurd hlast (v.accesses_getLast? status)⟩
    · obtain ⟨hended, herrors, -⟩ := (v.outcome_eq_ok_iff _).1 hout
      refine ⟨.inl htried, fun hok => ?_, fun status' hlast hstatus => ?_⟩
      · have hstatus : status &&& 0x08 ≠ 0 := fun hzero => by
          rw [if_pos hzero] at hok
          cases hok
        exact ⟨[], kind, v, status, rfl, hv, hended, herrors, hstatus⟩
      · obtain rfl : status = status' := by simpa using hlast
        exact if_neg hstatus
  · exact ⟨htries.imp_right fun hsilent => ⟨hsilent, e, hbreaks⟩, by simp,
      fun status hlast => absurd hlast hbreaks.getLast?_ne⟩

/-! ## Both keys -/

/-- No access has failed if a key was refused. -/
theorem flawless_of_refused {key : Bytes} {e : CardError}
    (h : (authenticate kind block key uid).Makes t (.error e)) (he : ∀ b, e ≠ .bus b) : Flawless t :=
  prompt_authenticate.flawless_of_ne_bus h fun b hb => he b (Except.error.inj hb)

theorem prompt_authenticateDefault : Prompt (authenticateDefault block uid) := by
  intro t r h
  rcases makes_authenticateDefault h with ⟨h₁, -⟩ | ⟨t₁, t₂, e, r₂, rfl, h₁, he, h₂, rfl⟩
  · exact prompt_authenticate t r h₁
  have hfirst : Flawless t₁ := flawless_of_refused h₁ he
  rcases prompt_authenticate t₂ r₂ h₂ with ⟨hsecond, hr⟩ | ⟨b, hbreaks, rfl⟩
  · exact .inl ⟨flawless_append.2 ⟨hfirst, hsecond⟩, fun b hb => hr b (settled_eq_bus.1 hb)⟩
  · exact .inr ⟨b, hbreaks.after hfirst, rfl⟩

theorem settled_cases (r : Except CardError Unit) :
    settled r = .ok () ∨ (∃ e, settled r = .error (.bus e)) ∨ settled r = .error .authFailed := by
  rcases r with (_ | _ | _ | _ | _ | _ | e) | u
  case error.bus => exact .inr (.inl ⟨e, rfl⟩)
  case ok => exact .inl rfl
  all_goals exact .inr (.inr rfl)

theorem authenticateDefault_outcome (h : (authenticateDefault block uid).Makes t r) :
    r = .ok () ∨ (∃ e, r = .error (.bus e)) ∨ r = .error .authFailed := by
  rcases makes_authenticateDefault h with ⟨-, hr⟩ | ⟨_, _, _, r₂, -, -, -, -, rfl⟩
  · exact hr.imp_right .inl
  · exact settled_cases r₂

/-- The second key is tried if no access has failed and no session was shown, and then it decides the
outcome. -/
theorem makes_authenticateDefault_told (h : (authenticateDefault block uid).Makes t r) :
    KeyTold .a block uid t r ∧ ¬ (Flawless t ∧ ¬ ShownOpen block uid t) ∨
    ∃ t₁ t₂ r₁ r₂, t = t₁ ++ t₂ ∧ KeyTold .a block uid t₁ r₁ ∧ Flawless t₁ ∧
      ¬ ShownOpen block uid t₁ ∧ KeyTold .b block uid t₂ r₂ ∧ r = settled r₂ := by
  rcases makes_authenticateDefault h with ⟨h₁, hr⟩ | ⟨t₁, t₂, e, r₂, rfl, h₁, he, h₂, hr⟩
  · have told := makes_authenticate_told h₁
    refine .inl ⟨told, ?_⟩
    rintro ⟨hflawless, hclosed⟩
    rcases hr with hok | ⟨e, hbus⟩
    · exact hclosed (told.shown hok)
    · exact ((prompt_authenticate.bus_iff h₁).1 hbus).not_flawless hflawless
  · have told := makes_authenticate_told h₁
    have hclosed : ¬ ShownOpen block uid t₁ := fun hopen => nomatch (told.ok_iff []).2 hopen
    exact .inr ⟨t₁, t₂, _, r₂, rfl, told, flawless_of_refused h₁ he, hclosed,
      makes_authenticate_told h₂, hr⟩

/-- Success is that the last key has opened a session. -/
theorem makes_authenticateDefault_ok_iff (h : (authenticateDefault block uid).Makes t r) :
    r = .ok () ↔ ShownOpen block uid t := by
  rcases makes_authenticateDefault_told h with ⟨told, -⟩ | ⟨t₁, t₂, r₁, r₂, rfl, -, -, -, told, rfl⟩
  · exact told.ok_iff []
  · rw [settled_eq_ok]
    exact told.ok_iff t₁

/-- At least one key is tried, unless the bus fails. -/
theorem makes_authenticateDefault_none (h : (authenticateDefault block uid).Makes t r)
    (hnone : t.countP (Access.starts ReaderCommand.authenticate) = 0) : ∃ e, BreaksOff t e := by
  rcases makes_authenticateDefault_told h with ⟨told, -⟩ | ⟨t₁, t₂, r₁, r₂, rfl, told, hflawless, -⟩
  · rcases told.tried with htries | ⟨-, hbreaks⟩
    · rw [htries.starts] at hnone
      cases hnone
    · exact hbreaks
  · -- the first key was tried if the second was
    rcases told.tried with htries | ⟨-, e, hbreaks⟩
    · rw [List.countP_append, htries.starts] at hnone
      omega
    · exact absurd hflawless hbreaks.not_flawless

end Operation

/-- **Which keys are tried, and what comes of it**, on every bus. The factory key is tried as key A,
unless an access fails before that; and then as key B, if no access has failed and no session was
shown, unless an access fails before that. So at most two keys are tried, and at least one unless the
bus fails. Success is that the last key that was tried has opened a session, as the reader has shown
after its command was over in time and without errors. An access that fails is the last one, and its
error is the outcome. In all other cases the outcome is that neither key was accepted. -/
theorem keys_tried {σ : Type} [RegisterBus σ] (role : Role) (block : UInt8) (uid : Uid) (s : σ) :
    let accesses := (Operation.authenticateDefault block uid).trace role s
    let result := ((Operation.authenticateDefault block uid).perform role s).1
    (∃ first second, accesses = first ++ second ∧ Attempts (keyOctets 0x60 block uid) first ∧
      (second ≠ [] → Attempts (keyOctets 0x61 block uid) second) ∧
      (second ≠ [] ↔ Flawless first ∧ ¬ ShownOpen block uid first)) ∧
    accesses.countP (Access.starts ReaderCommand.authenticate) ≤ 2 ∧
    (accesses.countP (Access.starts ReaderCommand.authenticate) = 0 → ∃ e, BreaksOff accesses e) ∧
    (result = .ok () ↔ ShownOpen block uid accesses) ∧
    (∀ e, result = .error (.bus e) ↔ BreaksOff accesses e) ∧
    (result = .error .authFailed ↔ Flawless accesses ∧ ¬ ShownOpen block uid accesses) := by
  intro accesses result
  have hmade : (Operation.authenticateDefault block uid).Makes accesses result :=
    Operation.makes_trace role _ s
  have hok : result = .ok () ↔ ShownOpen block uid accesses :=
    Operation.makes_authenticateDefault_ok_iff hmade
  have hbus : ∀ e, result = .error (.bus e) ↔ BreaksOff accesses e :=
    fun e => Operation.prompt_authenticateDefault.bus_iff hmade
  refine ⟨?_, Operation.authenticateDefault_atMost _ _ hmade,
    Operation.makes_authenticateDefault_none hmade, hok, hbus, ?_⟩
  · rcases Operation.makes_authenticateDefault_told hmade with
      ⟨told, hdone⟩ | ⟨first, second, _, _, haccesses, told, hfirst, hclosed, told', -⟩
    · exact ⟨accesses, [], (List.append_nil _).symm, told.tried, nofun, by simpa using hdone⟩
    · exact ⟨first, second, haccesses, told.tried, fun _ => told'.tried, fun _ => ⟨hfirst, hclosed⟩,
        fun _ => told'.tried.ne_nil⟩
  -- what is neither success nor a failure of the bus is that one error
  rw [← hok]
  constructor
  · intro hfailed
    refine ⟨Operation.prompt_authenticateDefault.flawless_of_ne_bus hmade fun e => ?_, ?_⟩
    all_goals simp [hfailed]
  · rintro ⟨hflawless, hnot⟩
    rcases Operation.authenticateDefault_outcome hmade with hyes | ⟨e, hfail⟩ | hfailed
    · exact absurd hyes hnot
    · exact absurd hflawless ((hbus e).1 hfail).not_flawless
    · exact hfailed

/-- **No key is tried on a bus that fails at once**: the outcome is the error of the first access. -/
theorem no_key_tried :
    let failing : SpiBus ScriptedDevice := ⟨⟨{ faults := [(0, .transfer .other)] }, {}⟩, false, []⟩
    ((Operation.authenticateDefault 8 ⟨1, 2, 3, 4⟩).trace .entry failing).countP
        (Access.starts ReaderCommand.authenticate) = 0 ∧
      ((Operation.authenticateDefault 8 ⟨1, 2, 3, 4⟩).perform .entry failing).1 =
        .error (.bus (.transfer .other)) := by
  decide +kernel

end Turnstile

import Turnstile.Proofs.Reader.Session
import Turnstile.Simulation.Field

/-!
# What is sent to a card that is written

A card is asked for a block, agrees, is sent the data, and agrees again.

* `WriteDue`: what must have been seen before anything is sent.
* `writeBlock_guarded`: **nothing is sent before it is due**, and success means that the card
  acknowledged the data and the session was ended.
-/

namespace Turnstile.Operation

variable {σ : Type} {block : UInt8} {uid : Uid} {data : Bytes} {past t : List Access}

/-- Whether octets may be sent while a block is written: a session is open for the block, and
either nothing was sent yet and the request is loaded, or the request was acknowledged and the
data are loaded. -/
def WriteDue (block : UInt8) (uid : Uid) (data : Bytes) (past : List Access) : Prop :=
  SessionOpen block uid past ∧
  ((∀ a ∈ past, a.starts ReaderCommand.transceive = false) ∧
      LoadedClosed [CardCommand.write, block] past ∨
    Acknowledged [CardCommand.write, block] past ∧ LoadedClosed data past)

theorem stopCrypto_starts {command : UInt8} : Keeps (fun a => a.starts command = false) stopCrypto :=
  keeps_clearBits (fun _ => rfl) fun _ _ => rfl

/-- At most two keys are tried. -/
theorem writeBlock_keys :
    AtMost 2 (Access.starts ReaderCommand.authenticate) (writeBlock block uid data) := by
  rw [writeBlock, writeOpen_eq]
  refine atMost_closing (n := 0) (atMost_bind (n := 0) authenticateDefault_atMost fun _ => ?_) ?_
  · exact atMost_of_keeps (keeps_mono (keeps_bind (submit_calm _) fun _ => submit_calm data)
      fun _ h => h.authenticate)
  · exact atMost_of_keeps stopCrypto_starts

/-- At most two frames are sent. -/
theorem writeBlock_frames :
    AtMost 2 (Access.starts ReaderCommand.transceive) (writeBlock block uid data) := by
  rw [writeBlock, writeOpen_eq]
  refine atMost_closing (n := 0) (atMost_bind (m := 0) (n := 2) ?_ fun _ => ?_) ?_
  · exact atMost_of_keeps authenticateDefault_keeps
  · exact atMost_bind (submit_atMost _) fun _ => submit_atMost data
  · exact atMost_of_keeps stopCrypto_starts

/-- Within a session, the request is sent first, and the data once it is acknowledged. -/
theorem writeOpen_onlyAfter {r : Except CardError Unit} (h : (writeOpen block data).Makes t r)
    (hopen : SessionOpen block uid past)
    (hfresh : ∀ a ∈ past, a.starts ReaderCommand.transceive = false) :
    OnlyAfter (Access.starts ReaderCommand.transceive) (WriteDue block uid data) past t := by
  -- the request is due as soon as the session is open, whatever becomes of it
  have hrequest : ∀ {t r}, (submit [CardCommand.write, block]).Makes t r →
      OnlyAfter (Access.starts ReaderCommand.transceive) (WriteDue block uid data) past t := by
    intro t r h
    refine submit_onlyAfter h fun before hbefore hload => ⟨?_, .inl ⟨fun a ha => ?_, hload⟩⟩
    · exact hopen.append fun a ha => .inl (hbefore a ha)
    · exact (List.mem_append.1 ha).elim (hfresh a) fun ha => (hbefore a ha).transceive
  rw [writeOpen_eq] at h
  rcases makes_bind.1 h with ⟨e, hfail, -⟩ | ⟨t₁, t₂, _, rfl, hok, hrest⟩
  · exact hrequest hfail
  refine onlyAfter_append (hrequest hok) (submit_onlyAfter hrest fun before hbefore hload => ?_)
  refine ⟨?_, .inr ⟨(makes_submit_ok hok past).append hbefore, hload⟩⟩
  exact (hopen.append (submit_calm _ _ _ hok)).append fun a ha => .inl (hbefore a ha)

theorem makes_writeOpen_ok (h : (writeOpen block data).Makes t (.ok ())) (past : List Access) :
    Acknowledged data (past ++ t) := by
  rw [writeOpen_eq] at h
  obtain ⟨t₁, t₂, _, rfl, -, h⟩ := makes_bind_ok.1 h
  rw [← List.append_assoc]
  exact makes_submit_ok h (past ++ t₁)

/-- **The order of a write.** On every bus: nothing is sent to the card before it is due;
success means that the card acknowledged the data, and that the session was ended after that;
and at most two keys are tried and at most two frames are sent. -/
theorem writeBlock_guarded [RegisterBus σ] (role : Role) (block : UInt8) (uid : Uid) (data : Bytes)
    (s : σ) :
    OnlyAfter (Access.starts ReaderCommand.transceive) (WriteDue block uid data) []
      ((writeBlock block uid data).trace role s) ∧
    (((writeBlock block uid data).perform role s).1 = .ok () → ∃ past v,
      (writeBlock block uid data).trace role s =
        past ++ [.read Reg.status2 (.ok v), .write Reg.status2 (v &&& ~~~0x08) (.ok ())] ∧
      Acknowledged data past) ∧
    ((writeBlock block uid data).trace role s).countP (Access.starts ReaderCommand.authenticate) ≤ 2 ∧
    ((writeBlock block uid data).trace role s).countP (Access.starts ReaderCommand.transceive) ≤ 2 := by
  obtain ⟨t₁, t₂, r₁, r₂, htrace, hopen, hstop, hr⟩ :=
    makes_closing (makes_trace role (writeBlock block uid data) s)
  rw [htrace, hr]
  refine ⟨onlyAfter_append ?_ (onlyAfter_of_none (stopCrypto_starts _ _ hstop)), ?_,
    htrace ▸ writeBlock_keys _ _ (makes_trace role _ s),
    htrace ▸ writeBlock_frames _ _ (makes_trace role _ s)⟩
  · rcases makes_bind.1 hopen with ⟨e, hfail, -⟩ | ⟨t₃, t₄, _, rfl, hok, hwrite⟩
    · exact onlyAfter_of_none (authenticateDefault_keeps _ _ hfail)
    · exact onlyAfter_append (onlyAfter_of_none (authenticateDefault_keeps _ _ hok))
        (writeOpen_onlyAfter hwrite (makes_authenticateDefault_ok hok [])
          (authenticateDefault_keeps _ _ hok))
  · intro hok
    cases r₂ with
    | error e => cases hok
    | ok u =>
      obtain rfl : r₁ = .ok () := hok
      obtain ⟨v, rfl⟩ := makes_clearBits_ok.1 hstop
      obtain ⟨t₃, t₄, _, rfl, -, hwrite⟩ := makes_bind_ok.1 hopen
      exact ⟨t₃ ++ t₄, v, rfl, makes_writeOpen_ok hwrite t₃⟩

/-- A card that accepts the key is written. -/
example : ((do writeBlock 4 (← identify) (List.replicate 16 0x41)).perform .entry
    (Field.new.present .entry { uid := ⟨1, 2, 3, 4⟩ })).1 = .ok () := by decide +kernel

end Turnstile.Operation

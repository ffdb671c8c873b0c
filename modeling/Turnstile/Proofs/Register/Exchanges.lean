import Turnstile.Proofs.Register.Separate

/-!
# What goes over a serial bus

An exchange is made both ways at once, so every octet that is sent brings one back. Only one of
those that come back counts: the second, when a register is read.

* `Access.pair`: the two octets that an access sends.
* `SpiBus.Sends.run`: a script sends the two octets of every access that it makes and nothing
  else, as long as no device breaks down.
* `SpiDevice.Matches`: two devices whose answers agree where they count.
* `SpiBus.alike`: buses with such devices answer alike, and are sent the same octets.
-/

namespace Turnstile

/-- The two octets that an access sends. -/
def Access.pair : Access → UInt8 × UInt8
  | .read reg _ => (readAddress reg, 0)
  | .write reg value _ => (writeAddress reg, value)

/-! ## What is sent -/

namespace SpiBus

variable {δ : Type}

/-- What was sent to the devices, oldest first. -/
def sent (b : SpiBus δ) : List (Role × (UInt8 × UInt8)) :=
  b.exchanges.reverse.map fun x => (x.role, x.sent)

/-- Whether a bus came out of another one by sending these octets. When a device breaks down, the
rest of them stays unsent. -/
structure Sends (b after : SpiBus δ) (pairs : List (Role × (UInt8 × UInt8))) : Prop where
  stuck : b.poisoned = true → after = b
  some : after.sent <+: b.sent ++ pairs
  all : after.poisoned = false → after.sent = b.sent ++ pairs

theorem Sends.refl (b : SpiBus δ) : Sends b b [] where
  stuck := fun _ => rfl
  some := List.prefix_append _ _
  all := fun _ => (List.append_nil _).symm

theorem Sends.trans {b c d : SpiBus δ} {first second : List (Role × (UInt8 × UInt8))}
    (h₁ : Sends b c first) (h₂ : Sends c d second) : Sends b d (first ++ second) where
  stuck := by
    intro hb
    have hc : c = b := h₁.stuck hb
    rw [h₂.stuck (hc ▸ hb), hc]
  some := by
    rw [← List.append_assoc]
    cases hc : c.poisoned with
    | true =>
      -- the bus was out of use in between, so the second part sent nothing
      rw [h₂.stuck hc]
      exact h₁.some.trans (List.prefix_append _ _)
    | false =>
      rw [← h₁.all hc]
      exact h₂.some
  all := by
    intro hd
    -- a bus that is out of use stays so
    have hc : c.poisoned = false := by
      rw [← Bool.not_eq_true]
      intro hc
      rw [h₂.stuck hc, hc] at hd
      cases hd
    rw [h₂.all hd, h₁.all hc, List.append_assoc]

variable [SpiDevice δ]

/-- An exchange sends its octets, unless the bus is out of use. -/
theorem exchange_sends (b : SpiBus δ) (role : Role) (pair : UInt8 × UInt8) :
    Sends b (b.exchange role pair).2 [(role, pair)] := by
  cases hb : b.poisoned with
  | true =>
    have hexchange : (b.exchange role pair).2 = b := by simp [exchange, hb]
    rw [hexchange]
    exact ⟨fun _ => rfl, List.prefix_append _ _, fun h => absurd (hb.symm.trans h) (by decide)⟩
  | false =>
    have hsent : (b.exchange role pair).2.sent = b.sent ++ [(role, pair)] := by
      unfold exchange
      rw [if_neg (by simp [hb])]
      generalize SpiDevice.transfer (b.devices.get role) pair = answer
      obtain ⟨(fault | _) | received, device⟩ := answer
      all_goals simp [sent]
    rw [Bool.eq_false_iff] at hb
    exact ⟨fun h => absurd h hb, hsent ▸ List.prefix_rfl, fun _ => hsent⟩

/-- **What a script sends**: the octets of its accesses, one exchange for each. -/
theorem Sends.run {ν α : Type} (x : Script ν α) (role : Role) (b : SpiBus δ) :
    Sends b (x.run role b).2.1 ((x.trace role b).map fun a => (role, a.pair)) := by
  induction x generalizing b with
  | done a => exact .refl b
  | read reg next ih => exact (exchange_sends b role (readAddress reg, 0)).trans (ih _ _)
  | write reg value next ih => exact (exchange_sends b role (writeAddress reg, value)).trans (ih _ _)
  | note n next ih => exact ih b

/-- Whether a bus is in use, and stays so. -/
structure Sound (b : SpiBus δ) : Prop where
  used : b.poisoned = false
  steady : ∀ role, SpiDevice.Steady (b.devices.get role)

theorem Sound.exchange {b : SpiBus δ} (h : b.Sound) (role : Role) (pair : UInt8 × UInt8) :
    (b.exchange role pair).2.Sound where
  used := by
    have hanswer := ((h.steady role).transfer pair).1
    unfold SpiBus.exchange
    rw [if_neg (by simp [h.used])]
    generalize SpiDevice.transfer (b.devices.get role) pair = answer at hanswer
    obtain ⟨(fault | _) | received, device⟩ := answer
    · exact h.used
    · exact absurd rfl hanswer
    · exact h.used
  steady := by
    -- each device is the other device for someone
    have hfit : ∀ side, b.FitFor side := fun _ other _ => h.steady other
    intro side
    cases side with
    | entry => exact exchange_fit (hfit .exit) role pair .entry (by decide)
    | exit => exact exchange_fit (hfit .entry) role pair .exit (by decide)

/-- A script leaves a bus in use if no device breaks down. -/
theorem Sound.run {ν α : Type} {b : SpiBus δ} (h : b.Sound) (x : Script ν α) (role : Role) :
    (x.run role b).2.1.Sound :=
  Script.run_preserves (fun _ reg hs => hs.exchange role (readAddress reg, 0))
    (fun _ reg value _ _ hs => hs.exchange role (writeAddress reg, value)) (fun _ _ => trivial) h

end SpiBus

/-! ## What comes back -/

namespace SpiDevice

/-- Whether two answers to the same octets come to the same: both fail in the same way, or both
succeed, with the same second octet if a register is read. -/
def SameAnswer (sent : UInt8 × UInt8) :
    Except SpiFault (UInt8 × UInt8) → Except SpiFault (UInt8 × UInt8) → Prop
  | .ok received, .ok other => sent.1 &&& 0x80 ≠ 0 → received.2 = other.2
  | .error fault, .error other => fault = other
  | _, _ => False

variable {δ ε : Type} [SpiDevice δ] [SpiDevice ε]

/-- Whether the answers of two devices always come to the same, whatever was exchanged before. -/
def Matches (d : δ) (e : ε) : Prop :=
  ∀ before sent, SameAnswer sent (transfer (after d before) sent).1 (transfer (after e before) sent).1

theorem Matches.transfer {d : δ} {e : ε} (h : Matches d e) (sent : UInt8 × UInt8) :
    SameAnswer sent (SpiDevice.transfer d sent).1 (SpiDevice.transfer e sent).1 ∧
      Matches (SpiDevice.transfer d sent).2 (SpiDevice.transfer e sent).2 :=
  ⟨h [] sent, fun before => h (sent :: before)⟩

end SpiDevice

namespace SpiBus

variable {δ ε : Type} [SpiDevice δ] [SpiDevice ε]

/-- Whether two buses have devices that match, and were sent the same. -/
structure Matches (b : SpiBus δ) (c : SpiBus ε) : Prop where
  devices : ∀ role, SpiDevice.Matches (b.devices.get role) (c.devices.get role)
  poisoned : b.poisoned = c.poisoned
  sent : b.sent = c.sent

/-- Exchanges with devices that match come to the same, and the devices match after them. -/
theorem Matches.exchange {b : SpiBus δ} {c : SpiBus ε} (h : b.Matches c) (role : Role)
    (pair : UInt8 × UInt8) :
    (b.exchange role pair).1.map (fun _ => ()) = (c.exchange role pair).1.map (fun _ => ()) ∧
      (pair.1 &&& 0x80 ≠ 0 →
        (b.exchange role pair).1.map Prod.snd = (c.exchange role pair).1.map Prod.snd) ∧
      (b.exchange role pair).2.Matches (c.exchange role pair).2 := by
  cases hb : b.poisoned with
  | true =>
    have hc : c.poisoned = true := h.poisoned ▸ hb
    have hleft : b.exchange role pair = (.error .poisoned, b) := by simp [SpiBus.exchange, hb]
    have hright : c.exchange role pair = (.error .poisoned, c) := by simp [SpiBus.exchange, hc]
    rw [hleft, hright]
    exact ⟨rfl, fun _ => rfl, h⟩
  | false =>
    have hc : c.poisoned = false := h.poisoned ▸ hb
    obtain ⟨hanswer, hdevice⟩ := (h.devices role).transfer pair
    unfold SpiBus.exchange
    rw [if_neg (by simp [hb]), if_neg (by simp [hc])]
    generalize SpiDevice.transfer (b.devices.get role) pair = left at hanswer hdevice
    generalize SpiDevice.transfer (c.devices.get role) pair = right at hanswer hdevice
    obtain ⟨answer, device⟩ := left
    obtain ⟨answer', device'⟩ := right
    have hdevices : ∀ side, SpiDevice.Matches ((b.devices.set role device).get side)
        ((c.devices.set role device').get side) := by
      intro side
      by_cases hside : side = role
      · rw [hside, Sides.get_set_self, Sides.get_set_self]
        exact hdevice
      · rw [Sides.get_set_of_ne _ hside, Sides.get_set_of_ne _ hside]
        exact h.devices side
    have hlog : ∀ received received', SpiBus.sent
        ({ b with exchanges := ⟨role, pair, received⟩ :: b.exchanges } : SpiBus δ) = SpiBus.sent
        ({ c with exchanges := ⟨role, pair, received'⟩ :: c.exchanges } : SpiBus ε) := by
      intro received received'
      have hsent : b.exchanges.reverse.map (fun x => (x.role, x.sent)) =
          c.exchanges.reverse.map fun x => (x.role, x.sent) := h.sent
      simp [SpiBus.sent, hsent]
    cases answer with
    | ok received =>
      cases answer' with
      | error fault => exact hanswer.elim
      | ok received' =>
        exact ⟨rfl, fun hread => congrArg Except.ok (hanswer hread), hdevices, h.poisoned, hlog _ _⟩
    | error fault =>
      cases answer' with
      | ok received' => exact hanswer.elim
      | error fault' =>
        obtain rfl : fault = fault' := hanswer
        cases fault with
        | transfer fault => exact ⟨rfl, fun _ => rfl, hdevices, h.poisoned, hlog _ _⟩
        | crash => exact ⟨rfl, fun _ => rfl, hdevices, rfl, hlog _ _⟩

/-- The octet that starts a read says so. -/
theorem readAddress_high (reg : UInt8) : readAddress reg &&& 0x80 ≠ 0 :=
  octet_forall (p := fun reg => readAddress reg &&& 0x80 ≠ 0) (by decide +kernel) reg

/-- **Buses with devices that match answer alike.** Of a write nothing that comes back is looked
at, and of a read the second octet only. -/
theorem alike (role : Role) : Alike role (Matches (δ := δ) (ε := ε)) where
  read := by
    intro b c reg h
    obtain ⟨-, hvalue, hafter⟩ := h.exchange role (readAddress reg, 0)
    exact ⟨hvalue (readAddress_high reg), hafter⟩
  write := by
    intro b c reg value h
    obtain ⟨hdone, -, hafter⟩ := h.exchange role (writeAddress reg, value)
    exact ⟨hdone, hafter⟩

end SpiBus

end Turnstile

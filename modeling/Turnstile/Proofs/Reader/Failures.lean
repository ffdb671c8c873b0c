import Turnstile.Proofs.Reader.Parts
import Turnstile.Proofs.Reader.Trace

/-!
# Accesses that fail

A reader is worked as long as its registers can be reached. The first access that fails ends an
operation, and its error is the outcome; and where none fails, what is left to look at are the values
that were read.

* `Flawless`, `BreaksOff`: no access failed, or the last one did.
* `Operation.Prompt`: an operation is over as soon as an access fails, and not for any other error of
  the bus. `Operation.prompt_parts`: nothing more has to be said of the operations it is made of.
* `Operation.Goes`: the accesses of a run in which none fails, and its outcome. One equivalence for
  each kind of access, with whatever comes after it.
* `Operation.Polled`: the readings of a register that is read until a flag shows.
-/

namespace Turnstile

namespace Access

/-- A register was read. -/
abbrev got (reg v : UInt8) : Access := .read reg (.ok v)

/-- A register was written. -/
abbrev put (reg v : UInt8) : Access := .write reg v (.ok ())

/-- The error of an access that failed. -/
def failure : Access → Option BusError
  | read _ (.error e) => some e
  | write _ _ (.error e) => some e
  | _ => none

end Access

/-- Whether no access failed. -/
def Flawless (t : List Access) : Prop :=
  ∀ a ∈ t, a.failure = none

/-- Whether the last access failed, and none before it. -/
def BreaksOff (t : List Access) (e : BusError) : Prop :=
  ∃ before last, t = before ++ [last] ∧ Flawless before ∧ last.failure = some e

section Lists

variable {t t₁ t₂ : List Access} {a : Access} {e : BusError}

@[simp] theorem flawless_nil : Flawless [] := by
  simp [Flawless]

@[simp] theorem flawless_cons : Flawless (a :: t) ↔ a.failure = none ∧ Flawless t := by
  simp [Flawless]

@[simp] theorem flawless_append : Flawless (t₁ ++ t₂) ↔ Flawless t₁ ∧ Flawless t₂ := by
  simp [Flawless, or_imp, forall_and]

theorem BreaksOff.one (h : a.failure = some e) : BreaksOff [a] e :=
  ⟨[], a, rfl, flawless_nil, h⟩

theorem BreaksOff.after (h₁ : Flawless t₁) (h₂ : BreaksOff t₂ e) : BreaksOff (t₁ ++ t₂) e := by
  obtain ⟨before, last, rfl, hbefore, hlast⟩ := h₂
  exact ⟨t₁ ++ before, last, by simp, flawless_append.2 ⟨h₁, hbefore⟩, hlast⟩

theorem BreaksOff.not_flawless (h : BreaksOff t e) : ¬ Flawless t := by
  obtain ⟨before, last, rfl, -, hlast⟩ := h
  intro hflawless
  rw [hflawless last (by simp)] at hlast
  cases hlast

theorem BreaksOff.ne_nil (h : BreaksOff t e) : t ≠ [] := by
  obtain ⟨before, last, rfl, -⟩ := h
  simp

theorem BreaksOff.getLast?_ne {reg v : UInt8} (h : BreaksOff t e) : t.getLast? ≠ some (.got reg v) := by
  obtain ⟨before, last, rfl, -, hlast⟩ := h
  intro hgot
  obtain rfl : last = .got reg v := by simpa using hgot
  cases hlast

/-- Nothing breaks off twice. -/
theorem BreaksOff.unique {e' : BusError} (h : BreaksOff t e) (h' : BreaksOff t e') : e = e' := by
  obtain ⟨before, last, rfl, -, hlast⟩ := h
  obtain ⟨before', last', heq, -, hlast'⟩ := h'
  obtain ⟨-, hsame⟩ := List.append_inj' heq rfl
  obtain rfl : last = last' := (List.cons.inj hsame).1
  rw [hlast] at hlast'
  exact Option.some.inj hlast'

end Lists

/-- What a script did decides how it ends. -/
theorem Script.makes_unique {ν α : Type} {x : Script ν α} {t : List Access} {a b : α}
    (ha : x.Makes t a) (hb : x.Makes t b) : a = b := by
  -- both runs begin with the same access and the same outcome of it, so they go on alike
  induction x generalizing t with
  | done c => exact ha.2.trans hb.2.symm
  | read reg next ih =>
    obtain ⟨r, rest, rfl, ha⟩ := ha
    obtain ⟨r', rest', heq, hb⟩ := hb
    obtain ⟨⟨-, rfl⟩, rfl⟩ : (reg = reg ∧ r = r') ∧ rest = rest' := by simpa using heq
    exact ih r ha hb
  | write reg value next ih =>
    obtain ⟨r, rest, rfl, ha⟩ := ha
    obtain ⟨r', rest', heq, hb⟩ := hb
    obtain ⟨rfl, rfl⟩ : r = r' ∧ rest = rest' := by simpa using heq
    exact ih r ha hb
  | note n next ih => exact ih ha hb

namespace Operation

variable {α β σ : Type} {op : Operation α} {t : List Access} {r : Except CardError α}

/-- **The outcome on a bus is told by the accesses on that bus.** -/
theorem perform_eq_iff [RegisterBus σ] {role : Role} {s : σ} :
    (op.perform role s).1 = r ↔ op.Makes (op.trace role s) r := by
  constructor
  · rintro rfl
    exact makes_trace role op s
  · exact Script.makes_unique (makes_trace role op s)

/-! ## The first failure is the last access -/

/-- Whether an operation is over as soon as an access fails, with the error of that access, and fails
with no error of the bus otherwise. -/
def Prompt (op : Operation α) : Prop :=
  ∀ t r, op.Makes t r →
    (Flawless t ∧ ∀ e, r ≠ .error (.bus e)) ∨ ∃ e, BreaksOff t e ∧ r = .error (.bus e)

/-- **An error of the bus is the outcome if and only if an access failed**, and then it is that one. -/
theorem Prompt.bus_iff (h : Prompt op) (hm : op.Makes t r) {e : BusError} :
    r = .error (.bus e) ↔ BreaksOff t e := by
  rcases h t r hm with ⟨hflawless, hr⟩ | ⟨b, hbreaks, rfl⟩
  · exact ⟨fun hbus => absurd hbus (hr e), fun hbreaks => absurd hflawless hbreaks.not_flawless⟩
  · constructor
    · intro hbus
      obtain rfl : b = e := CardError.bus.inj (Except.error.inj hbus)
      exact hbreaks
    · intro hbreaks'
      rw [hbreaks.unique hbreaks']

theorem Prompt.flawless_of_ne_bus (h : Prompt op) (hm : op.Makes t r) (hr : ∀ e, r ≠ .error (.bus e)) :
    Flawless t := by
  rcases h t r hm with ⟨hflawless, -⟩ | ⟨e, -, hbus⟩
  · exact hflawless
  · exact absurd hbus (hr e)

theorem prompt_pure (a : α) : Prompt (pure a : Operation α) := by
  rintro t r ⟨rfl, rfl⟩
  exact .inl ⟨flawless_nil, nofun⟩

theorem prompt_throw {e : CardError} (he : ∀ b, e ≠ .bus b) : Prompt (throw e : Operation α) := by
  rintro t r ⟨rfl, rfl⟩
  exact .inl ⟨flawless_nil, fun b hb => he b (Except.error.inj hb)⟩

theorem prompt_note (n : Notice) : Prompt (note n) := by
  rintro t r ⟨rfl, rfl⟩
  exact .inl ⟨flawless_nil, nofun⟩

theorem prompt_readReg (reg : UInt8) : Prompt (readReg reg) := by
  intro t r h
  obtain ⟨o, rfl, rfl⟩ := makes_readReg.1 h
  cases o with
  | ok v => exact .inl ⟨by simp [Access.failure], nofun⟩
  | error e => exact .inr ⟨e, .one rfl, rfl⟩

theorem prompt_writeReg (reg value : UInt8) : Prompt (writeReg reg value) := by
  intro t r h
  obtain ⟨o, rfl, rfl⟩ := makes_writeReg.1 h
  cases o with
  | ok u => exact .inl ⟨by simp [Access.failure], nofun⟩
  | error e => exact .inr ⟨e, .one rfl, rfl⟩

theorem prompt_bind {f : α → Operation β} (h : Prompt op) (hf : ∀ a, Prompt (f a)) :
    Prompt (op >>= f) := by
  intro t r hm
  rcases makes_bind.1 hm with ⟨e, h₁, rfl⟩ | ⟨t₁, t₂, a, rfl, h₁, h₂⟩
  · rcases h t (.error e) h₁ with ⟨hflawless, hr⟩ | ⟨b, hbreaks, hr⟩
    · exact .inl ⟨hflawless, fun b hb => hr b (congrArg Except.error (Except.error.inj hb))⟩
    · exact .inr ⟨b, hbreaks, congrArg Except.error (Except.error.inj hr)⟩
  · -- the first part has not failed, so it is the second that decides
    rcases h t₁ (.ok a) h₁ with ⟨hflawless, -⟩ | ⟨b, -, hr⟩
    · rcases hf a t₂ r h₂ with ⟨hrest, hr⟩ | ⟨b, hbreaks, hr⟩
      · exact .inl ⟨flawless_append.2 ⟨hflawless, hrest⟩, hr⟩
      · exact .inr ⟨b, hbreaks.after hflawless, hr⟩
    · cases hr

/-- **Promptness passes from the parts of an operation to the whole.** -/
theorem prompt_parts : Compositional @Prompt where
  pure := prompt_pure
  throw := fun _ he => prompt_throw he
  note := prompt_note
  readReg := prompt_readReg
  writeReg := prompt_writeReg
  bind := prompt_bind

/-! ## Runs in which no access fails -/

/-- Whether an operation that meets these outcomes, of which none is a failure, makes these accesses
and ends so. -/
def Goes (op : Operation α) (t : List Access) (r : Except CardError α) : Prop :=
  op.Makes t r ∧ Flawless t

/-- Whatever a prompt operation does, it goes through or it breaks off. -/
theorem Prompt.goes_or_breaksOff (h : Prompt op) (hm : op.Makes t r) :
    (op.Goes t r ∧ ∀ e, r ≠ .error (.bus e)) ∨ ∃ e, BreaksOff t e ∧ r = .error (.bus e) := by
  rcases h t r hm with ⟨hflawless, hr⟩ | hbreaks
  · exact .inl ⟨⟨hm, hflawless⟩, hr⟩
  · exact .inr hbreaks

/-- A prompt operation with another outcome than an error of the bus goes through. -/
theorem Prompt.makes_iff_goes (h : Prompt op) (hr : ∀ e, r ≠ .error (.bus e)) :
    op.Makes t r ↔ op.Goes t r := by
  constructor
  · intro hm
    rcases h.goes_or_breaksOff hm with ⟨hgoes, -⟩ | ⟨e, -, hbus⟩
    · exact hgoes
    · exact absurd hbus (hr e)
  · exact And.left

theorem goes_pure {a : α} : (pure a : Operation α).Goes t r ↔ t = [] ∧ r = .ok a := by
  unfold Goes
  rw [makes_pure]
  constructor
  · exact And.left
  · rintro ⟨rfl, rfl⟩
    exact ⟨⟨rfl, rfl⟩, flawless_nil⟩

theorem goes_throw {e : CardError} : (throw e : Operation α).Goes t r ↔ t = [] ∧ r = .error e := by
  unfold Goes
  rw [makes_throw]
  constructor
  · exact And.left
  · rintro ⟨rfl, rfl⟩
    exact ⟨⟨rfl, rfl⟩, flawless_nil⟩

theorem goes_bind {f : α → Operation β} {r : Except CardError β} :
    (op >>= f).Goes t r ↔ (∃ e, op.Goes t (.error e) ∧ r = .error e) ∨
      ∃ t₁ t₂ a, t = t₁ ++ t₂ ∧ op.Goes t₁ (.ok a) ∧ (f a).Goes t₂ r := by
  unfold Goes
  rw [makes_bind]
  constructor
  · rintro ⟨⟨e, h, rfl⟩ | ⟨t₁, t₂, a, rfl, h₁, h₂⟩, hflawless⟩
    · exact .inl ⟨e, ⟨h, hflawless⟩, rfl⟩
    · rw [flawless_append] at hflawless
      exact .inr ⟨t₁, t₂, a, rfl, ⟨h₁, hflawless.1⟩, h₂, hflawless.2⟩
  · rintro (⟨e, ⟨h, hflawless⟩, rfl⟩ | ⟨t₁, t₂, a, rfl, ⟨h₁, hflawless₁⟩, h₂, hflawless₂⟩)
    · exact ⟨.inl ⟨e, h, rfl⟩, hflawless⟩
    · exact ⟨.inr ⟨t₁, t₂, a, rfl, h₁, h₂⟩, flawless_append.2 ⟨hflawless₁, hflawless₂⟩⟩

/-! ### One access, and what comes after it -/

section Bind

variable {reg mask value : UInt8} {r : Except CardError β}

theorem goes_throw_bind {e : CardError} {f : α → Operation β} :
    ((throw e : Operation α) >>= f).Goes t r ↔ t = [] ∧ r = .error e := by
  rw [goes_bind]
  simp [goes_throw]

theorem goes_readReg_bind {f : UInt8 → Operation β} :
    (readReg reg >>= f).Goes t r ↔ ∃ v rest, t = .got reg v :: rest ∧ (f v).Goes rest r := by
  rw [goes_bind]
  constructor
  · rintro (⟨e, ⟨h, hflawless⟩, -⟩ | ⟨t₁, t₂, v, rfl, ⟨h, -⟩, hrest⟩)
    · obtain ⟨o, rfl, ho⟩ := makes_readReg.1 h
      cases o with
      | ok v => cases ho
      | error b => simp [Access.failure] at hflawless
    · rw [makes_readReg_ok.1 h]
      exact ⟨v, t₂, rfl, hrest⟩
  · rintro ⟨v, rest, rfl, hrest⟩
    exact .inr ⟨[.got reg v], rest, v, rfl, ⟨makes_readReg_ok.2 rfl, by simp [Access.failure]⟩, hrest⟩

theorem goes_writeReg_bind {f : Unit → Operation β} :
    (writeReg reg value >>= f).Goes t r ↔ ∃ rest, t = .put reg value :: rest ∧ (f ()).Goes rest r := by
  rw [goes_bind]
  constructor
  · rintro (⟨e, ⟨h, hflawless⟩, -⟩ | ⟨t₁, t₂, u, rfl, ⟨h, -⟩, hrest⟩)
    · obtain ⟨o, rfl, ho⟩ := makes_writeReg.1 h
      cases o with
      | ok u => cases ho
      | error b => simp [Access.failure] at hflawless
    · rw [makes_writeReg_ok.1 h]
      exact ⟨t₂, rfl, hrest⟩
  · rintro ⟨rest, rfl, hrest⟩
    exact .inr ⟨[.put reg value], rest, (), rfl, ⟨makes_writeReg_ok.2 rfl, by simp [Access.failure]⟩,
      hrest⟩

theorem goes_setBits_bind {f : Unit → Operation β} :
    (setBits reg mask >>= f).Goes t r ↔
      ∃ v rest, t = .got reg v :: .put reg (v ||| mask) :: rest ∧ (f ()).Goes rest r := by
  simp only [setBits, bind_assoc, goes_readReg_bind, goes_writeReg_bind]
  constructor
  · rintro ⟨v, _, rfl, rest, rfl, hrest⟩
    exact ⟨v, rest, rfl, hrest⟩
  · rintro ⟨v, rest, rfl, hrest⟩
    exact ⟨v, _, rfl, rest, rfl, hrest⟩

theorem goes_clearBits_bind {f : Unit → Operation β} :
    (clearBits reg mask >>= f).Goes t r ↔
      ∃ v rest, t = .got reg v :: .put reg (v &&& ~~~mask) :: rest ∧ (f ()).Goes rest r := by
  simp only [clearBits, bind_assoc, goes_readReg_bind, goes_writeReg_bind]
  constructor
  · rintro ⟨v, _, rfl, rest, rfl, hrest⟩
    exact ⟨v, rest, rfl, hrest⟩
  · rintro ⟨v, rest, rfl, hrest⟩
    exact ⟨v, _, rfl, rest, rfl, hrest⟩

theorem goes_clearBits {r : Except CardError Unit} : (clearBits reg mask).Goes t r ↔
    ∃ v, t = [.got reg v, .put reg (v &&& ~~~mask)] ∧ r = .ok () := by
  rw [← bind_pure (clearBits reg mask), goes_clearBits_bind]
  simp [goes_pure]

theorem goes_writeAll_bind {bs : Bytes} {f : Unit → Operation β} :
    (writeAll reg bs >>= f).Goes t r ↔ ∃ rest, t = bs.map (.put reg) ++ rest ∧ (f ()).Goes rest r := by
  induction bs generalizing t with
  | nil => simp [writeAll]
  | cons b bs ih =>
    simp only [writeAll, bind_assoc, goes_writeReg_bind, ih]
    constructor
    · rintro ⟨_, rfl, rest, rfl, hrest⟩
      exact ⟨rest, rfl, hrest⟩
    · rintro ⟨rest, rfl, hrest⟩
      exact ⟨_, rfl, rest, rfl, hrest⟩

theorem goes_readMany_bind {n : Nat} {f : Bytes → Operation β} :
    (readMany reg n >>= f).Goes t r ↔
      ∃ vs rest, vs.length = n ∧ t = vs.map (.got reg) ++ rest ∧ (f vs).Goes rest r := by
  induction n generalizing t f with
  | zero => simp [readMany]
  | succ n ih =>
    simp only [readMany, bind_assoc, goes_readReg_bind, ih, pure_bind]
    constructor
    · rintro ⟨v, _, rfl, vs, rest, hlen, rfl, hrest⟩
      exact ⟨v :: vs, rest, by simp [hlen], rfl, hrest⟩
    · rintro ⟨vs, rest, hlen, rfl, hrest⟩
      obtain ⟨v, vs, rfl⟩ := List.exists_cons_of_length_eq_add_one hlen
      exact ⟨v, _, rfl, vs, rest, by simpa using hlen, rfl, hrest⟩

end Bind

/-! ### Flags that are waited for -/

/-- Whether one of the bits of a mask was set in a reading. -/
def shows (mask : UInt8) (readings : List UInt8) : Bool :=
  readings.any fun v => v &&& mask ≠ 0

/-- The readings of a register until one of the bits of a mask is set, at most so many. -/
structure Polled (mask : UInt8) (budget : Nat) (readings : List UInt8) : Prop where
  within : readings.length ≤ budget
  /-- The first reading that shows a bit is the last. -/
  first : ∀ v ∈ readings.dropLast, v &&& mask = 0
  /-- There is another reading as long as none shows a bit. -/
  spent : shows mask readings = false → readings.length = budget

theorem polled_zero {mask : UInt8} {readings : List UInt8} : Polled mask 0 readings ↔ readings = [] := by
  constructor
  · intro h
    exact List.length_eq_zero_iff.1 (Nat.le_zero.1 h.within)
  · rintro rfl
    exact ⟨Nat.le_refl 0, by simp, fun _ => rfl⟩

theorem polled_succ {mask : UInt8} {budget : Nat} {readings : List UInt8} :
    Polled mask (budget + 1) readings ↔ ∃ v rest, readings = v :: rest ∧
      (v &&& mask ≠ 0 ∧ rest = [] ∨ v &&& mask = 0 ∧ Polled mask budget rest) := by
  constructor
  · -- there is a first reading, or the budget would not be spent; nothing follows it if it shows a bit
    rintro ⟨hwithin, hfirst, hspent⟩
    cases readings with
    | nil => exact absurd (hspent rfl) (by simp)
    | cons v rest =>
      refine ⟨v, rest, rfl, ?_⟩
      by_cases hv : v &&& mask = 0
      · refine .inr ⟨hv, Nat.le_of_succ_le_succ hwithin, ?_, ?_⟩
        · intro w hw
          refine hfirst w ?_
          cases rest with
          | nil => simp at hw
          | cons u rest => exact List.mem_cons_of_mem _ hw
        · intro hnone
          have hlen := hspent (by simpa [shows, hv] using hnone)
          simpa using hlen
      · refine .inl ⟨hv, ?_⟩
        cases rest with
        | nil => rfl
        | cons u rest => exact absurd (hfirst v (by simp)) hv
  · rintro ⟨v, rest, rfl, ⟨hv, rfl⟩ | ⟨hv, hwithin, hfirst, hspent⟩⟩
    · exact ⟨by simp, by simp, fun hnone => by simp [shows, hv] at hnone⟩
    · refine ⟨Nat.succ_le_succ hwithin, ?_, ?_⟩
      · intro w hw
        cases rest with
        | nil => simp at hw
        | cons u rest =>
          rcases List.mem_cons.1 hw with rfl | hw
          · exact hv
          · exact hfirst w hw
      · intro hnone
        have hrest : shows mask rest = false := by simpa [shows, hv] using hnone
        rw [List.length_cons, hspent hrest]

theorem goes_pollUntil_bind {reg mask : UInt8} {budget : Nat} {f : Bool → Operation β}
    {r : Except CardError β} :
    (pollUntil reg mask budget >>= f).Goes t r ↔ ∃ readings rest, Polled mask budget readings ∧
      t = readings.map (.got reg) ++ rest ∧ (f (shows mask readings)).Goes rest r := by
  -- one reading, and then the others within a budget that is smaller by one
  induction budget generalizing t with
  | zero => simp [pollUntil, polled_zero, shows]
  | succ n ih =>
    simp only [pollUntil, bind_assoc, goes_readReg_bind, polled_succ]
    constructor
    · rintro ⟨v, t', rfl, hnext⟩
      split at hnext
      · next hv =>
        rw [pure_bind] at hnext
        refine ⟨[v], t', ⟨v, [], rfl, .inl ⟨hv, rfl⟩⟩, rfl, ?_⟩
        simpa [shows, hv] using hnext
      · next hv =>
        obtain ⟨readings, rest, hpolled, rfl, hrest⟩ := ih.1 hnext
        rw [not_not] at hv
        refine ⟨v :: readings, rest, ⟨v, readings, rfl, .inr ⟨hv, hpolled⟩⟩, rfl, ?_⟩
        simpa [shows, hv] using hrest
    · rintro ⟨_, rest, ⟨v, readings, rfl, ⟨hv, rfl⟩ | ⟨hv, hpolled⟩⟩, rfl, hrest⟩
      · refine ⟨v, rest, rfl, ?_⟩
        rw [if_pos hv, pure_bind]
        simpa [shows, hv] using hrest
      · refine ⟨v, readings.map (.got reg) ++ rest, rfl, ?_⟩
        rw [if_neg (not_not.2 hv)]
        refine ih.2 ⟨readings, rest, hpolled, rfl, ?_⟩
        simpa [shows, hv] using hrest

end Operation

end Turnstile

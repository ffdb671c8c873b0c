import Turnstile.Proofs.Register.Trace
import Turnstile.Reader.Basic

/-!
# What an operation does to the registers

An operation ends as soon as one of its parts fails.

* `makes_bind`: the accesses of an operation in two parts.
* `makes_closing`: the last part of an operation that is always closed.
* `Keeps`: all accesses of an operation are of one kind.
* `AtMost`: so many accesses of an operation are of one kind, and no more.
-/

namespace Turnstile.Operation

variable {α β σ : Type}

/-- The accesses that an operation makes on the reader of one side, oldest first. -/
def trace [RegisterBus σ] (role : Role) (op : Operation α) (s : σ) : List Access :=
  op.run.trace role s

/-- Whether an operation that meets these outcomes makes these accesses and ends so. -/
def Makes (op : Operation α) (t : List Access) (r : Except CardError α) : Prop :=
  op.run.Makes t r

/-- What a bus draws out of an operation is among what any bus could. -/
theorem makes_trace [RegisterBus σ] (role : Role) (op : Operation α) (s : σ) :
    op.Makes (op.trace role s) (op.perform role s).1 :=
  Script.makes_trace role op.run s

variable {t : List Access}

theorem makes_pure {a : α} {r : Except CardError α} :
    (pure a : Operation α).Makes t r ↔ t = [] ∧ r = .ok a := Iff.rfl

theorem makes_throw {e : CardError} {r : Except CardError α} :
    (throw e : Operation α).Makes t r ↔ t = [] ∧ r = .error e := Iff.rfl

/-- **An operation in two parts.** -/
theorem makes_bind {op : Operation α} {f : α → Operation β} {r : Except CardError β} :
    (op >>= f).Makes t r ↔ (∃ e, op.Makes t (.error e) ∧ r = .error e) ∨
      ∃ t₁ t₂ a, t = t₁ ++ t₂ ∧ op.Makes t₁ (.ok a) ∧ (f a).Makes t₂ r := by
  refine (Script.makes_bind op.run _ t r).trans ⟨?_, ?_⟩
  · rintro ⟨t₁, t₂, a | a, rfl, h₁, h₂⟩
    · obtain ⟨rfl, rfl⟩ := h₂
      rw [List.append_nil]
      exact .inl ⟨a, h₁, rfl⟩
    · exact .inr ⟨t₁, t₂, a, rfl, h₁, h₂⟩
  · rintro (⟨e, h, rfl⟩ | ⟨t₁, t₂, a, rfl, h₁, h₂⟩)
    · exact ⟨t, [], .error e, (List.append_nil t).symm, h, rfl, rfl⟩
    · exact ⟨t₁, t₂, .ok a, rfl, h₁, h₂⟩

theorem makes_readReg {reg : UInt8} {r : Except CardError UInt8} :
    (readReg reg).Makes t r ↔ ∃ o, t = [.read reg o] ∧ r = ofBus o := by
  constructor
  · rintro ⟨o, rest, rfl, rfl, rfl⟩; exact ⟨o, rfl, rfl⟩
  · rintro ⟨o, rfl, rfl⟩; exact ⟨o, [], rfl, rfl, rfl⟩

theorem makes_writeReg {reg value : UInt8} {r : Except CardError Unit} :
    (writeReg reg value).Makes t r ↔ ∃ o, t = [.write reg value o] ∧ r = ofBus o := by
  constructor
  · rintro ⟨o, rest, rfl, rfl, rfl⟩; exact ⟨o, rfl, rfl⟩
  · rintro ⟨o, rfl, rfl⟩; exact ⟨o, [], rfl, rfl, rfl⟩

/-- An operation that is closed makes its own accesses, then those that close it. -/
theorem makes_closing {op : Operation α} {last : Operation Unit} {r : Except CardError α}
    (h : (closing op last).Makes t r) :
    ∃ t₁ t₂ r₁ r₂, t = t₁ ++ t₂ ∧ op.Makes t₁ r₁ ∧ last.Makes t₂ r₂ ∧
      r = r₂.bind fun _ => r₁ := by
  obtain ⟨t₁, t₂, r₁, rfl, h₁, h₂⟩ := (Script.makes_bind op.run _ t r).1 h
  obtain ⟨t₃, t₄, r₂, rfl, h₃, h₄⟩ := (Script.makes_bind last.run _ t₂ r).1 h₂
  -- the outcome is chosen without another access
  have hend : t₄ = [] ∧ r = r₂.bind fun _ => r₁ := by
    cases r₂ with
    | error e => exact h₄
    | ok u => exact h₄
  obtain ⟨rfl, rfl⟩ := hend
  exact ⟨t₁, t₃, r₁, r₂, by rw [List.append_nil], h₁, h₃, rfl⟩

theorem makes_closing_of {op : Operation α} {last : Operation Unit} {t₁ t₂ : List Access}
    {r₁ : Except CardError α} {r₂ : Except CardError Unit} (h₁ : op.Makes t₁ r₁)
    (h₂ : last.Makes t₂ r₂) : (closing op last).Makes (t₁ ++ t₂) (r₂.bind fun _ => r₁) := by
  refine (Script.makes_bind op.run _ _ _).2 ⟨t₁, t₂, r₁, rfl, h₁, ?_⟩
  refine (Script.makes_bind last.run _ _ _).2 ⟨t₂, [], r₂, by simp, h₂, ?_⟩
  cases r₂ with
  | error e => exact ⟨rfl, rfl⟩
  | ok u => exact ⟨rfl, rfl⟩

/-! ## The bus after an operation -/

theorem perform_bind [RegisterBus σ] (role : Role) (op : Operation α) (f : α → Operation β) (s : σ) :
    ((op >>= f).perform role s).2.1 =
      match (op.perform role s).1 with
      | .ok a => ((f a).perform role (op.perform role s).2.1).2.1
      | .error _ => (op.perform role s).2.1 := by
  have hrun : (op >>= f).perform role s = (op.run.bind (ExceptT.bindCont f)).run role s := rfl
  rw [hrun, Script.run_bind]
  dsimp only [perform]
  cases (op.run.run role s).1 <;> rfl

/-- What an operation in two parts comes to. -/
theorem perform_bind_outcome [RegisterBus σ] (role : Role) (op : Operation α) (f : α → Operation β)
    (s : σ) :
    ((op >>= f).perform role s).1 =
      match (op.perform role s).1 with
      | .ok a => ((f a).perform role (op.perform role s).2.1).1
      | .error e => .error e := by
  have hrun : (op >>= f).perform role s = (op.run.bind (ExceptT.bindCont f)).run role s := rfl
  rw [hrun, Script.run_bind]
  dsimp only [perform]
  cases (op.run.run role s).1 <;> rfl

/-- Two operations in a row succeed if the first does and then the second does. -/
theorem perform_bind_ok [RegisterBus σ] {role : Role} {op : Operation α} {f : α → Operation β} {s : σ}
    {b : β} (h : ((op >>= f).perform role s).1 = .ok b) :
    ∃ a, (op.perform role s).1 = .ok a ∧ ((f a).perform role (op.perform role s).2.1).1 = .ok b := by
  rw [perform_bind_outcome] at h
  cases hfirst : (op.perform role s).1 with
  | error e =>
    rw [hfirst] at h
    cases h
  | ok a =>
    rw [hfirst] at h
    exact ⟨a, rfl, h⟩

theorem perform_closing [RegisterBus σ] (role : Role) (op : Operation α) (last : Operation Unit)
    (s : σ) :
    ((closing op last).perform role s).2.1 = (last.perform role (op.perform role s).2.1).2.1 := by
  simp only [perform, closing, ExceptT.run_mk, Script.bind_eq, Script.run_bind]
  cases (last.run.run role (op.run.run role s).2.1).1 <;> rfl

theorem perform_clearBits [RegisterBus σ] {role : Role} {s : σ} {reg mask v : UInt8}
    (h : (RegisterBus.read s role reg).1 = .ok v) :
    ((clearBits reg mask).perform role s).2.1 =
      (RegisterBus.write (RegisterBus.read s role reg).2 role reg (v &&& ~~~mask)).2 := by
  have hread : ((readReg reg).perform role s).1 = .ok v := congrArg ofBus h
  rw [clearBits, perform_bind, hread]
  rfl

/-! ## Operations that succeed -/

theorem ofBus_eq_ok {o : Except BusError α} {a : α} : .ok a = ofBus o ↔ o = .ok a := by
  cases o <;> simp [ofBus, eq_comm]

theorem makes_bind_ok {op : Operation α} {f : α → Operation β} {b : β} :
    (op >>= f).Makes t (.ok b) ↔
      ∃ t₁ t₂ a, t = t₁ ++ t₂ ∧ op.Makes t₁ (.ok a) ∧ (f a).Makes t₂ (.ok b) := by
  rw [makes_bind]
  simp

theorem makes_readReg_ok {reg v : UInt8} :
    (readReg reg).Makes t (.ok v) ↔ t = [.read reg (.ok v)] := by
  simp only [makes_readReg, ofBus_eq_ok, exists_eq_right]

theorem makes_writeReg_ok {reg value : UInt8} {u : Unit} :
    (writeReg reg value).Makes t (.ok u) ↔ t = [.write reg value (.ok ())] := by
  simp only [makes_writeReg, ofBus_eq_ok, exists_eq_right]

/-- A register that is changed is read and written once. -/
theorem makes_change_ok {reg : UInt8} {change : UInt8 → UInt8} {u : Unit} :
    (do writeReg reg (change (← readReg reg)) : Operation Unit).Makes t (.ok u) ↔
      ∃ v, t = [.read reg (.ok v), .write reg (change v) (.ok ())] := by
  simp only [makes_bind_ok, makes_readReg_ok, makes_writeReg_ok]
  constructor
  · rintro ⟨_, _, v, rfl, rfl, rfl⟩; exact ⟨v, rfl⟩
  · rintro ⟨v, rfl⟩; exact ⟨_, _, v, rfl, rfl, rfl⟩

theorem makes_setBits_ok {reg mask : UInt8} {u : Unit} :
    (setBits reg mask).Makes t (.ok u) ↔
      ∃ v, t = [.read reg (.ok v), .write reg (v ||| mask) (.ok ())] := makes_change_ok

theorem makes_clearBits_ok {reg mask : UInt8} {u : Unit} :
    (clearBits reg mask).Makes t (.ok u) ↔
      ∃ v, t = [.read reg (.ok v), .write reg (v &&& ~~~mask) (.ok ())] := makes_change_ok

theorem makes_writeAll_ok {reg : UInt8} {bs : Bytes} {u : Unit}
    (h : (writeAll reg bs).Makes t (.ok u)) : t = bs.map fun b => .write reg b (.ok ()) := by
  induction bs generalizing t with
  | nil => exact (makes_pure.1 h).1
  | cons b bs ih =>
    obtain ⟨t₁, t₂, _, rfl, h₁, h₂⟩ := makes_bind_ok.1 h
    rw [makes_writeReg_ok.1 h₁, ih h₂]
    rfl

theorem makes_readMany_ok {reg : UInt8} {n : Nat} {bs : Bytes}
    (h : (readMany reg n).Makes t (.ok bs)) :
    t = (bs.map fun b => .read reg (.ok b)) ∧ bs.length = n := by
  induction n generalizing t bs with
  | zero =>
    obtain ⟨rfl, hbs⟩ := makes_pure.1 h
    obtain rfl : bs = [] := Except.ok.inj hbs
    exact ⟨rfl, rfl⟩
  | succ n ih =>
    obtain ⟨t₁, t₂, b, rfl, h₁, h₂⟩ := makes_bind_ok.1 h
    obtain ⟨t₃, t₄, bs', rfl, h₃, h₄⟩ := makes_bind_ok.1 h₂
    obtain ⟨rfl, hbs⟩ := makes_pure.1 h₄
    obtain rfl : bs = b :: bs' := Except.ok.inj hbs
    obtain ⟨rfl, rfl⟩ := ih h₃
    rw [makes_readReg_ok.1 h₁]
    exact ⟨by simp, rfl⟩

/-! ## Accesses of one kind -/

/-- Whether all accesses of an operation are of a kind, on every bus. -/
def Keeps (kind : Access → Prop) (op : Operation α) : Prop :=
  ∀ t r, op.Makes t r → ∀ a ∈ t, kind a

variable {kind : Access → Prop}

theorem keeps_pure (a : α) : Keeps kind (pure a : Operation α) := by
  rintro t r ⟨rfl, -⟩ a ha; cases ha

theorem keeps_throw (e : CardError) : Keeps kind (throw e : Operation α) := by
  rintro t r ⟨rfl, -⟩ a ha; cases ha

theorem keeps_note (n : Notice) : Keeps kind (note n) := by
  rintro t r ⟨rfl, -⟩ a ha; cases ha

theorem keeps_mono {kind' : Access → Prop} {op : Operation α} (h : Keeps kind op)
    (himp : ∀ a, kind a → kind' a) : Keeps kind' op :=
  fun t r hm a ha => himp a (h t r hm a ha)

theorem keeps_bind {op : Operation α} {f : α → Operation β} (h : Keeps kind op)
    (hf : ∀ a, Keeps kind (f a)) : Keeps kind (op >>= f) := by
  intro t r hm a ha
  rcases makes_bind.1 hm with ⟨e, h₁, -⟩ | ⟨t₁, t₂, b, rfl, h₁, h₂⟩
  · exact h _ _ h₁ a ha
  · rcases List.mem_append.1 ha with ha | ha
    · exact h _ _ h₁ a ha
    · exact hf b _ _ h₂ a ha

theorem keeps_map {op : Operation α} {f : α → β} (h : Keeps kind op) : Keeps kind (f <$> op) := by
  rw [map_eq_pure_bind]
  exact keeps_bind h fun a => keeps_pure (f a)

theorem keeps_closing {op : Operation α} {last : Operation Unit} (h : Keeps kind op)
    (hlast : Keeps kind last) : Keeps kind (closing op last) := by
  intro t r hm a ha
  obtain ⟨t₁, t₂, r₁, r₂, rfl, h₁, h₂, -⟩ := makes_closing hm
  exact (List.mem_append.1 ha).elim (h _ _ h₁ a) (hlast _ _ h₂ a)

theorem keeps_absentUnlessBus {op : Operation α} (h : Keeps kind op) :
    Keeps kind (absentUnlessBus op) := by
  intro t r hm
  obtain ⟨t₁, t₂, r₁, rfl, h₁, h₂⟩ := (Script.makes_bind op.run _ t r).1 hm
  -- whichever outcome is put in the place of the first, no access is made for it
  have ht₂ : t₂ = [] := by
    rcases r₁ with e | a
    · cases e <;> exact h₂.1
    · exact h₂.1
  rw [ht₂, List.append_nil]
  exact h t₁ r₁ h₁

theorem keeps_ite {p : Prop} [Decidable p] {x y : Operation α} (hx : Keeps kind x)
    (hy : Keeps kind y) : Keeps kind (if p then x else y) := by
  split
  · exact hx
  · exact hy

theorem keeps_readReg {reg : UInt8} (h : ∀ o, kind (.read reg o)) : Keeps kind (readReg reg) := by
  intro t r hm a ha
  obtain ⟨o, rfl, -⟩ := makes_readReg.1 hm
  rw [List.mem_singleton.1 ha]; exact h o

theorem keeps_writeReg {reg value : UInt8} (h : ∀ o, kind (.write reg value o)) :
    Keeps kind (writeReg reg value) := by
  intro t r hm a ha
  obtain ⟨o, rfl, -⟩ := makes_writeReg.1 hm
  rw [List.mem_singleton.1 ha]; exact h o

section Register

variable {reg mask : UInt8} (hr : ∀ o, kind (.read reg o)) (hw : ∀ v o, kind (.write reg v o))

include hr hw in
theorem keeps_setBits : Keeps kind (setBits reg mask) :=
  keeps_bind (keeps_readReg hr) fun _ => keeps_writeReg (hw _)

include hr hw in
theorem keeps_clearBits : Keeps kind (clearBits reg mask) :=
  keeps_bind (keeps_readReg hr) fun _ => keeps_writeReg (hw _)

include hw in
theorem keeps_writeAll (bs : Bytes) : Keeps kind (writeAll reg bs) := by
  induction bs with
  | nil => exact keeps_pure ()
  | cons b bs ih => exact keeps_bind (keeps_writeReg (hw b)) fun _ => ih

include hr in
theorem keeps_readMany (n : Nat) : Keeps kind (readMany reg n) := by
  induction n with
  | zero => exact keeps_pure []
  | succ n ih => exact keeps_bind (keeps_readReg hr) fun _ => keeps_bind ih fun _ => keeps_pure _

include hr in
theorem keeps_pollUntil (budget : Nat) : Keeps kind (pollUntil reg mask budget) := by
  induction budget with
  | zero => exact keeps_pure false
  | succ n ih => exact keeps_bind (keeps_readReg hr) fun _ => keeps_ite (keeps_pure true) ih

end Register

/-- What accesses of a kind preserve, an operation of such accesses preserves. -/
theorem perform_preserves [RegisterBus σ] {role : Role} {P : σ → Prop} {op : Operation α}
    (hread : ∀ s reg, P s → P (RegisterBus.read s role reg).2)
    (hwrite : ∀ s reg value r, kind (.write reg value r) → P s → P (RegisterBus.write s role reg value).2)
    (hop : Keeps kind op) {s : σ} (h : P s) : P (op.perform role s).2.1 :=
  Script.run_preserves hread hwrite (hop _ _ (makes_trace role op s)) h

/-! ## How many accesses are of one kind -/

/-- Whether an operation makes at most `n` accesses of a kind, on every bus. -/
def AtMost (n : Nat) (p : Access → Bool) (op : Operation α) : Prop :=
  ∀ t r, op.Makes t r → t.countP p ≤ n

variable {p : Access → Bool} {m n : Nat}

theorem atMost_of_keeps {op : Operation α} (h : Keeps (fun a => p a = false) op) : AtMost n p op := by
  intro t r hm
  rw [List.countP_eq_zero.2 fun a ha => by simp [h t r hm a ha]]
  exact Nat.zero_le n

theorem atMost_bind {op : Operation α} {f : α → Operation β} (h : AtMost m p op)
    (hf : ∀ a, AtMost n p (f a)) : AtMost (m + n) p (op >>= f) := by
  intro t r hm
  rcases makes_bind.1 hm with ⟨e, h₁, -⟩ | ⟨t₁, t₂, a, rfl, h₁, h₂⟩
  · exact Nat.le_add_right_of_le (h _ _ h₁)
  · rw [List.countP_append]
    exact Nat.add_le_add (h _ _ h₁) (hf a _ _ h₂)

theorem atMost_closing {op : Operation α} {last : Operation Unit} (h : AtMost m p op)
    (hlast : AtMost n p last) : AtMost (m + n) p (closing op last) := by
  intro t r hm
  obtain ⟨t₁, t₂, r₁, r₂, rfl, h₁, h₂, -⟩ := makes_closing hm
  rw [List.countP_append]
  exact Nat.add_le_add (h _ _ h₁) (hlast _ _ h₂)

theorem atMost_mono {op : Operation α} (h : AtMost m p op) (hmn : m ≤ n) : AtMost n p op :=
  fun t r hm => Nat.le_trans (h t r hm) hmn

theorem atMost_readReg {reg : UInt8} : AtMost 1 p (readReg reg) := by
  intro t r h
  obtain ⟨o, rfl, -⟩ := makes_readReg.1 h
  exact List.countP_le_length

theorem atMost_readMany {reg : UInt8} : AtMost n p (readMany reg n) := by
  induction n with
  | zero => exact atMost_of_keeps (keeps_pure [])
  | succ n ih =>
    have hone : AtMost (1 + (n + 0)) p (readMany reg (n + 1)) :=
      atMost_bind atMost_readReg fun _ => atMost_bind ih fun _ => atMost_of_keeps (keeps_pure _)
    exact atMost_mono hone (by omega)

theorem atMost_pollUntil {reg mask : UInt8} : AtMost n p (pollUntil reg mask n) := by
  induction n with
  | zero => exact atMost_of_keeps (keeps_pure false)
  | succ n ih =>
    have hone : AtMost (1 + n) p (pollUntil reg mask (n + 1)) := by
      refine atMost_bind atMost_readReg fun v => ?_
      split
      · exact atMost_of_keeps (keeps_pure true)
      · exact ih
    exact atMost_mono hone (by omega)

theorem atMost_ite {q : Prop} [Decidable q] {x y : Operation α} (hx : AtMost n p x)
    (hy : AtMost n p y) : AtMost n p (if q then x else y) := by
  split
  · exact hx
  · exact hy

end Turnstile.Operation

import Mathlib.Data.List.Basic
import Turnstile.Register.Script

/-!
# What a script does to the registers

* `Script.trace`: the accesses that a script makes on a bus, with their outcomes.
* `Script.Makes`: the accesses and the outcome that some bus could draw out of a script.
  A property of all of them holds on every bus (`makes_trace`).
* `makes_bind`: the accesses of a script in two parts.
* `run_preserves`: an invariant of the bus.
* `OnlyAfter`: accesses of a kind are made only after a certain past.
-/

namespace Turnstile

/-- An access to a register, and its outcome. -/
inductive Access where
  | read (reg : UInt8) (result : Except BusError UInt8)
  | write (reg value : UInt8) (result : Except BusError Unit)

namespace Script

variable {ν α β σ : Type}

/-- The accesses that a script makes on the reader of one side, oldest first. -/
def trace [RegisterBus σ] (role : Role) : Script ν α → σ → List Access
  | done _, _ => []
  | read reg next, s =>
    match RegisterBus.read s role reg with
    | (r, s) => .read reg r :: (next r).trace role s
  | write reg value next, s =>
    match RegisterBus.write s role reg value with
    | (r, s) => .write reg value r :: (next r).trace role s
  | note _ next, s => next.trace role s

/-- Whether a script that meets these outcomes makes these accesses and ends so. -/
def Makes : Script ν α → List Access → α → Prop
  | done a, t, b => t = [] ∧ b = a
  | read reg next, t, b => ∃ r rest, t = .read reg r :: rest ∧ (next r).Makes rest b
  | write reg value next, t, b => ∃ r rest, t = .write reg value r :: rest ∧ (next r).Makes rest b
  | note _ next, t, b => next.Makes t b

/-- What a bus draws out of a script is among what any bus could. -/
theorem makes_trace [RegisterBus σ] (role : Role) (x : Script ν α) (s : σ) :
    x.Makes (x.trace role s) (x.run role s).1 := by
  induction x generalizing s with
  | done a => exact ⟨rfl, rfl⟩
  | read reg next ih => exact ⟨_, _, rfl, ih _ _⟩
  | write reg value next ih => exact ⟨_, _, rfl, ih _ _⟩
  | note n next ih => exact ih s

/-- **A script in two parts.** -/
theorem makes_bind (x : Script ν α) (f : α → Script ν β) (t : List Access) (b : β) :
    (x.bind f).Makes t b ↔ ∃ t₁ t₂ a, t = t₁ ++ t₂ ∧ x.Makes t₁ a ∧ (f a).Makes t₂ b := by
  induction x generalizing t with
  | done a =>
    constructor
    · intro h; exact ⟨[], t, a, rfl, ⟨rfl, rfl⟩, h⟩
    · rintro ⟨t₁, t₂, a', rfl, ⟨rfl, rfl⟩, h⟩; exact h
  | read reg next ih =>
    constructor
    · rintro ⟨r, rest, rfl, h⟩
      obtain ⟨t₁, t₂, a, rfl, h₁, h₂⟩ := (ih r rest).1 h
      exact ⟨.read reg r :: t₁, t₂, a, rfl, ⟨r, t₁, rfl, h₁⟩, h₂⟩
    · rintro ⟨t₁, t₂, a, rfl, ⟨r, rest, rfl, h₁⟩, h₂⟩
      exact ⟨r, rest ++ t₂, rfl, (ih r _).2 ⟨rest, t₂, a, rfl, h₁, h₂⟩⟩
  | write reg value next ih =>
    constructor
    · rintro ⟨r, rest, rfl, h⟩
      obtain ⟨t₁, t₂, a, rfl, h₁, h₂⟩ := (ih r rest).1 h
      exact ⟨.write reg value r :: t₁, t₂, a, rfl, ⟨r, t₁, rfl, h₁⟩, h₂⟩
    · rintro ⟨t₁, t₂, a, rfl, ⟨r, rest, rfl, h₁⟩, h₂⟩
      exact ⟨r, rest ++ t₂, rfl, (ih r _).2 ⟨rest, t₂, a, rfl, h₁, h₂⟩⟩
  | note n next ih => exact ih t

/-- On a bus, what a first part could have done at the beginning is what it does. -/
theorem makes_first [RegisterBus σ] {role : Role} {x : Script ν α} {f : α → Script ν β} {s : σ}
    {t₁ t₂ : List Access} {a : α} (h : x.Makes t₁ a)
    (htrace : (x.bind f).trace role s = t₁ ++ t₂) : t₁ = x.trace role s ∧ a = (x.run role s).1 := by
  induction x generalizing s t₁ with
  | done b => exact h
  | read reg next ih =>
    obtain ⟨r, rest, rfl, h⟩ := h
    obtain ⟨haccess, hrest⟩ := List.cons.inj htrace
    obtain rfl : _ = r := (Access.read.inj haccess).2
    obtain ⟨rfl, rfl⟩ := ih _ h hrest
    exact ⟨rfl, rfl⟩
  | write reg value next ih =>
    obtain ⟨r, rest, rfl, h⟩ := h
    obtain ⟨haccess, hrest⟩ := List.cons.inj htrace
    obtain rfl : _ = r := (Access.write.inj haccess).2.2
    obtain ⟨rfl, rfl⟩ := ih _ h hrest
    exact ⟨rfl, rfl⟩
  | note n next ih => exact ih h htrace

/-- What accesses of a kind preserve, a script of such accesses preserves. -/
theorem run_preserves [RegisterBus σ] {role : Role} {P : σ → Prop} {kind : Access → Prop}
    (hread : ∀ s reg, P s → P (RegisterBus.read s role reg).2)
    (hwrite : ∀ s reg value r, kind (.write reg value r) → P s → P (RegisterBus.write s role reg value).2)
    {x : Script ν α} {s : σ} (hx : ∀ a ∈ x.trace role s, kind a) (h : P s) :
    P (x.run role s).2.1 := by
  induction x generalizing s with
  | done a => exact h
  | read reg next ih => exact ih _ (fun a ha => hx a (List.mem_cons_of_mem _ ha)) (hread s reg h)
  | write reg value next ih =>
    exact ih _ (fun a ha => hx a (List.mem_cons_of_mem _ ha))
      (hwrite s reg value _ (hx _ List.mem_cons_self) h)
  | note n next ih => exact ih hx h

end Script

/-! ## Order of accesses -/

/-- Whether accesses of a kind are made only after a past of a kind, where `past` was
before `t`. -/
def OnlyAfter (kind : Access → Bool) (G : List Access → Prop) (past t : List Access) : Prop :=
  ∀ before a later, t = before ++ a :: later → kind a = true → G (past ++ before)

variable {kind : Access → Bool} {G : List Access → Prop}

theorem onlyAfter_append {past t₁ t₂ : List Access} (h₁ : OnlyAfter kind G past t₁)
    (h₂ : OnlyAfter kind G (past ++ t₁) t₂) : OnlyAfter kind G past (t₁ ++ t₂) := by
  intro before a later h ha
  rcases List.append_eq_append_iff.1 h with ⟨mid, rfl, ht⟩ | ⟨mid, rfl, ht⟩
  · -- the access is in the second stretch
    rw [← List.append_assoc]
    exact h₂ mid a later ht ha
  · -- it is in the first, unless that ends right before it
    match mid with
    | [] =>
      have := h₂ [] a later (by simpa using ht.symm) ha
      simpa using this
    | b :: mid =>
      simp only [List.cons_append, List.cons.injEq] at ht
      obtain ⟨rfl, rfl⟩ := ht
      exact h₁ before a mid rfl ha

theorem onlyAfter_of_none {past t : List Access} (h : ∀ a ∈ t, kind a = false) :
    OnlyAfter kind G past t := by
  rintro before a later rfl ha
  rw [h a (by simp)] at ha
  cases ha

/-- A stretch with one access of the kind. -/
theorem onlyAfter_once {past before later : List Access} {a : Access} (hG : G (past ++ before))
    (hbefore : ∀ b ∈ before, kind b = false) (hlater : ∀ b ∈ later, kind b = false) :
    OnlyAfter kind G past (before ++ a :: later) := by
  refine onlyAfter_append (onlyAfter_of_none hbefore) ?_
  intro mid b rest h hb
  match mid with
  | [] => simpa using hG
  | c :: mid =>
    simp only [List.cons_append, List.cons.injEq] at h
    rw [hlater b (by rw [h.2]; simp)] at hb
    cases hb

end Turnstile

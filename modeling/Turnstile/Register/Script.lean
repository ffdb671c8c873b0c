import Turnstile.Register.Basic

/-!
# Scripts of register accesses

What a reader is made to do, as a script: a register is read or written, and what
comes next depends on the outcome. A script does not know the bus that it runs on.

* `Script.run`: the outcome of a script on a bus, the bus after it, and what it left
  to be noted on the way.
* `Script.run_bind`: a script in two parts runs the first part, then the second.
-/

namespace Turnstile

/-- A script with notes `ν` and outcome `α`. -/
inductive Script (ν α : Type) where
  | done (a : α)
  | read (reg : UInt8) (next : Except BusError UInt8 → Script ν α)
  | write (reg value : UInt8) (next : Except BusError Unit → Script ν α)
  | note (n : ν) (next : Script ν α)

namespace Script

variable {ν α β γ σ : Type}

/-- Goes on with the outcome of a script. -/
def bind : Script ν α → (α → Script ν β) → Script ν β
  | done a, f => f a
  | read reg next, f => read reg fun r => (next r).bind f
  | write reg value next, f => write reg value fun r => (next r).bind f
  | note n next, f => note n (next.bind f)

instance : Monad (Script ν) where
  pure := done
  bind := bind

/-- Runs a script on the reader of one side. -/
def run [RegisterBus σ] (role : Role) : Script ν α → σ → α × σ × List ν
  | done a, s => (a, s, [])
  | read reg next, s =>
    match RegisterBus.read s role reg with
    | (r, s) => (next r).run role s
  | write reg value next, s =>
    match RegisterBus.write s role reg value with
    | (r, s) => (next r).run role s
  | note n next, s =>
    match next.run role s with
    | (a, s, ns) => (a, s, n :: ns)

@[simp] theorem bind_eq (x : Script ν α) (f : α → Script ν β) : x >>= f = x.bind f := rfl

@[simp] theorem pure_eq (a : α) : (pure a : Script ν α) = done a := rfl

theorem bind_done (x : Script ν α) : x.bind done = x := by
  induction x with
  | done a => rfl
  | read reg next ih => simp only [bind, ih]
  | write reg value next ih => simp only [bind, ih]
  | note n next ih => simp only [bind, ih]

theorem bind_assoc (x : Script ν α) (f : α → Script ν β) (g : β → Script ν γ) :
    (x.bind f).bind g = x.bind fun a => (f a).bind g := by
  induction x with
  | done a => rfl
  | read reg next ih => simp only [bind, ih]
  | write reg value next ih => simp only [bind, ih]
  | note n next ih => simp only [bind, ih]

instance : LawfulMonad (Script ν) :=
  LawfulMonad.mk' (Script ν) (fun x => bind_done x) (fun _ _ => rfl) bind_assoc

/-- Running in two parts. -/
theorem run_bind [RegisterBus σ] (role : Role) (x : Script ν α) (f : α → Script ν β) (s : σ) :
    (x.bind f).run role s =
      let first := x.run role s
      let second := (f first.1).run role first.2.1
      (second.1, second.2.1, first.2.2 ++ second.2.2) := by
  induction x generalizing s with
  | done a => rfl
  | read reg next ih => simp only [bind, run, ih]
  | write reg value next ih => simp only [bind, run, ih]
  | note n next ih => simp only [bind, run, ih, List.cons_append]

end Script

end Turnstile

import Turnstile.Card.Uid

/-!
# Write jobs

Texts to be written on the next card at the exit. Jobs are taken up in the order in
which they were handed in, one at a time.

* `JobBook.submit`: hands in a job.
* `JobBook.finish`: the answer to the job that was taken up.
-/

namespace Turnstile

/-- A text to be written before a deadline, in microseconds. -/
structure WriteJob where
  /-- How many jobs were handed in before this one. -/
  ticket : Nat
  text : String
  deadline : Nat
deriving DecidableEq, Repr

/-- The jobs handed in. -/
structure JobBook where
  waiting : List WriteJob := []
  /-- The job that was taken up. -/
  pending : Option WriteJob := none
  /-- The answers given, newest first: the card that was written, if one was. -/
  answers : List (Nat × Option Uid) := []
  /-- How many jobs were handed in. -/
  submitted : Nat := 0
deriving DecidableEq, Repr

namespace JobBook

/-- Hands in a job. -/
def submit (b : JobBook) (text : String) (deadline : Nat) : JobBook :=
  { b with waiting := b.waiting ++ [⟨b.submitted, text, deadline⟩], submitted := b.submitted + 1 }

/-- Answers the job that was taken up. -/
def finish (b : JobBook) (answer : Option Uid) : JobBook :=
  match b.pending with
  | none => b
  | some job => { b with pending := none, answers := (job.ticket, answer) :: b.answers }

/-- The answer to a job, if it was given. -/
def answer? (b : JobBook) (ticket : Nat) : Option (Option Uid) :=
  (b.answers.find? (·.1 = ticket)).map (·.2)

/-- Whether the job that was taken up is out of time. -/
def isOverdue (b : JobBook) (now : Nat) : Bool :=
  b.pending.any (·.deadline ≤ now)

/-- Takes up the next job, if none is: whether one was. -/
def takeUp (b : JobBook) : Bool × JobBook :=
  match b.pending, b.waiting with
  | none, job :: rest => (true, { b with pending := some job, waiting := rest })
  | _, _ => (false, b)

end JobBook

end Turnstile

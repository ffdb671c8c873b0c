import Turnstile.Proofs.Controller.CardText

/-!
# Jobs past their deadline

A job that was taken up and is out of time is given up, with no card. But the deadline of a job is
not looked at when it is taken up, so a job that waited in the queue too long is attempted once.

* `JobBook.due_late_iff`: when a job that is out of time is due all the same.
* `Controller.Attempts`: a look at the readers makes an attempt at a job.
* `Controller.attempts_iff_due`: it does so at the job that is due, and at no other.
* `JobBook.Left`: a job is in the queue no more, and never will be again.
* `late_job_attempted_iff`: **a job is attempted out of time if and only if it is taken from the queue
  in that very look**, and so at most once.
* `late_job_written`: a card is written twice as late as the job asks for.
-/

namespace Turnstile

namespace JobBook

variable {b : JobBook} {job : WriteJob} {now : Nat}

/-- **A job that is out of time is due** if it is the next to be taken from the queue, and no job in
time is taken up. -/
theorem due_late_iff (hlate : job.deadline ≤ now) :
    b.due now = some job ↔
      b.waiting.head? = some job ∧ ∀ other, b.pending = some other → other.deadline ≤ now := by
  unfold due
  cases hpending : b.pending with
  | none => simp
  | some other =>
    by_cases hbefore : now < other.deadline
    · -- the job taken up is in time, so it is another one
      have hother : other ≠ job := by
        rintro rfl
        omega
      simp [hbefore, hother]
    · have hover : other.deadline ≤ now := by omega
      simp [hbefore, hover]

/-- Whether a job was taken from the queue. -/
structure Left (b : JobBook) (job : WriteJob) : Prop where
  known : job.ticket < b.submitted
  gone : ∀ other ∈ b.waiting, other.ticket ≠ job.ticket

theorem Left.submit (h : b.Left job) (text : String) (deadline : Nat) :
    (b.submit text deadline).Left job where
  known := Nat.lt_succ_of_lt h.known
  gone := by
    intro other hother
    rcases List.mem_append.1 hother with hwaiting | hnew
    · exact h.gone other hwaiting
    · rw [List.mem_singleton.1 hnew]
      exact Nat.ne_of_gt h.known

theorem Left.finish (h : b.Left job) (answer : Option Uid) : (b.finish answer).Left job := by
  unfold JobBook.finish
  split
  · exact h
  · exact ⟨h.known, h.gone⟩

theorem Left.takeUp (h : b.Left job) : b.takeUp.2.Left job := by
  unfold JobBook.takeUp
  split
  · next first rest _ hwaiting =>
    refine ⟨h.known, fun other hother => h.gone other ?_⟩
    rw [hwaiting]
    exact List.mem_cons_of_mem _ hother
  · exact h

theorem Left.relay (h : b.Left job) (now : Nat) : (b.relay now).Left job := by
  have hexpired : (if b.isOverdue now then b.finish none else b).Left job := by
    split
    · exact h.finish none
    · exact h
  exact hexpired.takeUp

/-- A job that is taken up does not wait any more. -/
theorem Accounts.left {σ τ : Type} {turns : List (Turn σ τ)} (h : b.Accounts (handedIn turns))
    (hjob : b.pending = some job) : b.Left job := by
  obtain ⟨done, hjobs, -⟩ := h.settled
  rw [hjob] at hjobs
  have htickets := tickets_handedIn turns
  have hnodup : ((handedIn turns).map WriteJob.ticket).Nodup := by
    rw [htickets]
    exact List.nodup_range
  have hmem : job.ticket ∈ (handedIn turns).map WriteJob.ticket :=
    List.mem_map_of_mem (h.mem_of_pending hjob)
  constructor
  · rw [htickets, List.mem_range, ← h.submitted] at hmem
    exact hmem
  · intro other hother hsame
    rw [hjobs, List.append_assoc, List.map_append] at hnodup
    have hlater := (List.nodup_append.1 hnodup).2.1
    have hnot : job.ticket ∉ b.waiting.map WriteJob.ticket := (List.nodup_cons.1 hlater).1
    rw [← hsame] at hnot
    exact hnot (List.mem_map_of_mem hother)

/-- A job that is taken up and out of time is answered with no card, whatever becomes of the next. -/
theorem answer?_lapsed (hleft : b.Left job) (hpending : b.pending = some job)
    (hlate : job.deadline ≤ now) :
    (b.relay now).answer? job.ticket = some none ∧
      ∀ uid, ((b.relay now).finish (some uid)).answer? job.ticket = some none := by
  have hanswers : (b.relay now).answers = (job.ticket, none) :: b.answers := by
    rw [answers_relay, lapsed, hpending]
    simp [hlate, Option.filter]
  refine ⟨by simp [answer?, hanswers], fun uid => ?_⟩
  unfold answer?
  rw [answers_finish, hanswers]
  cases hnext : (b.relay now).pending with
  | none => simp
  | some next =>
    -- the next job comes from the queue, so it is another one
    have hdue : b.due now = some next := (b.pending_relay now).symm.trans hnext
    have hnot : ¬ now < job.deadline := by omega
    rw [due, hpending] at hdue
    dsimp only at hdue
    rw [if_neg hnot] at hdue
    have hother := hleft.gone next (List.mem_of_head? hdue)
    simp [hother]

end JobBook

namespace Controller

variable {σ τ : Type} [RegisterBus σ] [Sink τ] {c : Controller σ τ} {job : WriteJob} {now : Nat}

/-- Whether a look at the readers makes an attempt at a job: the job is taken up when the reader at
the exit has its turn, and that reader identifies a card and writes the text on it, or tries to. -/
def Attempts (c : Controller σ τ) (now : Nat) (job : WriteJob) : Prop :=
  let d := ((c.takeJob now).scan .entry now).2
  d.jobs.pending = some job ∧ (c.pollCycle now).1.2 = .writing ∧
    (c.pollCycle now).2.bus = ((writeText job.text).perform .exit d.bus).2.1

/-- **An attempt is made at the job that is due.** -/
theorem attempts_iff_due : c.Attempts now job ↔ c.jobs.due now = some job := by
  let d := ((c.takeJob now).scan .entry now).2
  have hjobs : d.jobs = c.jobs.relay now := (jobs_scan ..).trans (jobs_takeJob c now)
  have hpending : d.jobs.pending = c.jobs.due now := by rw [hjobs, JobBook.pending_relay]
  constructor
  · rintro ⟨hjob, -, -⟩
    exact hpending.symm.trans hjob
  · intro hdue
    have hjob : d.jobs.pending = some job := hpending.trans hdue
    obtain ⟨answer, health, journal, hwrite⟩ := d.tryWrite_eq job.text
    have hexit : (d.pollExit now).1 = .writing ∧
        (d.pollExit now).2.bus = ((writeText job.text).perform .exit d.bus).2.1 := by
      unfold pollExit
      rw [hjob]
      dsimp only
      rw [hwrite]
      cases answer with
      | none => exact ⟨rfl, rfl⟩
      | some uid => exact ⟨rfl, rfl⟩
    exact ⟨hjob, hexit.1, hexit.2⟩

theorem left_pollCycle (h : (c.jobs.relay now).Left job) : (c.pollCycle now).2.jobs.Left job := by
  rcases c.jobs_pollCycle now with ⟨hjobs, -⟩ | ⟨_, uid, -, -, hjobs⟩
  · rw [hjobs]
    exact h
  · rw [hjobs]
    exact h.finish (some uid)

/-- A job that was taken from the queue does not come back to it. -/
theorem left_undergo (h : c.jobs.Left job) (turn : Turn σ τ) : (c.undergo turn).jobs.Left job := by
  cases turn with
  | submit text deadline => exact h.submit text deadline
  | poll now => exact left_pollCycle (h.relay now)
  | rest now =>
    show (c.takeJob now).jobs.Left job
    rw [jobs_takeJob]
    exact h.relay now
  | meanwhile change => exact h

theorem left_undergoAll (h : c.jobs.Left job) (turns : List (Turn σ τ)) :
    (c.undergoAll turns).jobs.Left job := by
  induction turns generalizing c with
  | nil => exact h
  | cons turn turns ih => exact ih (left_undergo h turn)

/-- A job that was taken from the queue is not attempted when it is out of time. -/
theorem not_attempts_of_left (h : c.jobs.Left job) (hlate : job.deadline ≤ now) :
    ¬ c.Attempts now job := by
  rw [attempts_iff_due, JobBook.due_late_iff hlate]
  rintro ⟨hnext, -⟩
  exact h.gone job (List.mem_of_head? hnext) rfl

/-- What comes of an attempt: the job stays taken up, or it is answered with a card. -/
theorem attempt_ends (h : c.Attempts now job) : (c.pollCycle now).2.jobs.pending = some job ∨
    ∃ uid, (c.pollCycle now).2.jobs.answer? job.ticket = some (some uid) := by
  have hpending : (c.jobs.relay now).pending = some job :=
    (c.jobs.pending_relay now).trans (attempts_iff_due.1 h)
  rcases c.jobs_pollCycle now with ⟨hjobs, -⟩ | ⟨_, uid, -, -, hjobs⟩
  · exact .inl (by rw [hjobs, hpending])
  · refine .inr ⟨uid, ?_⟩
    rw [hjobs]
    exact JobBook.answer?_finish hpending (some uid)

end Controller

/-- **A job is attempted out of time if and only if it is taken from the queue in that very look**:
it is the next one there, and no job in time is taken up. A job that was taken up before and is out
of time is not attempted and is answered with no card. A job that is attempted out of time is answered
with a card if one is written, and else stays taken up; whatever happens then, it is not attempted out
of time again. -/
theorem late_job_attempted_iff {σ τ : Type} [RegisterBus σ] [Sink τ] (c : Controller σ τ)
    (past : List (Turn σ τ)) {job : WriteJob} {now : Nat} (hlate : job.deadline ≤ now) :
    let before := Controller.undergoAll { c with jobs := {} } past
    let after := (before.pollCycle now).2
    (before.Attempts now job ↔ before.jobs.waiting.head? = some job ∧
      ∀ other, before.jobs.pending = some other → other.deadline ≤ now) ∧
    (before.jobs.pending = some job →
      ¬ before.Attempts now job ∧ after.jobs.answer? job.ticket = some none) ∧
    (before.Attempts now job →
      (after.jobs.pending = some job ∨ ∃ uid, after.jobs.answer? job.ticket = some (some uid)) ∧
      ∀ turns later, job.deadline ≤ later → ¬ (after.undergoAll turns).Attempts later job) := by
  intro before after
  have haccounts : before.jobs.Accounts (handedIn past) := c.accounts_undergoAll past
  refine ⟨?_, ?_, ?_⟩
  · rw [Controller.attempts_iff_due]
    exact JobBook.due_late_iff hlate
  · intro hpending
    have hleft := haccounts.left hpending
    obtain ⟨hkept, hnext⟩ := JobBook.answer?_lapsed hleft hpending hlate
    refine ⟨Controller.not_attempts_of_left hleft hlate, ?_⟩
    rcases before.jobs_pollCycle now with ⟨hjobs, -⟩ | ⟨_, uid, -, -, hjobs⟩
    · exact (congrArg (JobBook.answer? · job.ticket) hjobs).trans hkept
    · exact (congrArg (JobBook.answer? · job.ticket) hjobs).trans (hnext uid)
  · intro hattempts
    refine ⟨Controller.attempt_ends hattempts, fun turns later hlater => ?_⟩
    have hpending : (before.jobs.relay now).pending = some job :=
      (before.jobs.pending_relay now).trans (Controller.attempts_iff_due.1 hattempts)
    have hleft : after.jobs.Left job := Controller.left_pollCycle ((haccounts.relay now).left hpending)
    exact Controller.not_attempts_of_left (Controller.left_undergoAll hleft turns) hlater

/-- A card is at the exit. -/
def cardAtExit : Controller Field Outbox where
  bus := Field.new.present .exit { uid := ⟨0xde, 0xad, 0xbe, 0xef⟩ }
  desk := { settings := ⟨{}, {}⟩, outbox := {} }

/-- A job is taken up while no card is there, and another one has to wait. -/
def twoJobs : List (Turn Field Outbox) :=
  [.meanwhile fun c => { c with bus := c.bus.remove .exit }, .submit "ANA" 100, .poll 50,
    .submit "CAROL" 150]

theorem pending_twoJobs : (Controller.undergoAll { cardAtExit with jobs := {} } twoJobs).jobs.pending =
    some ⟨0, "ANA", 100⟩ := by
  decide +kernel

/-- The job that was taken up is given up out of time; the other one, which is out of time as well, is
attempted. -/
theorem late_job_attempted_iff_second :
    let before := Controller.undergoAll { cardAtExit with jobs := {} } twoJobs
    ¬ before.Attempts 200 ⟨0, "ANA", 100⟩ ∧ (before.pollCycle 200).2.jobs.answer? 0 = some none ∧
      before.Attempts 200 ⟨1, "CAROL", 150⟩ := by
  have hnext : (Controller.undergoAll { cardAtExit with jobs := {} } twoJobs).jobs.waiting.head? =
      some ⟨1, "CAROL", 150⟩ := by
    decide +kernel
  have hana : WriteJob.deadline ⟨0, "ANA", 100⟩ ≤ 200 := by decide
  have hcarol : WriteJob.deadline ⟨1, "CAROL", 150⟩ ≤ 200 := by decide
  have hlapsed := (late_job_attempted_iff cardAtExit twoJobs hana).2.1 pending_twoJobs
  have hattempted := (late_job_attempted_iff cardAtExit twoJobs hcarol).1
  refine ⟨hlapsed.1, hlapsed.2, hattempted.2 ⟨hnext, fun other hother => ?_⟩⟩
  rw [pending_twoJobs] at hother
  cases hother
  decide

/-- **A card is written at twice the deadline**, and the job is answered with it. -/
theorem late_job_written :
    let c := { cardAtExit with jobs := ({} : JobBook).submit "CAROL" 100 }
    c.jobs.waiting = [⟨0, "CAROL", 100⟩] ∧ (c.pollCycle 200).1.2 = .writing ∧
      (c.pollCycle 200).2.jobs.answer? 0 = some (some ⟨0xde, 0xad, 0xbe, 0xef⟩) ∧
      (c.pollCycle 200).2.bus.cardBlock? .exit userBlock = some (UserText.encode "CAROL") := by
  decide +kernel

end Turnstile

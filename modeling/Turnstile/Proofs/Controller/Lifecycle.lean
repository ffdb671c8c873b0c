import Mathlib.Data.List.Induction
import Turnstile.Controller.Polling
import Turnstile.Proofs.Controller.Readers
import Turnstile.Proofs.Reader.Trace
import Turnstile.Simulation.Field

/-!
# The life of a job

A job is handed in, waits for its turn, is taken up, and is answered: with a card that was
written, or with none once it is out of time.

* `Turn`: what happens to a controller; `handedIn`: the jobs that were handed in meanwhile.
* `SinceThen`: what the last thing in a history was that counts.
* `JobBook.Accounts`: every job is answered, taken up or waiting, and in this order.
* `Accounts.submit`, `Accounts.finish`, `Accounts.relay`: whatever is done to the jobs keeps the
  accounts.
* `JobBook.due`: the job that is attempted in a look at the readers.
* `Controller.jobs_pollCycle`: what one look at both readers does to the jobs.
* `Controller.pollCycle_answers`: **a job that is due is answered with the card that takes its text.**
* `Controller.tick_undergo`: each round of the polling loop is one of the turns.
* `jobs_answered_in_turn`: **no job is lost, none is answered twice or before an older one**, and
  every answer has its ground in the cycle in which it is given.
-/

namespace Turnstile

/-- What happens to a controller, with times in microseconds. -/
inductive Turn (σ τ : Type) where
  | submit (text : String) (deadline : Nat)
  | poll (now : Nat)
  /-- A round of the polling loop while the link is down. -/
  | rest (now : Nat)
  /-- Anything changes, except the jobs. -/
  | meanwhile (change : Controller σ τ → Controller σ τ)

/-- The text and the deadline of a job that is handed in. -/
def Turn.request? {σ τ : Type} : Turn σ τ → Option (String × Nat)
  | .submit text deadline => some (text, deadline)
  | _ => none

/-- When the job that was taken up is looked at, if it is. -/
def Turn.time? {σ τ : Type} : Turn σ τ → Option Nat
  | .poll now => some now
  | .rest now => some now
  | _ => none

/-- Whether a turn of events that may change anything leaves a part of the controller alone. -/
def Turn.Leaves {σ τ π : Type} (part : Controller σ τ → π) : Turn σ τ → Prop
  | .meanwhile change => ∀ c, part (change c) = part c
  | _ => True

/-- Whether something of one kind is in a history, and only things of another kind came after it. -/
def SinceThen {α : Type} (mark other : α → Prop) (history : List α) : Prop :=
  ∃ earlier a later, history = earlier ++ a :: later ∧ mark a ∧ ∀ b ∈ later, other b

section SinceThen

variable {α : Type} {mark other : α → Prop}

theorem not_sinceThen_nil : ¬ SinceThen mark other [] := by
  rintro ⟨earlier, a, later, h, -⟩
  simp at h

/-- One thing more comes to pass. -/
theorem sinceThen_snoc {history : List α} {a : α} :
    SinceThen mark other (history ++ [a]) ↔ mark a ∨ other a ∧ SinceThen mark other history := by
  constructor
  · rintro ⟨earlier, b, later, hsplit, hmark, hlater⟩
    rcases List.eq_nil_or_concat' later with rfl | ⟨later, last, rfl⟩
    · obtain ⟨-, hlast⟩ := List.append_inj' hsplit rfl
      exact .inl (List.head_eq_of_cons_eq hlast ▸ hmark)
    · -- the new one came after the one that is meant, which is an older one
      have hsplit' : history ++ [a] = (earlier ++ b :: later) ++ [last] := by
        rw [hsplit, List.append_assoc, List.cons_append]
      obtain ⟨hold, hlast⟩ := List.append_inj' hsplit' rfl
      have hother : other a := List.head_eq_of_cons_eq hlast ▸ hlater last (by simp)
      exact .inr ⟨hother, earlier, b, later, hold, hmark,
        fun c hc => hlater c (List.mem_append_left _ hc)⟩
  · rintro (hmark | ⟨hother, earlier, b, later, rfl, hmark, hlater⟩)
    · exact ⟨history, a, [], rfl, hmark, fun _ h => absurd h List.not_mem_nil⟩
    · refine ⟨earlier, b, later ++ [a], by simp, hmark, ?_⟩
      intro c hc
      rcases List.mem_append.1 hc with hc | hc
      · exact hlater c hc
      · exact List.mem_singleton.1 hc ▸ hother

end SinceThen

/-- The jobs that are handed in, in this order, numbered from zero. -/
def handedIn {σ τ : Type} (turns : List (Turn σ τ)) : List WriteJob :=
  (turns.filterMap Turn.request?).mapIdx fun n request => ⟨n, request.1, request.2⟩

section HandedIn

variable {σ τ : Type} {turns : List (Turn σ τ)} {turn : Turn σ τ}

theorem handedIn_submit (turns : List (Turn σ τ)) (text : String) (deadline : Nat) :
    handedIn (turns ++ [.submit text deadline]) =
      handedIn turns ++ [⟨(handedIn turns).length, text, deadline⟩] := by
  simp [handedIn, Turn.request?, List.mapIdx_append]

theorem handedIn_other (turns : List (Turn σ τ)) (h : turn.request? = none) :
    handedIn (turns ++ [turn]) = handedIn turns := by
  simp [handedIn, h]

theorem tickets_handedIn (turns : List (Turn σ τ)) :
    (handedIn turns).map WriteJob.ticket = List.range (handedIn turns).length := by
  refine List.ext_getElem (by simp) fun n h _ => ?_
  simp [handedIn]

end HandedIn

/-! ## Accounts -/

namespace JobBook

/-- Whether the book accounts for all jobs that were handed in: the oldest are answered, in the
order in which they came, then comes the one that is taken up, and the others wait. -/
structure Accounts (jobs : List WriteJob) (b : JobBook) : Prop where
  submitted : b.submitted = jobs.length
  settled : ∃ done, jobs = done ++ b.pending.toList ++ b.waiting ∧
    b.answers.reverse.map Prod.fst = done.map WriteJob.ticket

/-- The job that is taken up is answered if it is out of time, and the next one is taken up if
none is. -/
def relay (b : JobBook) (now : Nat) : JobBook :=
  (if b.isOverdue now then b.finish none else b).takeUp.2

/-- The job that is attempted in a look at the readers: the one that was taken up if it is in time,
else the first of those that wait. -/
def due (b : JobBook) (now : Nat) : Option WriteJob :=
  match b.pending with
  | some job => if now < job.deadline then some job else b.waiting.head?
  | none => b.waiting.head?

variable {jobs : List WriteJob} {b : JobBook} {job : WriteJob}

theorem pending_takeUp (b : JobBook) : b.takeUp.2.pending = b.pending.or b.waiting.head? := by
  unfold takeUp
  split
  · next h hw => simp [h, hw]
  · next h =>
    cases hpending : b.pending with
    | some job => rfl
    | none =>
      cases hwaiting : b.waiting with
      | nil => rfl
      | cons job rest => exact absurd hwaiting (h job rest hpending)

theorem pending_relay (b : JobBook) (now : Nat) : (b.relay now).pending = b.due now := by
  rw [relay, pending_takeUp, due]
  cases hpending : b.pending with
  | none => simp [isOverdue, hpending]
  | some job =>
    by_cases hlate : job.deadline ≤ now
    · have hnot : ¬ now < job.deadline := by omega
      simp [isOverdue, finish, hpending, hlate, hnot]
    · have hbefore : now < job.deadline := by omega
      simp [isOverdue, hpending, hlate, hbefore]

theorem accounts_nil : Accounts [] {} :=
  ⟨rfl, [], rfl, rfl⟩

theorem Accounts.mem_of_pending (h : Accounts jobs b) (hjob : b.pending = some job) : job ∈ jobs := by
  obtain ⟨done, hjobs, -⟩ := h.settled
  rw [hjobs, hjob]
  simp

theorem Accounts.submit (h : Accounts jobs b) (text : String) (deadline : Nat) :
    Accounts (jobs ++ [⟨jobs.length, text, deadline⟩]) (b.submit text deadline) := by
  obtain ⟨done, hjobs, hanswers⟩ := h.settled
  have hnew : b.submitted = jobs.length := h.submitted
  refine ⟨?_, done, ?_, hanswers⟩
  · rw [List.length_append, ← hnew]
    rfl
  · show jobs ++ [_] = done ++ b.pending.toList ++ (b.waiting ++ [⟨b.submitted, text, deadline⟩])
    rw [hnew, ← List.append_assoc, ← hjobs]

theorem Accounts.finish (h : Accounts jobs b) (answer : Option Uid) : Accounts jobs (b.finish answer) := by
  obtain ⟨done, hjobs, hanswers⟩ := h.settled
  cases hpending : b.pending with
  | none =>
    have hsame : b.finish answer = b := by rw [JobBook.finish, hpending]
    rw [hsame]
    exact h
  | some job =>
    have hfinish : b.finish answer =
        { b with pending := none, answers := (job.ticket, answer) :: b.answers } := by
      rw [JobBook.finish, hpending]
    rw [hpending] at hjobs
    rw [hfinish]
    refine ⟨h.submitted, done ++ [job], ?_, ?_⟩
    · rw [hjobs]
      simp
    · rw [List.reverse_cons, List.map_append, hanswers, List.map_append]
      rfl

theorem Accounts.takeUp (h : Accounts jobs b) : Accounts jobs b.takeUp.2 := by
  obtain ⟨done, hjobs, hanswers⟩ := h.settled
  unfold JobBook.takeUp
  split
  · next job rest hpending hwaiting =>
    rw [hpending, hwaiting] at hjobs
    refine ⟨h.submitted, done, ?_, hanswers⟩
    rw [hjobs]
    simp
  · exact h

theorem Accounts.relay (h : Accounts jobs b) (now : Nat) : Accounts jobs (b.relay now) := by
  have hexpired : Accounts jobs (if b.isOverdue now then b.finish none else b) := by
    split
    · exact h.finish none
    · exact h
  exact hexpired.takeUp

/-! ## Answers -/

theorem answers_finish (b : JobBook) (answer : Option Uid) :
    (b.finish answer).answers = (b.pending.toList.map fun job => (job.ticket, answer)) ++ b.answers := by
  unfold JobBook.finish
  split
  · next h => rw [h]; rfl
  · next h => rw [h]; rfl

theorem answers_takeUp (b : JobBook) : b.takeUp.2.answers = b.answers := by
  unfold JobBook.takeUp
  split <;> rfl

/-- The answer to a job that is given at last is the one that is found. -/
theorem answer?_finish (h : b.pending = some job) (answer : Option Uid) :
    (b.finish answer).answer? job.ticket = some answer := by
  simp [answer?, finish, h]

/-- The answers to the job that was taken up if it is out of time. -/
def lapsed (b : JobBook) (now : Nat) : List (Nat × Option Uid) :=
  (b.pending.filter (·.deadline ≤ now)).toList.map fun job => (job.ticket, none)

theorem mem_lapsed {now : Nat} {answer : Nat × Option Uid} :
    answer ∈ b.lapsed now ↔
      ∃ job, b.pending = some job ∧ job.deadline ≤ now ∧ answer = (job.ticket, none) := by
  have hfilter : ∀ job, b.pending.filter (·.deadline ≤ now) = some job ↔
      b.pending = some job ∧ job.deadline ≤ now := by
    intro job
    rw [Option.filter_eq_some_iff, decide_eq_true_eq]
  simp only [lapsed, List.mem_map, Option.mem_toList, hfilter, and_assoc,
    eq_comm (a := answer)]

theorem answers_relay (b : JobBook) (now : Nat) : (b.relay now).answers = b.lapsed now ++ b.answers := by
  rw [relay, answers_takeUp]
  cases hpending : b.pending with
  | none => simp [lapsed, isOverdue, hpending]
  | some job =>
    by_cases hlate : job.deadline ≤ now
    · simp [lapsed, isOverdue, hpending, hlate, answers_finish, Option.filter]
    · simp [lapsed, isOverdue, hpending, hlate, Option.filter]

end JobBook

/-! ## The controller -/

/-- Whether a card is identified at the exit and takes a text. -/
def WritesCard {σ : Type} [RegisterBus σ] (s : σ) (text : String) (uid : Uid) : Prop :=
  ∃ s', (Operation.identify.perform .exit s).1 = .ok uid ∧
    (Operation.identify.perform .exit s).2.1 = s' ∧
    ((Operation.writeBlock userBlock uid (UserText.encode text)).perform .exit s').1 = .ok ()

/-- A card that takes a text is the one that was identified. -/
theorem WritesCard.unique {σ : Type} [RegisterBus σ] {s : σ} {text : String} {uid uid' : Uid}
    (h : WritesCard s text uid) (h' : WritesCard s text uid') : uid = uid' := by
  obtain ⟨-, hfound, -⟩ := h
  obtain ⟨-, hfound', -⟩ := h'
  exact Except.ok.inj (hfound.symm.trans hfound')

namespace Controller

variable {σ τ : Type}

theorem jobs_nextJob (c : Controller σ τ) : c.nextJob.jobs = c.jobs.takeUp.2 := by
  have hidle : ∀ b : JobBook, b.takeUp.1 = false → b.takeUp.2 = b := by
    intro b
    unfold JobBook.takeUp
    split
    · intro h
      cases h
    · intro _
      rfl
  unfold nextJob
  split
  · next h =>
    rw [h]
    rfl
  · next h => exact (hidle c.jobs (congrArg Prod.fst h)).symm

theorem jobs_takeJob (c : Controller σ τ) (now : Nat) : (c.takeJob now).jobs = c.jobs.relay now := by
  have hexpire : (c.expireJob now).jobs = if c.jobs.isOverdue now then c.jobs.finish none else c.jobs := by
    unfold expireJob
    split <;> rfl
  rw [takeJob, jobs_nextJob, hexpire, JobBook.relay]

variable [RegisterBus σ]

/-- One look at a reader leaves the jobs alone. -/
theorem jobs_scan [Sink τ] (c : Controller σ τ) (role : Role) (now : Nat) :
    (c.scan role now).2.jobs = c.jobs := by
  have hidentified : ∀ (d : Controller σ τ) (uid : Uid) (user : String),
      (d.identified role uid user now).2.jobs = d.jobs := by
    intro d uid user
    unfold identified
    split <;> rfl
  obtain ⟨poll, health, journal, -, hscan⟩ | ⟨uid, user, health, journal, hscan⟩ := c.scan_cases role now
  · rw [hscan]
    rfl
  · rw [hscan, hidentified]

theorem jobs_tryWrite (c : Controller σ τ) (text : String) : (c.tryWrite text).2.jobs = c.jobs := by
  obtain ⟨answer, health, journal, hwrite⟩ := c.tryWrite_eq text
  rw [hwrite]

theorem writeText_ok_iff {s : σ} {text : String} {uid : Uid} :
    ((writeText text).perform .exit s).1 = .ok uid ↔ WritesCard s text uid := by
  constructor
  · intro h
    obtain ⟨found, hfound, hrest⟩ := Operation.perform_bind_ok h
    obtain ⟨_, hwritten, hend⟩ := Operation.perform_bind_ok hrest
    cases hend
    exact ⟨_, hfound, rfl, hwritten⟩
  · rintro ⟨_, hfound, rfl, hwritten⟩
    rw [writeText, Operation.perform_bind_outcome, hfound]
    dsimp only
    rw [Operation.perform_bind_outcome, hwritten]
    rfl

/-- **An attempt to write comes to a card** if and only if that is identified and takes the text. -/
theorem tryWrite_iff (c : Controller σ τ) (text : String) (uid : Uid) :
    (c.tryWrite text).1 = some uid ↔ WritesCard c.bus text uid := by
  have hperform : (c.perform .exit (writeText text)).1 = ((writeText text).perform .exit c.bus).1 := rfl
  rw [← writeText_ok_iff, ← hperform, tryWrite]
  split
  · next heq =>
    rw [heq]
    constructor
    · intro h
      rw [Option.some.inj h]
    · intro h
      rw [Except.ok.inj h]
  · next heq =>
    rw [heq]
    split
    all_goals exact iff_of_false nofun nofun

/-- **One look at both readers**: the job that is due is answered if and only if a card takes its text,
and then with that card. -/
theorem jobs_pollCycle [Sink τ] (c : Controller σ τ) (now : Nat) :
    ((c.pollCycle now).2.jobs = c.jobs.relay now ∧ ∀ job uid, c.jobs.due now = some job →
      ¬ WritesCard ((c.takeJob now).scan .entry now).2.bus job.text uid) ∨
    ∃ job uid, c.jobs.due now = some job ∧
      WritesCard ((c.takeJob now).scan .entry now).2.bus job.text uid ∧
      (c.pollCycle now).2.jobs = (c.jobs.relay now).finish (some uid) := by
  let d := ((c.takeJob now).scan .entry now).2
  have hd : d.jobs = c.jobs.relay now := (jobs_scan ..).trans (jobs_takeJob c now)
  have hcycle : (c.pollCycle now).2 = (d.pollExit now).2 := rfl
  rw [hcycle, ← hd, ← JobBook.pending_relay, ← hd]
  unfold pollExit
  cases hpending : d.jobs.pending with
  | none => exact .inl ⟨jobs_scan d .exit now, nofun⟩
  | some job =>
    have hkept := jobs_tryWrite d job.text
    have hwrites := d.tryWrite_iff job.text
    dsimp only
    split
    · next uid d' hwrite =>
      rw [hwrite] at hkept
      refine .inr ⟨job, uid, rfl, (hwrites uid).1 (by rw [hwrite]), ?_⟩
      exact congrArg (JobBook.finish · (some uid)) hkept
    · next d' hwrite =>
      rw [hwrite] at hkept hwrites
      refine .inl ⟨hkept, ?_⟩
      intro job' uid hjob htakes
      cases hjob
      exact nomatch (hwrites uid).2 htakes

/-- **A job that is due is answered with the card that takes its text.** -/
theorem pollCycle_answers [Sink τ] {c : Controller σ τ} {now : Nat} {job : WriteJob} {uid : Uid}
    (hdue : c.jobs.due now = some job)
    (htakes : WritesCard ((c.takeJob now).scan .entry now).2.bus job.text uid) :
    (c.pollCycle now).2.jobs.answer? job.ticket = some (some uid) := by
  have hpending : (c.jobs.relay now).pending = some job := (c.jobs.pending_relay now).trans hdue
  rcases c.jobs_pollCycle now with ⟨-, hnone⟩ | ⟨job', uid', hdue', htakes', hjobs⟩
  · exact absurd htakes (hnone job uid hdue)
  · obtain rfl : job' = job := Option.some.inj (hdue'.symm.trans hdue)
    obtain rfl : uid' = uid := htakes'.unique htakes
    rw [hjobs]
    exact JobBook.answer?_finish hpending _

variable [Sink τ]

/-- The controller after a turn of events. -/
def undergo (c : Controller σ τ) : Turn σ τ → Controller σ τ
  | .submit text deadline => { c with jobs := c.jobs.submit text deadline }
  | .poll now => (c.pollCycle now).2
  | .rest now => c.takeJob now
  | .meanwhile change => { change c with jobs := c.jobs }

/-- A round of the polling loop is a turn of events. -/
theorem tick_undergo (c : Controller σ τ) (now : Nat) :
    (c.tick now).2 = c.undergo (if c.link.isReady then .poll now else .rest now) := by
  unfold tick
  cases c.link.isReady with
  | true => rfl
  | false => rfl

/-- The controller after a course of events. -/
def undergoAll (c : Controller σ τ) (turns : List (Turn σ τ)) : Controller σ τ :=
  turns.foldl undergo c

theorem accounts_undergo {c : Controller σ τ} {turns : List (Turn σ τ)}
    (h : c.jobs.Accounts (handedIn turns)) (turn : Turn σ τ) :
    (c.undergo turn).jobs.Accounts (handedIn (turns ++ [turn])) := by
  cases turn with
  | submit text deadline =>
    rw [handedIn_submit]
    exact h.submit text deadline
  | poll now =>
    rw [handedIn_other turns rfl]
    obtain hjobs | ⟨job, uid, -, -, hjobs⟩ := c.jobs_pollCycle now
    · exact hjobs.1 ▸ h.relay now
    · exact hjobs ▸ (h.relay now).finish (some uid)
  | rest now =>
    rw [handedIn_other turns rfl]
    exact c.jobs_takeJob now ▸ h.relay now
  | meanwhile change =>
    rw [handedIn_other turns rfl]
    exact h

theorem accounts_undergoAll (c : Controller σ τ) (turns : List (Turn σ τ)) :
    (undergoAll { c with jobs := {} } turns).jobs.Accounts (handedIn turns) := by
  induction turns using List.reverseRecOn with
  | nil => exact JobBook.accounts_nil
  | append_singleton turns turn ih =>
    rw [undergoAll, List.foldl_append]
    exact accounts_undergo ih turn

/-! ## Grounds -/

/-- Whether an answer is one that a turn of events may give: a card was identified at the exit
after the job was taken up, and took the text of the job; or the job was out of time. -/
def Grounded (c : Controller σ τ) (jobs : List WriteJob) (turn : Turn σ τ)
    (answer : Nat × Option Uid) : Prop :=
  ∃ job ∈ jobs, job.ticket = answer.1 ∧
    match turn, answer.2 with
    | .poll now, some uid => WritesCard ((c.takeJob now).scan .entry now).2.bus job.text uid
    | .poll now, none => job.deadline ≤ now
    | .rest now, none => job.deadline ≤ now
    | _, _ => False

theorem grounded_of_lapsed {c : Controller σ τ} {jobs : List WriteJob} (h : c.jobs.Accounts jobs)
    {turn : Turn σ τ} {now : Nat} (hturn : turn.time? = some now) {answer : Nat × Option Uid}
    (hanswer : answer ∈ c.jobs.lapsed now) : Grounded c jobs turn answer := by
  obtain ⟨job, hpending, hlate, rfl⟩ := JobBook.mem_lapsed.1 hanswer
  refine ⟨job, h.mem_of_pending hpending, rfl, ?_⟩
  cases turn with
  | poll now' =>
    cases hturn
    exact hlate
  | rest now' =>
    cases hturn
    exact hlate
  | submit text deadline => cases hturn
  | meanwhile change => cases hturn

/-- Whether these are the answers that a turn of events gives, newest first. Each has its ground; the job
that was taken up is among those answered if it is out of time, and the one that is due if a card takes
its text. -/
structure Gives (c : Controller σ τ) (jobs : List WriteJob) (turn : Turn σ τ)
    (given : List (Nat × Option Uid)) : Prop where
  answers : (c.undergo turn).jobs.answers = given ++ c.jobs.answers
  grounded : ∀ answer ∈ given, Grounded c jobs turn answer
  lapsed : ∀ now, turn.time? = some now → c.jobs.lapsed now ⊆ given
  taken : ∀ now job uid, turn = .poll now → c.jobs.due now = some job →
    WritesCard ((c.takeJob now).scan .entry now).2.bus job.text uid → (job.ticket, some uid) ∈ given

theorem gives_nothing {c : Controller σ τ} {jobs : List WriteJob} {turn : Turn σ τ}
    (hturn : turn.time? = none) (hsame : (c.undergo turn).jobs.answers = c.jobs.answers) :
    c.Gives jobs turn [] where
  answers := hsame
  grounded := fun _ hanswer => absurd hanswer List.not_mem_nil
  lapsed := by
    intro now htime
    rw [hturn] at htime
    cases htime
  taken := by
    intro now job uid hpoll
    rw [hpoll] at hturn
    cases hturn

/-- While the link is down, jobs only run out of time. -/
theorem gives_rest {c : Controller σ τ} {jobs : List WriteJob} (h : c.jobs.Accounts jobs) (now : Nat) :
    c.Gives jobs (.rest now) (c.jobs.lapsed now) where
  answers := by
    show (c.takeJob now).jobs.answers = _
    rw [jobs_takeJob, JobBook.answers_relay]
  grounded := fun _ => grounded_of_lapsed h rfl
  lapsed := by
    rintro _ ⟨⟩
    exact List.Subset.refl _
  taken := by
    intro _ _ _ hturn
    cases hturn

/-- A look at the readers gives up the job that is out of time, and then writes the one that is due if a
card takes its text. -/
theorem gives_poll {c : Controller σ τ} {jobs : List WriteJob} (h : c.jobs.Accounts jobs) (now : Nat) :
    ∃ given, c.Gives jobs (.poll now) given := by
  have hrelay := c.jobs.answers_relay now
  obtain ⟨hjobs, hnone⟩ | ⟨job, uid, hdue, hwritten, hjobs⟩ := c.jobs_pollCycle now
  · refine ⟨c.jobs.lapsed now, ?_, fun _ => grounded_of_lapsed h rfl, ?_, ?_⟩
    · show (c.pollCycle now).2.jobs.answers = _
      rw [hjobs, hrelay]
    · rintro _ ⟨⟩
      exact List.Subset.refl _
    · rintro _ job uid ⟨⟩ hdue htakes
      exact absurd htakes (hnone job uid hdue)
  · have hpending : (c.jobs.relay now).pending = some job := (c.jobs.pending_relay now).trans hdue
    refine ⟨(job.ticket, some uid) :: c.jobs.lapsed now, ?_, ?_, ?_, ?_⟩
    · show (c.pollCycle now).2.jobs.answers = _
      rw [hjobs, JobBook.answers_finish, hrelay, hpending]
      rfl
    · intro answer hanswer
      obtain rfl | hlapsed := List.mem_cons.1 hanswer
      · exact ⟨job, (h.relay now).mem_of_pending hpending, rfl, hwritten⟩
      · exact grounded_of_lapsed h rfl hlapsed
    · rintro _ ⟨⟩
      exact List.subset_cons_self _ _
    · rintro _ job' uid' ⟨⟩ hdue' htakes
      obtain rfl : job = job' := Option.some.inj (hdue.symm.trans hdue')
      rw [hwritten.unique htakes]
      exact List.mem_cons_self

theorem answers_undergo {c : Controller σ τ} {jobs : List WriteJob} (h : c.jobs.Accounts jobs)
    (turn : Turn σ τ) : ∃ given, c.Gives jobs turn given := by
  cases turn with
  | submit text deadline => exact ⟨[], gives_nothing rfl rfl⟩
  | meanwhile change => exact ⟨[], gives_nothing rfl rfl⟩
  | rest now => exact ⟨c.jobs.lapsed now, gives_rest h now⟩
  | poll now => exact gives_poll h now

end Controller

/-- **No job is lost, none is answered twice or before an older one.** After any course of events
the jobs handed in are those answered, then the one taken up, if there is one, then those that
wait; the answers are those to the jobs answered, in this order. Whatever the next turn of events,
its answers have their grounds; a job that was taken up and is out of time is answered with no card;
and the job that is attempted, the one that was taken up if it is in time and else the first that
waits, is answered with the card that takes its text, if one does. -/
theorem jobs_answered_in_turn {σ τ : Type} [RegisterBus σ] [Sink τ] (c : Controller σ τ)
    (past : List (Turn σ τ)) (turn : Turn σ τ) :
    let before := Controller.undergoAll { c with jobs := {} } past
    ∃ done given,
      handedIn past = done ++ before.jobs.pending.toList ++ before.jobs.waiting ∧
      before.jobs.answers.reverse.map Prod.fst = done.map WriteJob.ticket ∧
      done.map WriteJob.ticket = List.range done.length ∧
      (before.undergo turn).jobs.answers = given ++ before.jobs.answers ∧
      (∀ answer ∈ given, before.Grounded (handedIn past) turn answer) ∧
      (∀ now job, turn.time? = some now → before.jobs.pending = some job → job.deadline ≤ now →
        (job.ticket, none) ∈ given) ∧
      ∀ now job uid, turn = .poll now → before.jobs.due now = some job →
        WritesCard ((before.takeJob now).scan .entry now).2.bus job.text uid →
        (job.ticket, some uid) ∈ given := by
  intro before
  have haccounts : before.jobs.Accounts (handedIn past) := c.accounts_undergoAll past
  obtain ⟨done, hjobs, hanswers⟩ := haccounts.settled
  obtain ⟨given, hgiven⟩ := Controller.answers_undergo haccounts turn
  refine ⟨done, given, hjobs, hanswers, ?_, hgiven.answers, hgiven.grounded, ?_, hgiven.taken⟩
  · -- the jobs answered are the first of those handed in
    have hall := tickets_handedIn past
    have htake : (handedIn past).take done.length = done := by
      rw [hjobs, List.append_assoc, List.take_left]
    have hle : done.length ≤ (handedIn past).length := by
      rw [hjobs, List.append_assoc, List.length_append]
      omega
    rw [← htake, List.map_take, hall, List.take_range, htake, Nat.min_eq_left hle]
  · intro now job htime hpending hlate
    exact hgiven.lapsed now htime (JobBook.mem_lapsed.2 ⟨job, hpending, hlate, rfl⟩)

/-- A card comes too late for the first job, and in the cycle in which that is given up the second
one is written. -/
example :
    let c : Controller Field Outbox := { bus := Field.new, desk := { settings := ⟨{}, {}⟩, outbox := {} } }
    let arrive := fun d : Controller Field Outbox =>
      { d with bus := d.bus.present .exit { uid := ⟨5, 6, 7, 8⟩ } }
    (c.undergoAll [.submit "Ana" 100, .submit "Eva" 900, .poll 50, .meanwhile arrive, .poll 200]).jobs.answers =
      [(1, some ⟨5, 6, 7, 8⟩), (0, none)] := by
  decide +kernel

end Turnstile

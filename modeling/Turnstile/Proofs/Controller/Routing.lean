import Turnstile.Controller.Inbound
import Turnstile.Proofs.Settings.Rereading

/-!
# Commands on their way in

What becomes of the octets that arrive while the queue of commands is emptied from the other
end.

* `Controller.admits?`: the command that octets bring into the queue, if they bring one.
* `Traffic`: what happens around the queue; `History` keeps record of it.
* `History.Balances`: the invariant. What was admitted is what was received, what waits and what
  was lost, in this order.
* `Controller.route_sent`: what is sent when octets arrive, which is a refusal or nothing.
* `inbound_routing`: **commands are received in the order of their arrival, each once**.
-/

namespace Turnstile

namespace Controller

variable {σ τ : Type}

/-- The command that arriving octets bring into the queue: they spell one, it is not to update the
firmware, and the queue is open and has room. -/
def admits? (c : Controller σ τ) (bs : Bytes) : Option Command :=
  match Command.ofBytes bs with
  | .error _ => none
  | .ok command =>
    if command.request ≠ .updateFirmware ∧ c.commands.closed = false ∧
        c.commands.waiting.length < c.commands.capacity then some command
    else none

theorem commands_enqueue (c : Controller σ τ) (command : Command) :
    (c.enqueue command).commands = (c.commands.send command).2 := rfl

variable [Sink τ]

theorem commands_refuseUpdate (c : Controller σ τ) (command : Command) :
    (c.refuseUpdate command).commands = c.commands := by
  unfold refuseUpdate
  dsimp only
  split
  · rfl
  · rfl

/-- **What arriving octets do to the queue**: what they bring in waits at the end. -/
theorem commands_route (c : Controller σ τ) (bs : Bytes) : (c.route bs).commands =
    { c.commands with waiting := c.commands.waiting ++ (c.admits? bs).toList } := by
  have hnone : c.commands =
      { c.commands with waiting := c.commands.waiting ++ (none : Option Command).toList } := by
    simp only [Option.toList_none, List.append_nil]
  unfold route admits?
  cases hread : Command.ofBytes bs with
  | error fault => exact hnone
  | ok command =>
    dsimp only
    by_cases hupdate : command.request = .updateFirmware
    · rw [if_pos hupdate, if_neg fun h => h.1 hupdate, commands_refuseUpdate]
      exact hnone
    rw [if_neg hupdate, commands_enqueue, CommandQueue.send]
    by_cases hclosed : c.commands.closed = true
    · rw [if_pos hclosed, if_neg fun h => by simp [hclosed] at h]
      exact hnone
    rw [if_neg hclosed]
    by_cases hroom : c.commands.waiting.length < c.commands.capacity
    · rw [if_pos hroom, if_pos ⟨hupdate, eq_false_of_ne_true hclosed, hroom⟩]
      rfl
    · rw [if_neg hroom, if_neg fun h => hroom h.2.2]
      exact hnone

omit [Sink τ] in
theorem admits?_eq_some {c : Controller σ τ} {bs : Bytes} {command : Command}
    (h : c.admits? bs = some command) : Command.ofBytes bs = .ok command ∧
      command.request ≠ .updateFirmware ∧ c.commands.closed = false ∧
      c.commands.waiting.length < c.commands.capacity := by
  unfold admits? at h
  split at h
  · cases h
  · next command' hread =>
    split at h
    · next hadmitted =>
      cases h
      exact ⟨hread, hadmitted⟩
    · cases h

/-! ## What is sent on arrival -/

/-- Octets that do not spell a command only leave an entry in the log. -/
theorem route_unread {bs : Bytes} {fault : Json.Fault} (h : Command.ofBytes bs = .error fault)
    (c : Controller σ τ) :
    c.route bs = c.note .warn s!"Command JSON parse error: {fault.label}" := by
  rw [route, h]

/-- **A command to update the firmware is refused on the spot** if it says from where; nothing else
that arrives is answered. -/
theorem route_sent {bs : Bytes} {command : Command} (h : Command.ofBytes bs = .ok command)
    (c : Controller σ (Recorder τ)) :
    (∀ url, command.request = .updateFirmware → command.url = some url →
      ∃ verdict, (c.route bs).desk.outbox.sent = c.desk.outbox.sent ++
        [(⟨c.desk.current.responseTopic, (Report.firmwareUpdate "retornoOta" false
          c.desk.current.deviceId command.requestId url).text, .atLeastOnce, false⟩, verdict)]) ∧
    (command.request ≠ .updateFirmware ∨ command.url = none →
      (c.route bs).desk.outbox = c.desk.outbox) := by
  have hroute : c.route bs =
      if command.request = .updateFirmware then c.refuseUpdate command else c.enqueue command := by
    rw [route, h]
  constructor
  · intro url hupdate hurl
    rw [hroute, if_pos hupdate, refuseUpdate, Command.updateRefusal?, hurl]
    exact respond_sent (c.log (updateEntries command)) _ .atLeastOnce "retornoOta"
  · rintro (hother | hurl)
    · rw [hroute, if_neg hother]
      rfl
    · rw [hroute]
      split
      · rw [refuseUpdate, Command.updateRefusal?, hurl]
        rfl
      · rfl

end Controller

/-! ## Around the queue -/

/-- What happens around the queue of commands. -/
inductive Traffic (σ τ : Type) where
  /-- Octets arrive. -/
  | arrive (bs : Bytes)
  /-- The next command is taken from the queue, to be carried out. -/
  | receive
  /-- From now on nobody carries out commands. -/
  | close
  /-- Something else is done, which leaves the queue alone. -/
  | meanwhile (work : Controller σ τ → Controller σ τ) (h : ∀ c, (work c).commands = c.commands)

/-- A controller and what happened to its commands. -/
structure History (σ τ : Type) where
  controller : Controller σ τ
  /-- The commands that arriving octets brought into the queue. -/
  admitted : List Command := []
  /-- The commands that were taken from the queue. -/
  received : List Command := []
  /-- The commands that waited when nobody carried out commands any more. -/
  lost : List Command := []

namespace History

variable {σ τ : Type} [Sink τ]

/-- The start, with an empty queue. -/
def start (c : Controller σ τ) (capacity : Nat) : History σ τ :=
  { controller := { c with commands := { capacity } } }

/-- Something happens. -/
def step (s : History σ τ) : Traffic σ τ → History σ τ
  | .arrive bs =>
    { s with
      controller := s.controller.route bs
      admitted := s.admitted ++ (s.controller.admits? bs).toList }
  | .receive =>
    { s with
      controller := { s.controller with commands := s.controller.commands.receive.2 }
      received := s.received ++ s.controller.commands.receive.1.toList }
  | .close =>
    { s with
      controller := { s.controller with commands := s.controller.commands.close }
      lost := s.controller.commands.waiting ++ s.lost }
  | .meanwhile work _ => { s with controller := work s.controller }

/-- One thing happens after another. -/
def run (s : History σ τ) (course : List (Traffic σ τ)) : History σ τ :=
  course.foldl step s

/-- The commands that were admitted are accounted for: they were received, they wait, or they were
lost when nobody received them any more. None of them is to update the firmware. -/
structure Balances (s : History σ τ) : Prop where
  admitted : s.received ++ s.controller.commands.waiting ++ s.lost = s.admitted
  lost : s.controller.commands.closed = false → s.lost = []
  others : ∀ command ∈ s.admitted, command.request ≠ .updateFirmware

omit [Sink τ] in
theorem balances_start (c : Controller σ τ) (capacity : Nat) : (start c capacity).Balances where
  admitted := rfl
  lost _ := rfl
  others _ h := absurd h List.not_mem_nil

/-- **Whatever happens, the account stays balanced.** -/
theorem Balances.step {s : History σ τ} (h : s.Balances) (t : Traffic σ τ) : (s.step t).Balances := by
  cases t with
  | arrive bs =>
    have hcommands := s.controller.commands_route bs
    refine ⟨?_, fun hopen => h.lost ?_, fun command hcommand => ?_⟩
    · simp only [History.step, hcommands]
      cases hadmits : s.controller.admits? bs with
      | none => simpa using h.admitted
      | some command =>
        -- a command comes in only while the queue is open, and then nothing is lost yet
        have hlost := h.lost (Controller.admits?_eq_some hadmits).2.2.1
        have hadmitted := h.admitted
        rw [hlost, List.append_nil] at hadmitted
        rw [hlost, List.append_nil, ← hadmitted]
        simp only [Option.toList_some, List.append_assoc]
    · rw [History.step, hcommands] at hopen
      exact hopen
    · rcases List.mem_append.1 hcommand with hbefore | hnew
      · exact h.others command hbefore
      · have hadmits : s.controller.admits? bs = some command := by simpa using hnew
        exact (Controller.admits?_eq_some hadmits).2.1
  | receive =>
    cases hwaiting : s.controller.commands.waiting with
    | nil =>
      have hnone : s.controller.commands.receive = (none, s.controller.commands) := by
        rw [CommandQueue.receive, hwaiting]
      have hsame : s.step .receive = s := by
        simp only [History.step, hnone, Option.toList_none, List.append_nil]
      rw [hsame]
      exact h
    | cons command rest =>
      -- the first command that waits becomes the last one received
      have htaken : s.controller.commands.receive =
          (some command, { s.controller.commands with waiting := rest }) := by
        rw [CommandQueue.receive, hwaiting]
      have hadmitted := h.admitted
      rw [hwaiting] at hadmitted
      refine ⟨?_, ?_, h.others⟩
      · simp only [History.step, htaken, Option.toList_some, ← hadmitted]
        simp only [List.append_assoc, List.singleton_append]
      · simpa only [History.step, htaken] using h.lost
  | close =>
    have hadmitted := h.admitted
    refine ⟨?_, fun hopen => absurd hopen (by simp [History.step, CommandQueue.close]), h.others⟩
    simpa [History.step, CommandQueue.close] using hadmitted
  | meanwhile work hwork =>
    refine ⟨?_, ?_, h.others⟩
    · simpa only [History.step, hwork] using h.admitted
    · simpa only [History.step, hwork] using h.lost

theorem Balances.run {s : History σ τ} (h : s.Balances) (course : List (Traffic σ τ)) :
    (s.run course).Balances := by
  induction course generalizing s with
  | nil => exact h
  | cons t course ih => exact ih (h.step t)

end History

section Routing

variable {σ τ : Type} [Sink τ]

/-- **Commands are received in the order of their arrival, each once.** With a queue of any capacity
that starts empty, whatever arrives, is received or happens besides: the commands received, then those
that wait, then those lost when nobody received any more, are those that arriving octets brought into
the queue. None of them is to update the firmware. At any moment, octets that spell no command leave
all as it is but the log; a command to update the firmware that says from where has its refusal sent,
once; and nothing else that arrives has anything sent. -/
theorem inbound_routing (c : Controller σ (Recorder τ)) (capacity : Nat)
    (course : List (Traffic σ (Recorder τ))) :
    let s := (History.start c capacity).run course
    s.received ++ s.controller.commands.waiting ++ s.lost = s.admitted ∧
    (s.controller.commands.closed = false → s.lost = []) ∧
    (∀ command ∈ s.received ++ s.controller.commands.waiting, command.request ≠ .updateFirmware) ∧
    (∀ bs fault, Command.ofBytes bs = .error fault → s.controller.route bs =
      s.controller.note .warn s!"Command JSON parse error: {fault.label}") ∧
    ∀ bs command, Command.ofBytes bs = .ok command →
      (∀ url, command.request = .updateFirmware → command.url = some url → ∃ verdict,
        (s.controller.route bs).desk.outbox.sent = s.controller.desk.outbox.sent ++
          [(⟨s.controller.desk.current.responseTopic, (Report.firmwareUpdate "retornoOta" false
            s.controller.desk.current.deviceId command.requestId url).text, .atLeastOnce, false⟩,
            verdict)]) ∧
      (command.request ≠ .updateFirmware ∨ command.url = none →
        (s.controller.route bs).desk.outbox = s.controller.desk.outbox) := by
  intro s
  have hbalances : s.Balances := (History.balances_start c capacity).run course
  refine ⟨hbalances.admitted, hbalances.lost, fun command hcommand => ?_, ?_, ?_⟩
  · have hadmitted : command ∈ s.admitted := by
      rw [← hbalances.admitted]
      exact List.mem_append_left _ hcommand
    exact hbalances.others command hadmitted
  · exact fun bs fault hunread => Controller.route_unread hunread s.controller
  · exact fun bs command hread => Controller.route_sent hread s.controller

end Routing

/-- A question for the presence of the controller. -/
def presenceOctets : Bytes :=
  Utf8.encode "\x7b\"action\":\"status_now\"\x7d"

/-- A command to update the firmware from somewhere. -/
def updateOctets : Bytes :=
  Utf8.encode "\x7b\"action\":\"otaUpdate\",\"url\":\"u\"\x7d"

/-- A controller without readers. -/
def unequipped : Controller Unit (Recorder Outbox) :=
  { bus := (), desk := { settings := ⟨{}, {}⟩, outbox := { inner := {} } } }

/-- Two commands arrive for one place, then one to update the firmware; a command is received, and
another one arrives. -/
def onePlaceCourse : List (Traffic Unit (Recorder Outbox)) :=
  [.arrive presenceOctets, .arrive presenceOctets, .arrive updateOctets, .receive,
    .arrive presenceOctets]

/-- A command that finds no place is dropped, one to update the firmware is refused and never waits,
and the next one comes in when the first was received. -/
theorem inbound_routing_one_place :
    let s := (History.start unequipped 1).run onePlaceCourse
    s.received ++ s.controller.commands.waiting = s.admitted ∧ s.admitted.length = 2 ∧
      s.controller.route [0x7b] =
        s.controller.note .warn s!"Command JSON parse error: {Json.Fault.truncated.label}" ∧
      ∃ verdict, (s.controller.route updateOctets).desk.outbox.sent =
        s.controller.desk.outbox.sent ++ [(⟨s.controller.desk.current.responseTopic,
          (Report.firmwareUpdate "retornoOta" false s.controller.desk.current.deviceId "-" "u").text,
          .atLeastOnce, false⟩, verdict)] := by
  obtain ⟨hadmitted, hlost, -, hunread, hread⟩ := inbound_routing unequipped 1 onePlaceCourse
  have hopen : ((History.start unequipped 1).run onePlaceCourse).controller.commands.closed = false := by
    decide +kernel
  have hcommand : Command.ofBytes updateOctets = .ok
      { action := "otaUpdate", url := some "u", raw := Utf8.decodeLossy updateOctets } :=
    Json.ok_of_toOption (by decide +kernel)
  have hrefused := (hread updateOctets _ hcommand).1 "u" (by decide +kernel) rfl
  rw [hlost hopen, List.append_nil] at hadmitted
  exact ⟨hadmitted, by decide +kernel, hunread [0x7b] .truncated (by decide +kernel), hrefused⟩

end Turnstile

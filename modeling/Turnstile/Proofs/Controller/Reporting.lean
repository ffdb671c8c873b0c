import Turnstile.Controller.Reporting
import Turnstile.Proofs.Desk.Requests
import Turnstile.Proofs.Report.Payloads

/-!
# Status reports

From time to time the back office is told how the controller is. The reports are sent in rounds without
an end, whatever else the controller does between two rounds.

* `Controller.reportStatus_cases`: **a report is sent if the link is up**, and it tells how the controller
  is; while the link is down nothing happens.
* `Reporting`: what comes of some rounds of the loop.
* `Reporting.spaced`: **between two reports there are 30 s at least**, so there are never more of them than
  half minutes.
-/

namespace Turnstile

/-- The signal strength that is reported is that of a network, or the one that stands for none. -/
theorem Metrics.isInt32_rssi (m : Metrics) : IsInt32 m.rssi := by
  unfold rssi IsInt32 Text.int32Min Text.int32Max
  cases m.signal with
  | none => decide
  | some signal =>
    have hlow : -2 ^ 7 ≤ signal.toInt := signal.le_toInt
    have hhigh : signal.toInt < 2 ^ 7 := signal.toInt_lt
    show _ ≤ signal.toInt ∧ signal.toInt ≤ _
    omega

namespace Controller

variable {σ τ : Type} [Sink τ]

/-- What a status report tells. -/
def statusMembers (c : Controller σ τ) (m : Metrics) (uptime : Nat) : List (String × Json) :=
  let state role := (c.health.state role c.desk.current.enableCards).label
  [("action", .string "status"), ("online", .bool true), ("id", .string c.desk.current.deviceId),
    ("rssi", .ofInt m.rssi), ("uptime", .ofInt uptime), ("freeHeap", .ofInt m.freeHeap.toNat),
    ("fw", .string firmwareVersion),
    ("rc522", .object [("in", .string (state .entry)), ("out", .string (state .exit))])]

/-- Whether a message is the status report of a controller at a time. -/
structure Reports (c : Controller σ τ) (m : Metrics) (now : Nat) (report : Message) : Prop where
  topic : report.topic = c.desk.current.statusTopic
  delivery : report.delivery = .atLeastOnce
  retain : report.retain = true
  tells : report.Tells (c.statusMembers m (now / 1000000))

omit [Sink τ] in
theorem statusMessage_reports (c : Controller σ τ) (m : Metrics) {now : Nat}
    (hnow : now ≤ 18446744073709551615) :
    c.Reports m now (c.statusMessage m.rssi (now / 1000000) m.freeHeap.toNat) where
  topic := rfl
  delivery := rfl
  retain := rfl
  tells := by
    have huptime : now / 1000000 ≤ 18446744073709551615 := (Nat.div_le_self _ _).trans hnow
    have hheap : m.freeHeap.toNat ≤ maxNat32 := Nat.le_of_lt_succ m.freeHeap.toNat_lt
    have hreadable : (c.health.report c.desk.current.deviceId c.desk.current.enableCards m.rssi
        (now / 1000000) m.freeHeap.toNat).Readable := ⟨m.isInt32_rssi, huptime, hheap⟩
    exact hreadable.tells c.desk.current.statusTopic .atLeastOnce true

/-- **A report is sent if the link is up.** It is one message, to be kept for whoever asks later, and
tells how the controller is. While the link is down nothing happens. -/
theorem reportStatus_cases (c : Controller σ (Recorder τ)) (m : Metrics) {now : Nat}
    (hnow : now ≤ 18446744073709551615) :
    (c.link.isReady = true ∧ ∃ report outbox journal verdict, c.Reports m now report ∧
      outbox.sent = c.desk.outbox.sent ++ [(report, verdict)] ∧
      c.reportStatus m now = (some report, { c with desk := { c.desk with outbox, journal } })) ∨
    (c.link.isReady = false ∧ c.reportStatus m now = (none, c)) := by
  unfold reportStatus
  cases hready : c.link.isReady with
  | true =>
    obtain ⟨journal, hsend⟩ := c.desk.send_eq (c.statusMessage m.rssi (now / 1000000) m.freeHeap.toNat)
    refine .inl ⟨rfl, _, (Sink.send c.desk.outbox _).2, journal, _, c.statusMessage_reports m hnow, rfl,
      ?_⟩
    rw [if_pos rfl]
    dsimp only
    rw [hsend]
  | false => exact .inr ⟨rfl, if_neg Bool.false_ne_true⟩

end Controller

/-! ## Rounds of the loop -/

theorem Controller.reportRound_time {σ τ : Type} [Sink τ] (c : Controller σ τ) (m : Metrics)
    (now late : Nat) : (c.reportRound m now late).2.1 = now + statusIntervalMs * 1000 + late := rfl

/-- What comes of some rounds of the loop that begin at a time, with anything in between: the reports and
when each was sent, the controller after that, and the time. -/
inductive Reporting {σ τ : Type} [Sink τ] (c : Controller σ τ) (start : Nat) :
    List (Nat × Message) → Controller σ τ → Nat → Prop
  | start : Reporting c start [] c start
  | round {reports : List (Nat × Message)} {d e : Controller σ τ} {now later : Nat} {m : Metrics}
    {late : Nat} {sent : Option Message} (h : Reporting c start reports d now)
    (hround : d.reportRound m now late = (sent, later, e)) :
    Reporting c start (reports ++ sent.toList.map (later, ·)) e later
  | meanwhile {reports : List (Nat × Message)} {d e : Controller σ τ} {now : Nat}
    (h : Reporting c start reports d now) : Reporting c start reports e now

namespace Reporting

variable {σ τ : Type} [Sink τ] {c d : Controller σ τ} {start now : Nat} {reports : List (Nat × Message)}

/-- **Between two reports there are 30 s at least**, and before the first one too: the reports are not
more than the rounds of 30 s that fit into the time. -/
theorem spaced (h : Reporting c start reports d now) :
    (reports.map (·.1)).Pairwise (fun a b => a + statusIntervalMs * 1000 ≤ b) ∧
      (∀ time ∈ reports.map (·.1), start + statusIntervalMs * 1000 ≤ time ∧ time ≤ now) ∧
      start + reports.length * (statusIntervalMs * 1000) ≤ now := by
  obtain ⟨interval, hinterval⟩ : ∃ interval, statusIntervalMs * 1000 = interval := ⟨_, rfl⟩
  rw [hinterval]
  induction h with
  | start => exact ⟨.nil, nofun, by simp⟩
  | @round reports d e now later m late sent h hround ih =>
    obtain ⟨hspaced, hpast, hcount⟩ := ih
    obtain rfl : now + interval + late = later := by
      rw [← hinterval, ← d.reportRound_time m, hround]
    cases sent with
    | none =>
      rw [Option.toList_none, List.map_nil, List.append_nil]
      refine ⟨hspaced, fun time htime => ?_, by omega⟩
      have := hpast time htime
      omega
    | some report =>
      rw [Option.toList_some, List.map_singleton, List.map_append, List.map_singleton]
      refine ⟨List.pairwise_append.2 ⟨hspaced, List.pairwise_singleton _ _, ?_⟩, ?_, ?_⟩
      · intro a ha b hb
        rw [List.mem_singleton.1 hb]
        have := hpast a ha
        dsimp only
        omega
      · intro time htime
        rcases List.mem_append.1 htime with htime | htime
        · have := hpast time htime
          omega
        · rw [List.mem_singleton.1 htime]
          dsimp only
          have : start ≤ now := (Nat.le_add_right _ _).trans hcount
          omega
      · rw [List.length_append, List.length_singleton, Nat.add_mul]
        omega
  | meanwhile h ih => exact ih

end Reporting

end Turnstile

import Turnstile.Outbox
import Turnstile.Proofs.Command.Reading
import Turnstile.Proofs.Settings.Restart
import Turnstile.Report

/-!
# What a report tells

The payload of a message is one object, whatever strings it is made of.

* `Message.Tells`: the payload of a message is an object of certain members, each of another name.
* `Report.Readable`: the integers of a report are those of its fields' types.
* `Report.read_back`: the payload of a report is read as the object that was written.
* `Report.tells`: **a message with a report tells the members of the report**, and no others.
* `text_ofInt`: an integer that is written as a string.
-/

namespace Turnstile

/-- An integer in decimal. -/
theorem text_ofInt (n : Int) : (Number.ofInt n).text = toString n := by
  cases n with
  | ofNat n => rfl
  | negSucc n =>
    show String.ofList ('-' :: Nat.toDigits 10 (n + 1)) = "-" ++ String.ofList (Nat.toDigits 10 (n + 1))
    rw [← String.toList_inj]
    simp only [String.toList_append, String.toList_ofList]
    rfl

/-- Whether the payload of a message is an object of these members, in this order, and no two of them
have one name. -/
structure Message.Tells (m : Message) (members : List (String × Json)) : Prop where
  document : Json.ofBytes (Utf8.encode m.payload) = .ok (.object members)
  once : (members.map (·.1)).Nodup

namespace Report

/-- Whether the integers of a report are in the range of their fields. -/
def Readable : Report → Prop
  | output _ pin _ => IsInt32 pin
  | courtOutput _ pin _ _ _ => IsInt32 pin
  | status _ rssi uptime freeHeap _ _ =>
    IsInt32 rssi ∧ uptime ≤ 18446744073709551615 ∧ freeHeap ≤ maxNat32
  | _ => True

/-- The members of a report. -/
def members (r : Report) : List (String × Json) :=
  r.toJson.members?.getD []

theorem toJson_members (r : Report) : r.toJson = .object r.members := by
  cases r <;> rfl

/-- No two members of a report have one name. -/
theorem members_nodup (r : Report) : (r.members.map (·.1)).Nodup := by
  cases r <;> simp [members, toJson, Json.members?]

theorem fits_int32 {depth : Nat} {n : Int} (h : IsInt32 n) : Json.Fits depth (.ofInt n) := by
  obtain ⟨hlow, hhigh⟩ := h
  unfold Text.int32Min at hlow
  unfold Text.int32Max at hhigh
  exact .integer (by omega) (by omega)

theorem fits_nat {depth n : Nat} (h : n ≤ 18446744073709551615) : Json.Fits depth (.ofInt n) :=
  .integer (by omega) (by omega)

/-- A report is nested two levels deep at most, and its integers fit in 64 bits. -/
theorem Readable.fits {r : Report} (h : r.Readable) {depth : Nat} : Json.Fits (depth + 2) r.toJson := by
  -- a report is one object, so what remains are its members
  have hflat : ∀ ms : List (String × Json), (∀ m ∈ ms, Json.Fits (depth + 1) m.2) →
      Json.Fits (depth + 2) (.object ms) := fun ms hms => .object hms
  cases r with
  | output action pin requestId =>
    have hpin : Json.Fits (depth + 1) (.ofInt pin) := fits_int32 h
    exact hflat _ (by simp [Json.Fits.string, hpin])
  | courtOutput action pin state court requestId =>
    have hpin : Json.Fits (depth + 1) (.ofInt pin) := fits_int32 h
    exact hflat _ (by simp [Json.Fits.string, hpin])
  | status deviceId rssi uptime freeHeap entry exit =>
    have hrssi : Json.Fits (depth + 1) (.ofInt rssi) := fits_int32 h.1
    have huptime : Json.Fits (depth + 1) (.ofInt uptime) := fits_nat h.2.1
    have hheap : Json.Fits (depth + 1) (.ofInt freeHeap) := fits_nat (Nat.le_trans h.2.2 (by decide))
    have hreaders : Json.Fits (depth + 1)
        (.object [("in", .string entry.label), ("out", .string exit.label)]) :=
      .object (by simp [Json.Fits.string])
    exact hflat _ (by simp [Json.Fits.string, Json.Fits.bool, hrssi, huptime, hheap, hreaders])
  | _ => exact hflat _ (by simp [Json.Fits.string, Json.Fits.bool])

/-- **The payload of a report is read back.** -/
theorem Readable.read_back {r : Report} (h : r.Readable) :
    Json.ofBytes (Utf8.encode r.text) = .ok (.object r.members) := by
  have hfits : Json.Fits (125 + 2) r.toJson := h.fits
  have hread : Json.ofBytes r.toJson.bytes = .ok r.toJson := (Json.json_written hfits).read
  rw [← toJson_members]
  exact hread

/-- **A message with a report tells the members of the report.** -/
theorem Readable.tells {r : Report} (h : r.Readable) (topic : String) (delivery : Delivery)
    (retain : Bool) : Message.Tells ⟨topic, r.text, delivery, retain⟩ r.members where
  document := h.read_back
  once := r.members_nodup

end Report

/-! ## The integers of commands -/

theorem Command.isInt32_lenientInt (j : Json) : IsInt32 (lenientInt j) := by
  have hclamp : ∀ n, IsInt32 (Text.clamp32 n) := by
    intro n
    unfold IsInt32 Text.clamp32 Text.int32Min Text.int32Max
    omega
  have hzero : IsInt32 0 := ⟨by decide, by decide⟩
  unfold lenientInt
  cases j with
  | number n =>
    show IsInt32 (Text.wrap32 n.toInt64)
    have hlow := Int.le_bmod (x := n.toInt64) (m := 4294967296) (by decide)
    have hhigh := Int.bmod_lt (x := n.toInt64) (m := 4294967296) (by decide)
    unfold IsInt32 Text.wrap32 Text.int32Min Text.int32Max
    omega
  | string s =>
    show IsInt32 (Text.leadingInt s)
    unfold Text.leadingInt
    split <;> exact hclamp _
  | _ => exact hzero

/-- The output that a command names is a 32-bit integer, whatever the octets were. -/
theorem Command.isInt32_pin {bs : Bytes} {c : Command} (h : Command.ofBytes bs = .ok c) :
    IsInt32 c.pin := by
  have hyields : (Json.record fields {}).Yields fun c => IsInt32 c.pin := by
    refine Json.record_keeps ?_ (by decide)
    simp only [fields, List.forall_mem_cons, List.mem_nil_iff, false_implies, implies_true, and_true]
    refine ⟨?_, ?_, ?_, ?_, ?_, ?_, ?_, ?_⟩
    -- the second field is the output; the others leave it alone
    case refine_2 => exact Json.Field.keeps_of _ _ fun _ j _ => isInt32_lenientInt j
    all_goals exact Json.Field.keeps_of _ _ fun _ _ hc => hc
  obtain ⟨c₀, rest, hrecord, -, rfl⟩ := Command.ofBytes_record.1 h
  exact hyields Json.maxNesting bs c₀ rest hrecord

end Turnstile

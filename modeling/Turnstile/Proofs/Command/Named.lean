import Turnstile.Proofs.Command.Reading
import Turnstile.Proofs.Json.Named

/-!
# Commands read by name

* `Command.ofValues`: what a command makes of the values of its fields.
* `object_commands_read`: **every object whose names differ, and whose numbers can be read, is read as a
  command**, each field from the member of its name.
* `number_below_greatest_refused`: not every number up to the greatest double can be read.
-/

namespace Turnstile

open Json Json.Octet

/-- The integer of a number, or at the start of a text. -/
def Json.integer? : Json → Option Int
  | .number n => some n.toInt32
  | .string s => some (Text.leadingInt s)
  | _ => none

namespace Command

/-- The names of the fields. -/
def names : List String :=
  fields.map Field.name

/-- What a command makes of the values of its fields. One that is missing, or of another type,
counts for the default. -/
def ofValues (value? : String → Option Json) : Command where
  action := ((value? "action").bind Json.string?).getD ""
  pin := ((value? "pin").bind Json.integer?).getD 0
  state := ((value? "estat").bind Json.integer?).getD 0
  court := ((value? "idPista").bind Json.integer?).getD 0
  requestId := ((value? "idPeticion").bind Json.string?).getD "-"
  result := ((value? "result").bind Json.string?).getD ""
  kind := ((value? "type").bind Json.string?).getD ""
  url := (value? "url").bind Json.string?

theorem lenientInt_eq (j : Json) : lenientInt j = j.integer?.getD 0 := by
  cases j <;> rfl

/-- **A command is made of the values of its fields**, the last one of each name. -/
theorem tracks_values : Tracks fields fun c xs => c = ofValues fun name => valueOf name xs where
  field := by
    intro f hf
    simp only [fields, List.mem_cons, List.not_mem_nil, or_false] at hf
    rcases hf with rfl | rfl | rfl | rfl | rfl | rfl | rfl | rfl
    all_goals
      refine ⟨_, rfl, ?_⟩
      rintro c xs x rfl
      simp [Field.of, ofValues, valueOf_cons_self, valueOf_cons_ne, stringOr, lenientInt_eq, noRequestId]
  other := by
    rintro c xs name x hname rfl
    simp only [fields, Field.of, List.map_cons, List.map_nil, List.mem_cons, List.not_mem_nil, or_false,
      not_or] at hname
    simp [ofValues, valueOf_cons_ne, hname]

end Command

/-- **Every object whose names differ, and whose numbers can be read, is read as a command.** Each field
is that of the member of its name; members of other names, the order of the members and the way they are
written change nothing but the raw text. Numbers in range can be read. -/
theorem object_commands_read (o : ObjectText) :
    Command.ofBytes o.octets = .ok { Command.ofValues o.get? with raw := Utf8.decodeLossy o.octets } ∧
      (∀ o' : ObjectText, (o'.among Command.names).Perm (o.among Command.names) →
        ∃ c c', Command.ofBytes o.octets = .ok c ∧ Command.ofBytes o'.octets = .ok c' ∧
          c' = { c with raw := c'.raw }) ∧
      ∀ l : Literal, l.InRange → ∃ n, Lexeme.number l.octets = .ok (n, []) := by
  have hread : ∀ o : ObjectText, Command.ofBytes o.octets =
      .ok { Command.ofValues o.get? with raw := Utf8.decodeLossy o.octets } := by
    intro o
    obtain ⟨c, hrecord, hc⟩ := o.record_read Command.tracks_values rfl
    have hvalues : c = Command.ofValues o.get? := hc.trans (congrArg _ (funext o.valueOf_reverse))
    -- nothing but white space is behind the object
    have hend : (skipSpace o.after).isEmpty = true := by
      have hskip := skipSpace_blank o.blankAfter []
      rw [List.append_nil] at hskip
      rw [hskip]
      rfl
    exact Command.ofBytes_record.2 ⟨c, o.after, hrecord, hend, by rw [hvalues]⟩
  refine ⟨hread o, fun o' h => ⟨_, _, hread o, hread o', ?_⟩, fun l hl => Literal.number_some hl⟩
  -- a command sees nothing of an object but the values of its fields
  have hsame : ∀ name ∈ Command.names, o'.get? name = o.get? name := fun name hname => o.get?_of_perm h hname
  have hvalues : Command.ofValues o'.get? = Command.ofValues o.get? := by
    simp only [Command.ofValues]
    rw [hsame "action" (by decide), hsame "pin" (by decide), hsame "estat" (by decide),
      hsame "idPista" (by decide), hsame "idPeticion" (by decide), hsame "result" (by decide),
      hsame "type" (by decide), hsame "url" (by decide)]
  rw [hvalues]

/-- An object of two texts. -/
def pinFirst : ObjectText :=
  .ofPlain [⟨"pin", "19", by decide +kernel, by decide +kernel⟩,
    ⟨"idPeticion", "7", by decide +kernel, by decide +kernel⟩] (by decide)

/-- The same members the other way round, and one of another name. -/
def pinLast : ObjectText :=
  .ofPlain [⟨"idPeticion", "7", by decide +kernel, by decide +kernel⟩,
    ⟨"raw", "x", by decide +kernel, by decide +kernel⟩,
    ⟨"pin", "19", by decide +kernel, by decide +kernel⟩] (by decide)

theorem object_commands_read_reordered :
    pinFirst.octets = Utf8.encode "\x7b\"pin\":\"19\",\"idPeticion\":\"7\"\x7d" ∧
      pinLast.octets = Utf8.encode "\x7b\"idPeticion\":\"7\",\"raw\":\"x\",\"pin\":\"19\"\x7d" ∧
      ∃ c c', Command.ofBytes pinFirst.octets = .ok c ∧ Command.ofBytes pinLast.octets = .ok c' ∧
        c' = { c with raw := c'.raw } ∧ c.pin = 19 := by
  have hperm : (pinLast.among Command.names).Perm (pinFirst.among Command.names) :=
    List.Perm.swap ("pin", Json.string "19") ("idPeticion", Json.string "7") []
  obtain ⟨hread, hsame, -⟩ := object_commands_read pinFirst
  obtain ⟨c, c', hc, hc', heq⟩ := hsame pinLast hperm
  refine ⟨by decide +kernel, by decide +kernel, c, c', hc, hc', heq, ?_⟩
  cases hread.symm.trans hc
  decide

/-- A number just below the greatest double. -/
def nearGreatest : Literal where
  negative := false
  whole := "1797693134862315708".toList
  fraction := []
  power := some
    { letter := 0x65
      sign := .none
      digits := "290".toList
      isLetter := rfl
      areDigits := List.all_eq_true.1 (by decide)
      nonempty := by decide }
  wholeDigits := List.all_eq_true.1 (by decide)
  fractionDigits := by simp
  nonempty := by decide
  leading := by decide

/-- **A number up to the greatest double may be refused**: its digits and its power of ten are rounded
each for itself, and both of them up. -/
theorem number_below_greatest_refused : nearGreatest.magnitude ≤ 2 ^ 1024 - 2 ^ 971 ∧
    (Command.ofBytes (Utf8.encode "\x7b\"pin\":" ++ nearGreatest.octets ++ [closeBrace])).toOption = none := by
  constructor
  · have hbelow : 1797693134862315708 * 10 ^ 290 + 2 ^ 971 ≤ 2 ^ 1024 := by decide +kernel
    have hcast : (1797693134862315708 : ℚ) * 10 ^ 290 + 2 ^ 971 ≤ 2 ^ 1024 := by exact_mod_cast hbelow
    have hsignificand : nearGreatest.significand = 1797693134862315708 := by decide
    have hexponent : powerExponent nearGreatest.power - nearGreatest.fraction.length = (290 : Nat) := by decide
    rw [Literal.magnitude, hsignificand, hexponent, zpow_natCast]
    exact le_sub_iff_add_le.2 hcast
  · decide +kernel

end Turnstile

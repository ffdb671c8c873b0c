import Turnstile.Outputs
import Turnstile.Proofs.Command.Reading
import Turnstile.Proofs.Json.Integers
import Turnstile.Proofs.Json.Slots

/-!
# Numbers and texts in the fields of a command

An integer may be written as a number or as a text. A text counts for the nearest 32-bit integer;
of a number only the low 32 bits of the nearest 64-bit integer are kept.

* `IntegerField`: the fields of a command that hold integers.
* `Command.LeadsTo`: octets that lead from the start of a command to the value of a field, or to white
  space before it.
* `integer_read_iff`: **the two agree on an integer if and only if its low bits are the nearest
  32-bit integer**, in every field and whatever else the command holds.
* `pin_number_wraps`: a number far out of range is read as the number of an output.
-/

namespace Turnstile

open Json Json.Octet

/-- The fields of a command that hold integers. -/
inductive IntegerField where
  | pin
  | state
  | court
deriving DecidableEq, Repr

namespace IntegerField

/-- The name of the member. -/
def name : IntegerField → String
  | pin => "pin"
  | state => "estat"
  | court => "idPista"

/-- What a command holds in the field. -/
def get (c : Command) : IntegerField → Int
  | pin => c.pin
  | state => c.state
  | court => c.court

/-- The command with another integer in the field. -/
def set (c : Command) (n : Int) : IntegerField → Command
  | pin => { c with pin := n }
  | state => { c with state := n }
  | court => { c with court := n }

@[simp] theorem get_set (a : IntegerField) (c : Command) (n : Int) : a.get (a.set c n) = n := by
  cases a <;> rfl

@[simp] theorem set_set (a : IntegerField) (c : Command) (m n : Int) :
    a.set (a.set c m) n = a.set c n := by
  cases a <;> rfl

theorem get_raw (a : IntegerField) (c : Command) (raw : String) :
    a.get { c with raw := raw } = a.get c := by
  cases a <;> rfl

/-- The field among those of a command. -/
theorem find_field (a : IntegerField) : Command.fields.find? (·.name = a.name) =
    some (.of a.name Reader.json fun c j => a.set c (Command.lenientInt j)) := by
  cases a <;> rfl

/-- **Another field of a command leaves the field alone.** -/
theorem other_field (a : IntegerField) {g : Json.Field Command} (hg : g ∈ Command.fields)
    (hname : g.name ≠ a.name) : ∃ store, g = .of g.name Reader.json store ∧
      ∀ c n j, store (a.set c n) j = a.set (store c j) n ∧ a.get (store c j) = a.get c := by
  simp only [Command.fields, List.mem_cons, List.not_mem_nil, or_false] at hg
  rcases hg with rfl | rfl | rfl | rfl | rfl | rfl | rfl | rfl
  all_goals
    refine ⟨_, rfl, fun c n j => ?_⟩
    cases a
  all_goals
    first
    | exact ⟨rfl, rfl⟩
    | exact absurd rfl hname

end IntegerField

/-! ## Places -/

/-- Octets that lead from the start of a command to the value of a field, with or without the white space
before it. -/
def Command.LeadsTo (name : String) (front : Bytes) (s : Command × List String) : Prop :=
  ∃ opening members, front = opening ++ members ∧ (∀ v, skipSpace (opening ++ v) = openBrace :: v) ∧
    Leads Command.fields (maxNesting - 1) name ({}, []) members s

/-- **What a command makes of a value**: the field is new, the value is a document, and what follows
it is the rest of a command. -/
theorem Command.ofBytes_iff {a : IntegerField} {front : Bytes} {s : Command × List String}
    (hfront : Command.LeadsTo a.name front s) (v : Bytes) (c : Command) :
    Command.ofBytes (front ++ v) = .ok c ↔ ¬ s.2.contains a.name = true ∧
      ∃ j bs c₀ seen rest, Reader.json (maxNesting - 1) v = .ok (j, bs) ∧
        After (member fields (maxNesting - 1)) (a.set s.1 (lenientInt j), a.name :: s.2) bs (c₀, seen) rest ∧
        (skipSpace rest).isEmpty = true ∧ c = { c₀ with raw := Utf8.decodeLossy (front ++ v) } := by
  obtain ⟨opening, members, rfl, hopening, hleads⟩ := hfront
  have hskip : skipSpace (opening ++ members ++ v) = openBrace :: (members ++ v) := by
    rw [List.append_assoc, hopening]
  obtain ⟨bs₀, hopen⟩ := hleads.open v
  have hobject : ∀ c₀ seen rest,
      Reader.object (member fields (maxNesting - 1)) ({}, []) (members ++ v) = .ok ((c₀, seen), rest) ↔
        ¬ s.2.contains a.name = true ∧ ∃ x bs,
          ((Reader.json (maxNesting - 1) v).map fun (j, rest) => (a.set s.1 (lenientInt j), rest)) =
            .ok (x, bs) ∧
          After (member fields (maxNesting - 1)) (x, a.name :: s.2) bs (c₀, seen) rest := by
    intro c₀ seen rest
    rw [object_members hopen fun _ _ _ _ => member_shorter fields_json]
    exact hleads.members_iff a.find_field (Field.spaced_json _ _) v
  rw [Command.ofBytes_record]
  constructor
  · rintro ⟨c₀, rest, hrecord, hend, rfl⟩
    rcases record_ok.1 hrecord with ⟨_, _, -, hskip', -⟩ | ⟨d, tail, seen, hdepth, hskip', hmembers⟩
    · rw [hskip] at hskip'
      exact absurd (List.cons.inj hskip').1 (by decide)
    · cases hdepth
      rw [hskip] at hskip'
      cases hskip'
      obtain ⟨hnew, x, bs, hread, hafter⟩ := (hobject c₀ seen rest).1 hmembers
      obtain ⟨j, after, hj, heq⟩ := Reader.map_ok hread
      cases heq
      exact ⟨hnew, j, bs, c₀, seen, rest, hj, hafter, hend, rfl⟩
  · rintro ⟨hnew, j, bs, c₀, seen, rest, hj, hafter, hend, rfl⟩
    have hmembers := (hobject c₀ seen rest).2 ⟨hnew, _, bs, by rw [hj]; rfl, hafter⟩
    exact ⟨c₀, rest, record_ok.2 (.inr ⟨maxNesting - 1, members ++ v, seen, rfl, hskip, hmembers⟩), hend, rfl⟩

/-- What follows the field keeps it, and does the same for another integer in it. -/
theorem Command.after_set {a : IntegerField} {c c₀ : Command} {n : Int} {seen seen' : List String}
    {bs rest : Bytes} (hseen : a.name ∈ seen)
    (h : After (member fields (maxNesting - 1)) (a.set c n, seen) bs (c₀, seen') rest) :
    a.get c₀ = n ∧ ∀ m, After (member fields (maxNesting - 1)) (a.set c m, seen) bs (a.set c₀ m, seen') rest := by
  have hother : ∀ m, ∀ g ∈ fields, g.name ≠ a.name → ∀ (s t : Command) (bs : Bytes) (s' : Command)
      (rest : Bytes), (a.get s = n ∧ t = a.set s m) → g.read s (maxNesting - 1) bs = .ok (s', rest) →
      ∃ t', g.read t (maxNesting - 1) bs = .ok (t', rest) ∧ a.get s' = n ∧ t' = a.set s' m := by
    rintro m g hg hname s _ bs s' rest ⟨hget, rfl⟩ hread
    obtain ⟨store, hstore, hframe⟩ := a.other_field hg hname
    rw [hstore] at hread ⊢
    obtain ⟨j, _, hj, heq⟩ := Reader.map_ok hread
    cases heq
    refine ⟨store (a.set s m) j, ?_, (hframe s m j).2.trans hget, (hframe s m j).1⟩
    show (Reader.json (maxNesting - 1) bs).map _ = _
    rw [hj]
    rfl
  have hafter : ∀ m, ∃ t', After (member fields (maxNesting - 1)) (a.set c m, seen) bs t' rest ∧
      seen' = t'.2 ∧ a.name ∈ seen' ∧ a.get c₀ = n ∧ t'.1 = a.set c₀ m := fun m =>
    h.related (member_related (hother m)) ⟨rfl, hseen, a.get_set c n, (a.set_set c n m).symm⟩
  refine ⟨?_, fun m => ?_⟩
  · obtain ⟨-, -, -, -, hget, -⟩ := hafter 0
    exact hget
  · obtain ⟨⟨c', _⟩, hset, rfl, -, -, rfl⟩ := hafter m
    exact hset

/-- Octets that end a value end a number. -/
theorem ends_of_skipSpace {b : UInt8} (hb : b = closeBrace ∨ b = comma) {back tail : Bytes}
    (h : skipSpace back = b :: tail) : Lexeme.Ends back := by
  have hall : ∀ x, isSpace x = true ∨ x = closeBrace ∨ x = comma →
      ¬ isDigit x = true ∧ x ≠ point ∧ ¬ isExponent x = true := by
    intro x h
    rw [isSpace_iff] at h
    rcases h with (rfl | rfl | rfl | rfl) | rfl | rfl <;> decide
  intro x hx
  cases back with
  | nil => cases hx
  | cons y back =>
    obtain rfl : y = x := Option.some.inj hx
    by_cases hspace : isSpace y = true
    · exact hall y (.inl hspace)
    · rw [skipSpace, List.dropWhile_cons_of_neg hspace] at h
      exact hall y (.inr ((List.cons.inj h).1 ▸ hb))

/-! ## The values -/

theorem json_null (depth : Nat) (back : Bytes) :
    Reader.json depth (Utf8.encode "null" ++ back) = .ok (.null, back) := by
  have hoctets : Utf8.encode "null" = [0x6E, 0x75, 0x6C, 0x6C] := rfl
  rw [hoctets]
  exact (Reader.Reads.null rfl rfl).value

theorem json_text (depth : Nat) (n : Int) (back : Bytes) :
    Reader.json depth (quote :: integerOctets n ++ quote :: back) =
      .ok (.string (Number.ofInt n).text, back) :=
  (Reader.Reads.text rfl (Lexeme.string_integer n back)).value

theorem json_number (depth : Nat) (n : Int) (back : Bytes) :
    Reader.json depth (integerOctets n ++ back) =
      (Lexeme.number (integerOctets n ++ back)).map fun (x, rest) => (.number x, rest) := by
  obtain ⟨b, bs, hbs, hb⟩ := Lexeme.integerOctets_head n
  obtain ⟨hnull, htrue, hfalse, hspace⟩ := start_of_number hb
  rw [hbs, List.cons_append, Reader.json, Reader.value, skipSpace, List.dropWhile_cons_of_neg hspace]
  dsimp only
  rw [if_neg hnull, if_neg htrue, if_neg hfalse, if_pos hb]
  rfl

/-- A command with `null` in the place of a value can be read with any other value there. -/
theorem Command.ofBytes_value {a : IntegerField} {front back v : Bytes} {s : Command × List String}
    {c₀ : Command} {j : Json} (hfront : Command.LeadsTo a.name front s)
    (h : Command.ofBytes (front ++ (Utf8.encode "null" ++ back)) = .ok c₀)
    (hv : Reader.json (maxNesting - 1) v = .ok (j, back)) :
    ∃ c, Command.ofBytes (front ++ v) = .ok c ∧ a.get c = lenientInt j := by
  obtain ⟨hnew, j₀, bs, c₁, seen, rest, hj₀, hafter, hend, -⟩ := (Command.ofBytes_iff hfront _ c₀).1 h
  rw [json_null] at hj₀
  cases hj₀
  have hset := (Command.after_set List.mem_cons_self hafter).2 (lenientInt j)
  refine ⟨_, (Command.ofBytes_iff hfront v _).2 ⟨hnew, j, back, _, seen, rest, hv, hset, hend, rfl⟩, ?_⟩
  rw [a.get_raw, a.get_set]

/-- What a command holds in a field that was read. -/
theorem Command.get_of_value {a : IntegerField} {front back v : Bytes} {s : Command × List String}
    {c : Command} {j : Json} (hfront : Command.LeadsTo a.name front s)
    (h : Command.ofBytes (front ++ v) = .ok c) (hv : Reader.json (maxNesting - 1) v = .ok (j, back)) :
    a.get c = lenientInt j := by
  obtain ⟨-, j', bs, c₁, seen, rest, hj', hafter, -, rfl⟩ := (Command.ofBytes_iff hfront v c).1 h
  rw [hv] at hj'
  cases hj'
  rw [a.get_raw]
  exact (Command.after_set List.mem_cons_self hafter).1

theorem Command.ends_of_null {a : IntegerField} {front back : Bytes} {s : Command × List String}
    {c₀ : Command} (hfront : Command.LeadsTo a.name front s)
    (h : Command.ofBytes (front ++ (Utf8.encode "null" ++ back)) = .ok c₀) : Lexeme.Ends back := by
  obtain ⟨-, j₀, bs, c₁, seen, rest, hj₀, hafter, -⟩ := (Command.ofBytes_iff hfront _ c₀).1 h
  rw [json_null] at hj₀
  cases hj₀
  rcases hafter with ⟨hclose, -⟩ | ⟨tail, hcomma, -⟩
  · exact ends_of_skipSpace (.inl rfl) hclose
  · exact ends_of_skipSpace (.inr rfl) hcomma

/-- Outside the range of 64 bits the low bits are never the nearest integer. -/
theorem range_of_agree {n : Int} (h : Text.wrap32 (Number.clamp64 n) = Text.clamp32 n) :
    -9223372036854775808 ≤ n ∧ n ≤ 9223372036854775807 := by
  have hmin : Text.int32Min = -2147483648 := rfl
  have hmax : Text.int32Max = 2147483647 := rfl
  have hlow : Text.wrap32 (-9223372036854775808) = 0 := by decide
  have hhigh : Text.wrap32 9223372036854775807 = -1 := by decide
  rw [Text.clamp32] at h
  constructor
  · by_contra hn
    have hclamp : Number.clamp64 n = -9223372036854775808 := by rw [Number.clamp64]; omega
    rw [hclamp, hlow] at h
    omega
  · by_contra hn
    have hclamp : Number.clamp64 n = 9223372036854775807 := by rw [Number.clamp64]; omega
    rw [hclamp, hhigh] at h
    omega

/-- **An integer is the same as a number and as a text if and only if the low 32 bits of its nearest
64-bit integer are its nearest 32-bit integer**, in each of the fields and whatever else the command
holds: it is read with `null` in the place of the integer. -/
theorem integer_read_iff {a : IntegerField} {front back : Bytes} {s : Command × List String}
    {c₀ : Command} (hfront : Command.LeadsTo a.name front s)
    (h : Command.ofBytes (front ++ (Utf8.encode "null" ++ back)) = .ok c₀) (n : Int) :
    (∃ c, Command.ofBytes (front ++ (quote :: integerOctets n ++ quote :: back)) = .ok c ∧
        a.get c = Text.clamp32 n) ∧
      (-9223372036854775808 ≤ n ∧ n ≤ 9223372036854775807 →
        ∃ c, Command.ofBytes (front ++ (integerOctets n ++ back)) = .ok c) ∧
      (∀ c, Command.ofBytes (front ++ (integerOctets n ++ back)) = .ok c →
        a.get c = Text.wrap32 (Number.clamp64 n)) ∧
      ((∃ c c', Command.ofBytes (front ++ (quote :: integerOctets n ++ quote :: back)) = .ok c ∧
          Command.ofBytes (front ++ (integerOctets n ++ back)) = .ok c' ∧ a.get c = a.get c') ↔
        Text.wrap32 (Number.clamp64 n) = Text.clamp32 n) := by
  have hends := Command.ends_of_null hfront h
  have htext := json_text (maxNesting - 1) n back
  have hstring : Command.lenientInt (.string (Number.ofInt n).text) = Text.clamp32 n :=
    Text.leadingInt_integer n
  have hnumber : ∀ c, Command.ofBytes (front ++ (integerOctets n ++ back)) = .ok c →
      a.get c = Text.wrap32 (Number.clamp64 n) := by
    intro c hc
    obtain ⟨-, j, bs, _, _, _, hj, -⟩ := (Command.ofBytes_iff hfront _ c).1 hc
    rw [Command.get_of_value hfront hc hj]
    rw [json_number] at hj
    obtain ⟨x, _, hx, heq⟩ := Reader.map_ok hj
    cases heq
    show Text.wrap32 x.toInt64 = _
    rw [(Lexeme.number_integer hends hx).2]
  have hsome : -9223372036854775808 ≤ n ∧ n ≤ 9223372036854775807 →
      ∃ c, Command.ofBytes (front ++ (integerOctets n ++ back)) = .ok c := by
    rintro ⟨hlow, hhigh⟩
    obtain ⟨x, hx⟩ := Lexeme.number_integer_some hends hlow hhigh
    have hj : Reader.json (maxNesting - 1) (integerOctets n ++ back) = .ok (.number x, back) := by
      rw [json_number, hx]
      rfl
    obtain ⟨c, hc, -⟩ := Command.ofBytes_value hfront h hj
    exact ⟨c, hc⟩
  obtain ⟨c, hc, hget⟩ := Command.ofBytes_value hfront h htext
  rw [hstring] at hget
  refine ⟨⟨c, hc, hget⟩, hsome, hnumber, ?_, ?_⟩
  · rintro ⟨d, c', hd, hc', hagree⟩
    rw [hc] at hd
    cases hd
    rw [← hnumber c' hc', ← hagree, hget]
  · intro hagree
    obtain ⟨c', hc'⟩ := hsome (range_of_agree hagree)
    exact ⟨c, c', hc, hc', by rw [hget, hnumber c' hc', hagree]⟩

/-- What stands before the pin of a command to drive an output for a while. -/
def pulseFront : Bytes :=
  Utf8.encode "\x7b\"action\":\"pulsador\",\"pin\":"

/-- It leads to the pin, and so it does with white space behind it. -/
theorem leadsTo_pulseFront {blank : Bytes} (hblank : Blank blank) :
    Command.LeadsTo IntegerField.pin.name (pulseFront ++ blank) ({ action := "pulsador" }, ["action"]) := by
  have hfront : pulseFront = [openBrace] ++
      (quote :: (Utf8.encode "action" ++ quote :: colon :: quote :: (Utf8.encode "pulsador" ++ [quote, comma])) ++
        quote :: (Utf8.encode "pin" ++ [quote, colon])) := by decide +kernel
  have hsplit : pulseFront ++ blank = [openBrace] ++
      (quote :: (Utf8.encode "action" ++ quote :: colon :: quote :: (Utf8.encode "pulsador" ++ [quote, comma])) ++
        quote :: (Utf8.encode "pin" ++ quote :: colon :: blank)) := by
    rw [hfront]
    simp only [List.append_assoc, List.cons_append, List.nil_append]
  exact ⟨_, _, hsplit, fun _ => rfl, .text (by decide +kernel) (by decide +kernel) rfl (by decide)
    (.named (by decide +kernel) hblank _)⟩

/-- A pin is the same as a number and as a text, with a space before it. -/
theorem integer_read_iff_pulse :
    let spaced := pulseFront ++ [0x20]
    Command.LeadsTo IntegerField.pin.name spaced ({ action := "pulsador" }, ["action"]) ∧
      (∃ c₀, Command.ofBytes (spaced ++ (Utf8.encode "null" ++ [closeBrace])) = .ok c₀) ∧
      ∃ c c', Command.ofBytes (spaced ++ (quote :: integerOctets 19 ++ quote :: [closeBrace])) = .ok c ∧
        Command.ofBytes (spaced ++ (integerOctets 19 ++ [closeBrace])) = .ok c' ∧ c.pin = c'.pin := by
  have hblank : Blank [0x20] := by
    intro b hb
    rw [List.mem_singleton.1 hb]
    rfl
  have hleads := leadsTo_pulseFront hblank
  have hnull : Command.ofBytes (pulseFront ++ [0x20] ++ (Utf8.encode "null" ++ [closeBrace])) = .ok
      { action := "pulsador", raw := "\x7b\"action\":\"pulsador\",\"pin\": null\x7d" } :=
    ok_of_toOption (by decide +kernel)
  exact ⟨hleads, ⟨_, hnull⟩, (integer_read_iff hleads hnull 19).2.2.2.2 (by decide)⟩

/-- **A number far out of range is read as the number of an output**, which is driven; the same
integer as a text is refused. -/
theorem pin_number_wraps :
    ∃ c c', Command.ofBytes (pulseFront ++ (integerOctets 4294967315 ++ [closeBrace])) = .ok c ∧
      Command.ofBytes (pulseFront ++ (quote :: integerOctets 4294967315 ++ quote :: [closeBrace])) = .ok c' ∧
      c.pin = 19 ∧ (Outputs.ensure {} c.pin).1.toOption = some () ∧
      c'.pin = 2147483647 ∧ (Outputs.ensure {} c'.pin).1.toOption = none := by
  refine ⟨{ action := "pulsador", pin := 19, raw := "\x7b\"action\":\"pulsador\",\"pin\":4294967315\x7d" },
    { action := "pulsador"
      pin := 2147483647
      raw := "\x7b\"action\":\"pulsador\",\"pin\":\"4294967315\"\x7d" },
    ok_of_toOption (by decide +kernel), ok_of_toOption (by decide +kernel), rfl, by decide, rfl, by decide⟩

end Turnstile

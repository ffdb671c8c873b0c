import Turnstile.Command
import Turnstile.Proofs.Json.Records

/-!
# How a command is read

* `Command.ofBytes_record`: a command is a record, with the text of its octets.
* `Command.fields_json`: its fields are any documents.
* `Command.object_or_array`: **a command is an object or an array.**
-/

namespace Turnstile

open Json Json.Octet

variable {bs : Bytes} {c : Command}

theorem Command.fields_json : ∀ f ∈ fields, ∃ store, f = .of f.name Reader.json store := by
  intro f hf
  simp only [fields, List.mem_cons, List.not_mem_nil, or_false] at hf
  rcases hf with rfl | rfl | rfl | rfl | rfl | rfl | rfl | rfl
  all_goals exact ⟨_, rfl⟩

theorem Command.ofBytes_record : Command.ofBytes bs = .ok c ↔
    ∃ c₀ rest, record fields {} maxNesting bs = .ok (c₀, rest) ∧ (skipSpace rest).isEmpty = true ∧
      c = { c₀ with raw := Utf8.decodeLossy bs } := by
  rw [Command.ofBytes]
  constructor
  · intro h
    cases hread : Json.read (record fields {}) bs with
    | error fault => rw [hread] at h; cases h
    | ok c₀ =>
      rw [hread] at h
      cases h
      obtain ⟨rest, hrecord, hend⟩ := read_ok.1 hread
      exact ⟨c₀, rest, hrecord, hend, rfl⟩
  · rintro ⟨c₀, rest, hrecord, hend, rfl⟩
    rw [read_ok.2 ⟨rest, hrecord, hend⟩]
    rfl

theorem Command.fields_mend : ∀ f ∈ fields, f.Mends := by
  intro f hf
  obtain ⟨store, hstore⟩ := fields_json f hf
  rw [hstore]
  exact Json.Field.mends_json f.name store

/-- **A command is an object or an array.** -/
theorem Command.object_or_array (h : Command.ofBytes bs = .ok c) :
    (∃ tail, skipSpace bs = openBrace :: tail) ∨ ∃ tail, skipSpace bs = openBracket :: tail := by
  obtain ⟨c₀, rest, hrecord, -, -⟩ := Command.ofBytes_record.1 h
  rcases record_ok.1 hrecord with ⟨_, tail, -, hskip, -⟩ | ⟨_, tail, _, -, hskip, -⟩
  · exact .inr ⟨tail, hskip⟩
  · exact .inl ⟨tail, hskip⟩

end Turnstile

import Turnstile.Proofs.Json.Records

/-!
# A value in its place

What a record makes of one member, whatever stands before it and after it.

* `Members`: the members of an object, up to its closing brace, without a bound on their number.
* `Leads`: octets that lead from one member of a record to the value of another.
* `Field.Spaced`: a field whose value may have white space before it.
* `Leads.members_iff`: **where they lead, the value is read, and then what follows it.**
* `Members.related`: members that change nothing about a relation keep it.
* `record_keeps`: **what every field keeps, a record has**.
-/

namespace Turnstile.Json

open Octet

variable {σ ρ : Type}

/-! ## Members -/

section Members

variable {step : σ → Bytes → Except Fault (σ × Bytes)} {s s' t : σ} {bs rest : Bytes}

/-- The members of an object from where the name of one starts, up to the closing brace. -/
inductive Members (step : σ → Bytes → Except Fault (σ × Bytes)) : σ → Bytes → σ → Bytes → Prop where
  | last {s s₁ bs bs₀ bs₁ rest} (hopen : skipSpace bs = quote :: bs₀) (hstep : step s bs₀ = .ok (s₁, bs₁))
      (hclose : skipSpace bs₁ = closeBrace :: rest) : Members step s bs s₁ rest
  | more {s s₁ s' bs bs₀ bs₁ tail rest} (hopen : skipSpace bs = quote :: bs₀)
      (hstep : step s bs₀ = .ok (s₁, bs₁)) (hcomma : skipSpace bs₁ = comma :: tail)
      (h : Members step s₁ tail s' rest) : Members step s bs s' rest

/-- What follows a member: the closing brace, or more of them. -/
def After (step : σ → Bytes → Except Fault (σ × Bytes)) (s : σ) (bs : Bytes) (s' : σ) (rest : Bytes) :
    Prop :=
  skipSpace bs = closeBrace :: rest ∧ s' = s ∨
    ∃ tail, skipSpace bs = comma :: tail ∧ Members step s tail s' rest

theorem members_iff : Members step s bs s' rest ↔ ∃ bs₀ s₁ bs₁, skipSpace bs = quote :: bs₀ ∧
    step s bs₀ = .ok (s₁, bs₁) ∧ After step s₁ bs₁ s' rest := by
  constructor
  · intro h
    cases h with
    | last hopen hstep hclose => exact ⟨_, _, _, hopen, hstep, .inl ⟨hclose, rfl⟩⟩
    | more hopen hstep hcomma h => exact ⟨_, _, _, hopen, hstep, .inr ⟨_, hcomma, h⟩⟩
  · rintro ⟨bs₀, s₁, bs₁, hopen, hstep, ⟨hclose, rfl⟩ | ⟨tail, hcomma, h⟩⟩
    · exact .last hopen hstep hclose
    · exact .more hopen hstep hcomma h

theorem members_of_entries {n : Nat} (h : Reader.entries step n s bs = .ok (s', rest)) :
    Members step s bs s' rest := by
  induction n generalizing s bs with
  | zero => cases h
  | succ n ih =>
    obtain ⟨bs₀, s₁, bs₁, hopen, hstep, ⟨hclose, rfl⟩ | ⟨tail, hcomma, hmore⟩⟩ := entries_succ_ok.1 h
    · exact .last hopen hstep hclose
    · exact .more hopen hstep hcomma (ih hmore)

/-- As many members as there are octets are enough, if every member takes one. -/
theorem Members.entries (hshorter : ∀ s bs s' rest, step s bs = .ok (s', rest) → rest.length < bs.length)
    (h : Members step s bs s' rest) :
    ∀ n, bs.length ≤ n → Reader.entries step n s bs = .ok (s', rest) := by
  induction h with
  | last hopen hstep hclose =>
    intro n hn
    have hbehind := length_of_skipSpace hopen
    obtain ⟨n, rfl⟩ : ∃ k, n = k + 1 := ⟨n - 1, by omega⟩
    exact entries_succ_ok.2 ⟨_, _, _, hopen, hstep, .inl ⟨hclose, rfl⟩⟩
  | more hopen hstep hcomma _ ih =>
    intro n hn
    have hbehind := length_of_skipSpace hopen
    have hmember := hshorter _ _ _ _ hstep
    have hnext := length_of_skipSpace hcomma
    obtain ⟨n, rfl⟩ : ∃ k, n = k + 1 := ⟨n - 1, by omega⟩
    exact entries_succ_ok.2 ⟨_, _, _, hopen, hstep, .inr ⟨_, hcomma, ih n (by omega)⟩⟩

theorem object_members {bs₀ : Bytes} (hopen : skipSpace bs = quote :: bs₀)
    (hshorter : ∀ s bs s' rest, step s bs = .ok (s', rest) → rest.length < bs.length) :
    Reader.object step s bs = .ok (s', rest) ↔ Members step s bs s' rest := by
  -- white space in front of the first name is passed over once or twice
  have hspace : ∀ {s₁ rest₁}, Members step s (quote :: bs₀) s₁ rest₁ ↔ Members step s bs s₁ rest₁ := by
    intro s₁ rest₁
    rw [members_iff, members_iff, hopen, show skipSpace (quote :: bs₀) = quote :: bs₀ from rfl]
  constructor
  · intro h
    rcases object_ok.1 h with ⟨hclose, -⟩ | ⟨b, tail, hskip, -, hentries⟩
    · rw [hopen] at hclose
      exact absurd (List.cons.inj hclose).1 (by decide)
    · rw [hopen] at hskip
      cases hskip
      exact hspace.1 (members_of_entries hentries)
  · intro h
    have hle := length_skipSpace bs
    rw [hopen] at hle
    exact object_ok.2 (.inr ⟨quote, bs₀, hopen, by decide,
      (hspace.2 h).entries hshorter bs.length hle⟩)

/-- **Members keep a relation that every one of them keeps.** -/
theorem Members.related {R : σ → σ → Prop}
    (hR : ∀ s t bs s' rest, R s t → step s bs = .ok (s', rest) → ∃ t', step t bs = .ok (t', rest) ∧ R s' t')
    (h : Members step s bs s' rest) (hst : R s t) : ∃ t', Members step t bs t' rest ∧ R s' t' := by
  induction h generalizing t with
  | last hopen hstep hclose =>
    obtain ⟨t', ht', hR'⟩ := hR _ _ _ _ _ hst hstep
    exact ⟨t', .last hopen ht' hclose, hR'⟩
  | more hopen hstep hcomma _ ih =>
    obtain ⟨t₁, ht₁, hR₁⟩ := hR _ _ _ _ _ hst hstep
    obtain ⟨t', ht', hR'⟩ := ih hR₁
    exact ⟨t', .more hopen ht₁ hcomma ht', hR'⟩

theorem After.related {R : σ → σ → Prop}
    (hR : ∀ s t bs s' rest, R s t → step s bs = .ok (s', rest) → ∃ t', step t bs = .ok (t', rest) ∧ R s' t')
    (h : After step s bs s' rest) (hst : R s t) : ∃ t', After step t bs t' rest ∧ R s' t' := by
  rcases h with ⟨hclose, rfl⟩ | ⟨tail, hcomma, h⟩
  · exact ⟨t, .inl ⟨hclose, rfl⟩, hst⟩
  · obtain ⟨t', ht', hR'⟩ := h.related hR hst
    exact ⟨t', .inr ⟨tail, hcomma, ht'⟩, hR'⟩

/-- Members keep what every one of them keeps. -/
theorem Members.keeps {P : σ → Prop} (hP : ∀ s bs s' rest, P s → step s bs = .ok (s', rest) → P s')
    (h : Members step s bs s' rest) (hs : P s) : P s' := by
  induction h with
  | last _ hstep _ => exact hP _ _ _ _ hs hstep
  | more _ hstep _ _ ih => exact ih (hP _ _ _ _ hs hstep)

end Members

/-! ## Places -/

section Places

variable {fields : List (Field ρ)} {depth : Nat} {name : String}

/-- Octets that lead from the name of a member to the value of the member of a name: its name, a
colon and white space, or other members before it. -/
inductive Leads (fields : List (Field ρ)) (depth : Nat) (name : String) :
    ρ × List String → Bytes → ρ × List String → Prop where
  | here {s key} (hkey : ∀ v, ∃ bs bs₁ bs₂, skipSpace (key ++ v) = quote :: bs ∧
      Lexeme.string bs = .ok (name, bs₁) ∧ Reader.colon bs₁ = .ok bs₂ ∧ skipSpace bs₂ = skipSpace v) :
      Leads fields depth name s key s
  | later {s s₁ s' m front} (hm : ∀ v, ∃ bs bs₁, skipSpace (m ++ v) = quote :: bs ∧
      member fields depth s bs = .ok (s₁, bs₁) ∧ skipSpace bs₁ = comma :: v)
      (h : Leads fields depth name s₁ front s') : Leads fields depth name s (m ++ front) s'

/-- The octets of a text that need no escapes. -/
def Plain (text : String) : Prop :=
  ∀ b ∈ Utf8.encode text, b ≠ quote ∧ b ≠ backslash ∧ ¬ b < 0x20

instance (text : String) : Decidable (Plain text) :=
  List.decidableBAll _ _

/-- A name, a colon and white space lead to the value of the member. -/
theorem Leads.named (hname : Plain name) {blank : Bytes} (hblank : Blank blank) (s : ρ × List String) :
    Leads fields depth name s (quote :: (Utf8.encode name ++ quote :: colon :: blank)) s := by
  refine .here fun v => ⟨Utf8.encode name ++ quote :: colon :: (blank ++ v), colon :: (blank ++ v),
    blank ++ v, ?_, ?_, rfl, skipSpace_blank hblank v⟩
  · rw [List.cons_append, List.append_assoc]
    rfl
  · exact Lexeme.string_plain hname (colon :: (blank ++ v))

/-- A field with a text, and a comma, lead to the members after it. -/
theorem Leads.text {field text : String} {set : ρ → Json → ρ} {s s' : ρ × List String} {front : Bytes}
    (hfield : Plain field) (htext : Plain text)
    (hf : fields.find? (·.name = field) = some (.of field Reader.json set))
    (hnew : ¬ s.2.contains field = true)
    (h : Leads fields depth name (set s.1 (.string text), field :: s.2) front s') :
    Leads fields depth name s
      (quote :: (Utf8.encode field ++ quote :: colon :: quote :: (Utf8.encode text ++ [quote, comma])) ++ front)
      s' := by
  refine .later (fun v => ?_) h
  have hvalue : Reader.json depth (quote :: (Utf8.encode text ++ quote :: comma :: v)) =
      .ok (.string text, comma :: v) :=
    (Reader.Reads.text rfl (Lexeme.string_plain htext (comma :: v))).value
  refine ⟨Utf8.encode field ++ quote :: colon :: quote :: (Utf8.encode text ++ quote :: comma :: v),
    comma :: v, ?_, member_ok.2 ⟨field, colon :: quote :: (Utf8.encode text ++ quote :: comma :: v),
      quote :: (Utf8.encode text ++ quote :: comma :: v), ?_, rfl, .inl ⟨_, _, hf, hnew, ?_, rfl⟩⟩, rfl⟩
  · simp only [List.cons_append, List.append_assoc, List.nil_append]
    rfl
  · exact Lexeme.string_plain hfield _
  · show (Reader.json depth _).map _ = _
    rw [hvalue]
    rfl

theorem Leads.open {s s₁ : ρ × List String} {front : Bytes} (h : Leads fields depth name s front s₁)
    (v : Bytes) : ∃ bs₀, skipSpace (front ++ v) = quote :: bs₀ := by
  cases h with
  | here hkey =>
    obtain ⟨bs, -, -, hopen, -⟩ := hkey v
    exact ⟨bs, hopen⟩
  | later hm h =>
    obtain ⟨bs, -, hopen, -⟩ := hm (_ ++ v)
    exact ⟨bs, by rw [List.append_assoc, hopen]⟩

/-- Whether a field passes over white space before its value. -/
def Field.Spaced (f : Field ρ) : Prop :=
  ∀ s depth bs, f.read s depth (skipSpace bs) = f.read s depth bs

theorem Field.spaced_json (name : String) (set : ρ → Json → ρ) :
    (Field.of name Reader.json set).Spaced := by
  intro s depth bs
  show (Reader.json depth (skipSpace bs)).map _ = (Reader.json depth bs).map _
  rw [Reader.json, Reader.value, Reader.value, skipSpace_twice]

/-- A field that passes over white space reads the same from octets that differ in no more. -/
theorem Field.Spaced.read_eq {f : Field ρ} (h : f.Spaced) {bs bs' : Bytes}
    (hsame : skipSpace bs = skipSpace bs') (s : ρ) (depth : Nat) : f.read s depth bs = f.read s depth bs' := by
  rw [← h s depth bs, hsame, h s depth bs']

/-- **Where the octets lead, the value is read, and then what follows it.** -/
theorem Leads.members_iff {s s₁ s' : ρ × List String} {front rest : Bytes} {f : Field ρ}
    (h : Leads fields depth name s front s₁) (hf : fields.find? (·.name = name) = some f)
    (hspaced : f.Spaced) (v : Bytes) :
    Members (member fields depth) s (front ++ v) s' rest ↔ ¬ s₁.2.contains name = true ∧
      ∃ x bs, f.read s₁.1 depth v = .ok (x, bs) ∧
        After (member fields depth) (x, name :: s₁.2) bs s' rest := by
  induction h with
  | @here s key hkey =>
    obtain ⟨bs, bs₁, gap, hopen, hname, hcolon, hgap⟩ := hkey v
    rw [Json.members_iff, ← hspaced.read_eq hgap]
    constructor
    · rintro ⟨bs₀, s₂, bs₂, hopen', hmember, hafter⟩
      rw [hopen] at hopen'
      cases hopen'
      obtain ⟨name', _, _, hname', hcolon', hvalue⟩ := member_ok.1 hmember
      rw [hname] at hname'
      cases hname'
      rw [hcolon] at hcolon'
      cases hcolon'
      rcases hvalue with ⟨g, x, hg, hnew, hread, rfl⟩ | ⟨hg, -, -⟩
      · rw [hf] at hg
        cases hg
        exact ⟨hnew, x, bs₂, hread, hafter⟩
      · rw [hf] at hg
        cases hg
    · rintro ⟨hnew, x, bs₂, hread, hafter⟩
      exact ⟨bs, (x, name :: s.2), bs₂, hopen,
        member_ok.2 ⟨name, bs₁, gap, hname, hcolon, .inl ⟨f, x, hf, hnew, hread, rfl⟩⟩, hafter⟩
  | @later s s₂ s₁ m front hm h ih =>
    obtain ⟨bs, bs₁, hopen, hmember, hcomma⟩ := hm (front ++ v)
    rw [← ih, List.append_assoc, Json.members_iff]
    constructor
    · rintro ⟨bs₀, s₃, bs₂, hopen', hmember', hafter⟩
      rw [hopen] at hopen'
      cases hopen'
      rw [hmember] at hmember'
      cases hmember'
      rcases hafter with ⟨hclose, -⟩ | ⟨tail, hcomma', hmore⟩
      · rw [hcomma] at hclose
        exact absurd (List.cons.inj hclose).1 (by decide)
      · rw [hcomma] at hcomma'
        cases hcomma'
        exact hmore
    · intro hmore
      exact ⟨bs, s₂, bs₁, hopen, hmember, .inr ⟨front ++ v, hcomma, hmore⟩⟩

/-- A member after the one in question keeps a relation that the other fields keep. -/
theorem member_related {Q : ρ → ρ → Prop}
    (hQ : ∀ g ∈ fields, g.name ≠ name → ∀ s t bs s' rest, Q s t → g.read s depth bs = .ok (s', rest) →
      ∃ t', g.read t depth bs = .ok (t', rest) ∧ Q s' t')
    (s t : ρ × List String) (bs : Bytes) (s' : ρ × List String) (rest : Bytes)
    (hst : s.2 = t.2 ∧ name ∈ s.2 ∧ Q s.1 t.1) (h : member fields depth s bs = .ok (s', rest)) :
    ∃ t', member fields depth t bs = .ok (t', rest) ∧ s'.2 = t'.2 ∧ name ∈ s'.2 ∧ Q s'.1 t'.1 := by
  obtain ⟨hseen, hmem, hq⟩ := hst
  obtain ⟨name', bs₁, bs₂, hname, hcolon, ⟨g, r, hg, hnew, hread, rfl⟩ | ⟨hg, hskip, rfl⟩⟩ :=
    member_ok.1 h
  · obtain ⟨hgmem, hgname⟩ := mem_names_of_find hg
    have hne : g.name ≠ name := by
      rintro rfl
      rw [hgname] at hmem
      exact hnew (List.contains_iff_mem.2 hmem)
    obtain ⟨t', ht', hq'⟩ := hQ g hgmem hne s.1 t.1 bs₂ r rest hq hread
    rw [hseen] at hnew
    exact ⟨(t', name' :: t.2), member_ok.2 ⟨name', bs₁, bs₂, hname, hcolon, .inl ⟨g, t', hg, hnew, ht', rfl⟩⟩,
      congrArg (name' :: ·) hseen, List.mem_cons_of_mem _ hmem, hq'⟩
  · exact ⟨t, member_ok.2 ⟨name', bs₁, bs₂, hname, hcolon, .inr ⟨hg, hskip, rfl⟩⟩, hseen, hmem, hq⟩

end Places

/-! ## What a record keeps -/

section Keeps

variable {α : Type} {fields : List (Field ρ)} {P : ρ → Prop} {Q : α → Prop} {depth : Nat} {bs rest : Bytes}

/-- Whether everything that a reader reads is of a kind. -/
def Reader.Yields (reader : Reader α) (Q : α → Prop) : Prop :=
  ∀ depth bs x rest, reader depth bs = .ok (x, rest) → Q x

/-- Whether a field keeps what is true of a record. -/
def Field.Keeps (P : ρ → Prop) (f : Field ρ) : Prop :=
  ∀ s depth bs s' rest, P s → f.read s depth bs = .ok (s', rest) → P s'

theorem Reader.Yields.keeps {reader : Reader α} (h : reader.Yields Q) (name : String) {set : ρ → α → ρ}
    (hset : ∀ s x, P s → Q x → P (set s x)) : (Field.of name reader set).Keeps P := by
  intro s depth bs s' rest hs hread
  obtain ⟨x, after, hx, heq⟩ := Reader.map_ok hread
  cases heq
  exact hset s x hs (h depth bs x rest hx)

/-- A field of another kind than those in question. -/
theorem Field.keeps_of (name : String) (reader : Reader α) {set : ρ → α → ρ}
    (hset : ∀ s x, P s → P (set s x)) : (Field.of name reader set).Keeps P :=
  Reader.Yields.keeps (Q := fun _ => True) (fun _ _ _ _ _ => trivial) name fun s x hs _ => hset s x hs

theorem member_keeps (hfields : ∀ f ∈ fields, f.Keeps P) {s s' : ρ × List String} (hs : P s.1)
    (h : member fields depth s bs = .ok (s', rest)) : P s'.1 := by
  obtain ⟨name, bs₁, bs₂, -, -, ⟨f, r, hf, -, hread, rfl⟩ | ⟨-, -, rfl⟩⟩ := member_ok.1 h
  · exact hfields f (List.mem_of_find?_eq_some hf) s.1 depth bs₂ r rest hs hread
  · exact hs

theorem positional_keeps {fs : List (Field ρ)} (hfields : ∀ f ∈ fs, f.Keeps P) {first : Bool}
    {s s' : ρ} (hs : P s) (h : positional depth fs first s bs = .ok (s', rest)) : P s' := by
  induction fs generalizing first s bs with
  | nil =>
    obtain ⟨-, rfl⟩ := positional_nil_ok.1 h
    exact hs
  | cons f fs ih =>
    rcases positional_cons_ok.1 h with ⟨-, rfl⟩ | ⟨b, tail, s₁, bs₁, -, -, -, hread, hmore⟩
    · exact hs
    · have hs₁ := hfields f List.mem_cons_self s depth _ s₁ bs₁ hs hread
      exact ih (fun g hg => hfields g (List.mem_cons_of_mem f hg)) hs₁ hmore

/-- **What is true at the start, and every field keeps, is true of the record.** -/
theorem record_keeps (hfields : ∀ f ∈ fields, f.Keeps P) {start : ρ} (hstart : P start) :
    (record fields start).Yields P := by
  intro depth bs s rest h
  rcases record_ok.1 h with ⟨d, tail, -, -, harray⟩ | ⟨d, tail, seen, -, -, hobject⟩
  · exact positional_keeps hfields hstart harray
  · rcases object_ok.1 hobject with ⟨-, heq⟩ | ⟨b, tail', -, -, hentries⟩
    · cases heq
      exact hstart
    · exact (members_of_entries hentries).keeps (P := fun s => P s.1)
        (fun _ _ _ _ hs hmember => member_keeps hfields hs hmember) hstart

end Keeps

end Turnstile.Json

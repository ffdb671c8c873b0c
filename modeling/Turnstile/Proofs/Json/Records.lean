import Turnstile.Json.Record
import Turnstile.Proofs.Json.Grammar
import Turnstile.Proofs.Json.Numbers
import Turnstile.Proofs.Json.Strings

/-!
# Records and documents

A record passes over the members that are none of its fields; the document it is read from keeps
them all.

* `strays`: where the values start that a record passes over.
* `record_mend`: a record is read alike when its octets are mended.
* `object_of_record`: **the document of a record can be read if and only if the values that the
  record passes over can be**; what the record holds then follows from the members.
* `array_of_record`: the document of a record that is an array can be read.
-/

namespace Turnstile.Json

open Octet

variable {ρ : Type} {bs rest : Bytes}

/-! ## Values -/

namespace Reader

theorem map_follows {α β : Type} {φ : Bytes → Bytes} {r : Bytes → Except Fault (α × Bytes)} (f : α → β)
    (h : Follows φ Eq r r) :
    Follows φ Eq (fun bs => (r bs).map fun (x, rest) => (f x, rest))
      (fun bs => (r bs).map fun (x, rest) => (f x, rest)) := by
  intro bs y rest hread
  obtain ⟨x, after, hx, heq⟩ := map_ok hread
  cases heq
  obtain ⟨x', hx', rfl, hlt⟩ := h bs x rest hx
  refine ⟨f x, ?_, rfl, hlt⟩
  dsimp only
  rw [hx']
  rfl

theorem keeping_follows_mend : keeping.Follows Utf8.mend Eq Eq keeping where
  string := Lexeme.string_follows_mend
  number := map_follows Json.number (Lexeme.number_follows faithful_mend)
  null := rfl
  bool _ := rfl
  text _ _ h := congrArg Json.string h
  array _ _ h := congrArg Json.array (List.forall₂_eq_eq_eq ▸ h)
  object _ _ h := by
    refine congrArg Json.object (List.forall₂_eq_eq_eq ▸ h.imp fun x y hxy => ?_)
    exact Prod.ext hxy.1 hxy.2

theorem passing_follows {φ : Bytes → Bytes} (hφ : Faithful φ)
    (hstring : Follows φ (fun _ _ => True) Lexeme.skipString Lexeme.skipString) :
    passing.Follows φ (fun _ _ => True) (fun _ _ => True) passing where
  string := hstring
  number := Lexeme.skipNumber_follows hφ
  null := trivial
  bool _ := trivial
  text _ _ _ := trivial
  array _ _ _ := trivial
  object _ _ _ := trivial

/-- What is kept can be passed over. -/
theorem passing_follows_keeping : keeping.Follows id (fun _ _ => True) (fun _ _ => True) passing where
  string := Lexeme.skipString_follows_string
  number := by
    intro bs x rest hread
    obtain ⟨n, after, hn, heq⟩ := map_ok hread
    cases heq
    exact Lexeme.skipNumber_follows_number bs n rest hn
  null := trivial
  bool _ := trivial
  text _ _ _ := trivial
  array _ _ _ := trivial
  object _ _ _ := trivial

theorem json_follows_mend (depth : Nat) : Follows Utf8.mend Eq (json depth) (json depth) :=
  fun bs x rest h =>
    value_follows faithful_mend keeping_follows_mend depth depth bs x rest (.inl (Nat.le_refl _)) h

theorem skip_ok : skip bs = .ok rest ↔ value passing bs.length bs = .ok ((), rest) := by
  rw [skip]
  cases value passing bs.length bs with
  | error fault => simp [Except.map]
  | ok next => simp [Except.map, Prod.ext_iff]

theorem skip_follows {φ : Bytes → Bytes} (hφ : Faithful φ)
    (hstring : Follows φ (fun _ _ => True) Lexeme.skipString Lexeme.skipString) (h : skip bs = .ok rest) :
    skip (φ bs) = .ok (φ rest) ∧ (φ rest).length < (φ bs).length := by
  obtain ⟨_, hskip, -, hlt⟩ := value_follows hφ (passing_follows hφ hstring) bs.length (φ bs).length bs
    () rest (.inr (Nat.le_refl _)) (skip_ok.1 h)
  exact ⟨skip_ok.2 hskip, hlt⟩

theorem skip_shorter (h : skip bs = .ok rest) : rest.length < bs.length :=
  (skip_follows faithful_id Lexeme.skipString_follows_id h).2

/-- A document that can be read can be passed over. -/
theorem skip_of_json {depth : Nat} {x : Json} (h : json depth bs = .ok (x, rest)) :
    skip bs = .ok rest ∧ rest.length < bs.length := by
  obtain ⟨_, hskip, -, hlt⟩ := value_follows faithful_id passing_follows_keeping depth
    bs.length bs x rest (.inr (Nat.le_refl _)) h
  exact ⟨skip_ok.2 hskip, hlt⟩

end Reader

theorem ok_of_toOption {ε α : Type} {e : Except ε α} {x : α} (h : e.toOption = some x) : e = .ok x := by
  cases e with
  | error _ => cases h
  | ok y =>
    cases h
    rfl

theorem read_ok {α : Type} {r : Reader α} {x : α} : read r bs = .ok x ↔
    ∃ rest, r maxNesting bs = .ok (x, rest) ∧ (skipSpace rest).isEmpty = true := by
  rw [read]
  cases r maxNesting bs with
  | error fault => simp
  | ok next =>
    dsimp only
    split
    · rename_i hend
      constructor
      · intro h
        cases h
        exact ⟨next.2, rfl, hend⟩
      · rintro ⟨rest, h, -⟩
        cases h
        rfl
    · rename_i hend
      constructor
      · intro h
        cases h
      · rintro ⟨rest, h, hempty⟩
        cases h
        exact absurd hempty hend

/-! ## Records -/

section Records

variable {fields : List (Field ρ)} {depth : Nat}

/-- Whether a field is read alike when its octets are mended. -/
def Field.Mends (f : Field ρ) : Prop :=
  ∀ s depth, Follows Utf8.mend Eq (f.read s depth) (f.read s depth)

theorem Field.mends_json (name : String) (set : ρ → Json → ρ) :
    (Field.of name Reader.json set).Mends := by
  intro s depth
  exact Reader.map_follows (set s) (Reader.json_follows_mend depth)

theorem member_ok {s s' : ρ × List String} :
    member fields depth s bs = .ok (s', rest) ↔
      ∃ name bs₁ bs₂, Lexeme.string bs = .ok (name, bs₁) ∧ Reader.colon bs₁ = .ok bs₂ ∧
        ((∃ f r, fields.find? (·.name = name) = some f ∧ ¬ s.2.contains name = true ∧
            f.read s.1 depth bs₂ = .ok (r, rest) ∧ s' = (r, name :: s.2)) ∨
          fields.find? (·.name = name) = none ∧ Reader.skip bs₂ = .ok rest ∧ s' = s) := by
  constructor
  · intro h
    rw [member] at h
    cases hname : Lexeme.string bs with
    | error fault => rw [hname] at h; cases h
    | ok named =>
      rw [hname] at h
      dsimp only at h
      refine ⟨named.1, named.2, ?_⟩
      cases hfind : fields.find? (·.name = named.1) with
      | some f =>
        rw [hfind] at h
        dsimp only at h
        split at h
        · cases h
        · rename_i hnew
          cases hcolon : Reader.colon named.2 with
          | error fault => rw [hcolon] at h; cases h
          | ok bs₂ =>
            rw [hcolon] at h
            obtain ⟨r, after, hread, heq⟩ := Reader.map_ok h
            cases heq
            exact ⟨bs₂, rfl, rfl, .inl ⟨f, r, rfl, hnew, hread, rfl⟩⟩
      | none =>
        rw [hfind] at h
        dsimp only at h
        cases hcolon : Reader.colon named.2 with
        | error fault => rw [hcolon] at h; cases h
        | ok bs₂ =>
          rw [hcolon] at h
          dsimp only at h
          cases hskip : Reader.skip bs₂ with
          | error fault => rw [hskip] at h; cases h
          | ok after =>
            rw [hskip] at h
            cases h
            exact ⟨bs₂, rfl, rfl, .inr ⟨rfl, hskip, rfl⟩⟩
  · rintro ⟨name, bs₁, bs₂, hname, hcolon, ⟨f, r, hfind, hnew, hread, rfl⟩ | ⟨hfind, hskip, rfl⟩⟩
    · rw [member, hname]
      dsimp only
      rw [hfind]
      dsimp only
      rw [if_neg hnew, hcolon]
      dsimp only
      rw [hread]
      rfl
    · rw [member, hname]
      dsimp only
      rw [hfind]
      dsimp only
      rw [hcolon]
      dsimp only
      rw [hskip]
      rfl

theorem member_shorter (hfields : ∀ f ∈ fields, ∃ set, f = .of f.name Reader.json set)
    {s s' : ρ × List String} (h : member fields depth s bs = .ok (s', rest)) : rest.length < bs.length := by
  obtain ⟨name, bs₁, bs₂, hname, hcolon, hvalue⟩ := member_ok.1 h
  obtain ⟨_, -, -, hlt₁⟩ := Lexeme.skipString_follows_string bs name bs₁ hname
  obtain ⟨-, hlt₂⟩ := Reader.colon_follows faithful_id hcolon
  simp only [id_eq] at hlt₁ hlt₂
  rcases hvalue with ⟨f, r, hfind, -, hread, -⟩ | ⟨-, hskip, -⟩
  · obtain ⟨set, hset⟩ := hfields f (List.mem_of_find?_eq_some hfind)
    rw [hset] at hread
    obtain ⟨x, after, hx, heq⟩ := Reader.map_ok hread
    cases heq
    have hlt := (Reader.skip_of_json hx).2
    omega
  · have hlt := Reader.skip_shorter hskip
    omega

theorem member_mend (hfields : ∀ f ∈ fields, f.Mends) (bound : Nat) :
    StepFollows Utf8.mend bound Eq (member fields depth) (member fields depth) := by
  rintro s _ bs s' rest - rfl h
  obtain ⟨name, bs₁, bs₂, hname, hcolon, hvalue⟩ := member_ok.1 h
  obtain ⟨_, hname', rfl, hlt₁⟩ := Lexeme.string_follows_mend bs name bs₁ hname
  obtain ⟨hcolon', hlt₂⟩ := Reader.colon_follows faithful_mend hcolon
  rcases hvalue with ⟨f, r, hfind, hnew, hread, rfl⟩ | ⟨hfind, hskip, rfl⟩
  · obtain ⟨_, hread', rfl, hlt⟩ := hfields f (List.mem_of_find?_eq_some hfind) s.1 depth bs₂ r rest hread
    exact ⟨_, member_ok.2 ⟨name, Utf8.mend bs₁, Utf8.mend bs₂, hname', hcolon',
      .inl ⟨f, r, hfind, hnew, hread', rfl⟩⟩, rfl, by omega⟩
  · obtain ⟨hskip', hlt⟩ := Reader.skip_follows faithful_mend Lexeme.skipString_follows_mend hskip
    exact ⟨_, member_ok.2 ⟨name, Utf8.mend bs₁, Utf8.mend bs₂, hname', hcolon',
      .inr ⟨hfind, hskip', rfl⟩⟩, rfl, by omega⟩

theorem positional_cons_ok {f : Field ρ} {fs : List (Field ρ)} {first : Bool} {s s' : ρ} :
    positional depth (f :: fs) first s bs = .ok (s', rest) ↔
      skipSpace bs = closeBracket :: rest ∧ s' = s ∨
        ∃ b tail s₁ bs₁, skipSpace bs = b :: tail ∧ b ≠ closeBracket ∧ (first = true ∨ b = comma) ∧
          f.read s depth (if first then b :: tail else tail) = .ok (s₁, bs₁) ∧
          positional depth fs false s₁ bs₁ = .ok (s', rest) := by
  rw [positional]
  cases hskip : skipSpace bs with
  | nil => simp
  | cons b tail =>
    dsimp only
    by_cases hb : b = closeBracket
    · subst hb
      simp [eq_comm, and_comm]
    rw [if_neg hb]
    by_cases hsep : (first || decide (b = comma)) = true
    · rw [if_pos hsep]
      have hsep' : first = true ∨ b = comma := by simpa using hsep
      cases hread : f.read s depth (if first then b :: tail else tail) with
      | error fault => simp [hb, hread]
      | ok next => simp [hb, hsep', hread, Prod.ext_iff]
    · rw [if_neg hsep]
      have hsep' : ¬ (first = true ∨ b = comma) := by simpa using hsep
      simp [hb, hsep']

theorem positional_nil_ok {first : Bool} {s s' : ρ} :
    positional depth ([] : List (Field ρ)) first s bs = .ok (s', rest) ↔
      skipSpace bs = closeBracket :: rest ∧ s' = s := by
  rw [positional]
  cases hskip : skipSpace bs with
  | nil => simp
  | cons b tail =>
    by_cases hb : b = closeBracket
    · subst hb
      simp [eq_comm, and_comm]
    · simp [hb]

theorem positional_mend {fs : List (Field ρ)} (hfields : ∀ f ∈ fs, f.Mends) {first : Bool} {s s' : ρ}
    (h : positional depth fs first s bs = .ok (s', rest)) :
    positional depth fs first s (Utf8.mend bs) = .ok (s', Utf8.mend rest) := by
  induction fs generalizing first s bs with
  | nil =>
    obtain ⟨hskip, rfl⟩ := positional_nil_ok.1 h
    exact positional_nil_ok.2 ⟨faithful_mend.skipSpace_ascii hskip (by decide), rfl⟩
  | cons f fs ih =>
    rcases positional_cons_ok.1 h with ⟨hskip, rfl⟩ | ⟨b, tail, s₁, bs₁, hskip, hb, hsep, hread, hmore⟩
    · exact positional_cons_ok.2 (.inl ⟨faithful_mend.skipSpace_ascii hskip (by decide), rfl⟩)
    · obtain ⟨b', tail', hskip', hb', hmend⟩ := faithful_mend.skipSpace_open (by decide) hskip hb
      obtain ⟨_, hread', rfl, -⟩ := hfields f List.mem_cons_self s depth _ s₁ bs₁ hread
      have hmore' := ih (fun g hg => hfields g (List.mem_cons_of_mem f hg)) hmore
      refine positional_cons_ok.2 (.inr ⟨b', tail', s₁, Utf8.mend bs₁, hskip', hb', ?_⟩)
      cases first with
      | true =>
        refine ⟨.inl rfl, ?_, hmore'⟩
        rw [if_pos rfl] at hread' ⊢
        rwa [hmend]
      | false =>
        obtain rfl : b = comma := hsep.resolve_left (by decide)
        rw [Utf8.mend_ascii (by decide)] at hmend
        obtain ⟨rfl, rfl⟩ := List.cons.inj hmend
        exact ⟨.inr rfl, hread', hmore'⟩

theorem record_ok {start s : ρ} : record fields start depth bs = .ok (s, rest) ↔
    (∃ d tail, depth = d + 1 ∧ skipSpace bs = openBracket :: tail ∧
        positional d fields true start tail = .ok (s, rest)) ∨
      ∃ d tail seen, depth = d + 1 ∧ skipSpace bs = openBrace :: tail ∧
        Reader.object (member fields d) (start, []) tail = .ok ((s, seen), rest) := by
  have hdiffer : openBrace ≠ openBracket := by decide
  rw [record]
  cases hskip : skipSpace bs with
  | nil => simp
  | cons b tail =>
    dsimp only
    by_cases hbracket : b = openBracket
    · subst hbracket
      cases depth with
      | zero => simp
      | succ d => simp [hdiffer.symm]
    rw [if_neg hbracket]
    by_cases hbrace : b = openBrace
    · subst hbrace
      cases depth with
      | zero => simp
      | succ d =>
        cases hobject : Reader.object (member fields d) (start, []) tail with
        | error fault => simp [Except.map, hobject, hdiffer]
        | ok next =>
          obtain ⟨⟨r, seen⟩, after⟩ := next
          simp [Except.map, hobject, hdiffer]
    · simp [hbracket, hbrace]

/-- **A record is read alike when its octets are mended.** -/
theorem record_mend (hfields : ∀ f ∈ fields, f.Mends) {start s : ρ}
    (h : record fields start depth bs = .ok (s, rest)) :
    record fields start depth (Utf8.mend bs) = .ok (s, Utf8.mend rest) := by
  rcases record_ok.1 h with ⟨d, tail, rfl, hskip, harray⟩ | ⟨d, tail, seen, rfl, hskip, hobject⟩
  · exact record_ok.2 (.inl ⟨d, Utf8.mend tail, rfl, faithful_mend.skipSpace_ascii hskip (by decide),
      positional_mend hfields harray⟩)
  · obtain ⟨_, hobject', rfl, -⟩ := object_follows faithful_mend (member_mend hfields _) (Nat.le_refl _)
      rfl hobject
    exact record_ok.2 (.inr ⟨d, Utf8.mend tail, seen, rfl,
      faithful_mend.skipSpace_ascii hskip (by decide), hobject'⟩)

end Records

/-! ## Records and their documents -/

section Documents

variable {fields : List (Field ρ)} {depth : Nat}

/-- Passes over one member of an object, from behind the opening quote of its name, and adds where
its value starts unless it has one of the names. -/
def stray (names : List String) (found : List Bytes) (bs : Bytes) :
    Except Fault (List Bytes × Bytes) :=
  match Lexeme.string bs with
  | .error fault => .error fault
  | .ok (name, bs) =>
    match Reader.colon bs with
    | .error fault => .error fault
    | .ok bs => (Reader.skip bs).map fun rest => (if name ∈ names then found else bs :: found, rest)

/-- Where the values start of the members of an object that have none of the names. -/
def strays (names : List String) (bs : Bytes) : List Bytes :=
  match skipSpace bs with
  | [] => []
  | b :: rest =>
    if b = openBrace then
      match Reader.object (stray names) [] rest with
      | .error _ => []
      | .ok (found, _) => found
    else []

/-- Whether the document that starts somewhere can be read. -/
def readable (depth : Nat) (bs : Bytes) : Bool :=
  (Reader.json depth bs).isOk

/-- Whether what a record holds follows from the members of its object, the last one first. -/
structure Tracks (fields : List (Field ρ)) (R : ρ → List (String × Json) → Prop) : Prop where
  field : ∀ f ∈ fields, ∃ set, f = .of f.name Reader.json set ∧
    ∀ s xs x, R s xs → R (set s x) ((f.name, x) :: xs)
  other : ∀ s xs name x, name ∉ fields.map Field.name → R s xs → R s ((name, x) :: xs)

theorem stray_ok {names : List String} {found found' : List Bytes} :
    stray names found bs = .ok (found', rest) ↔
      ∃ name bs₁ bs₂, Lexeme.string bs = .ok (name, bs₁) ∧ Reader.colon bs₁ = .ok bs₂ ∧
        Reader.skip bs₂ = .ok rest ∧ found' = if name ∈ names then found else bs₂ :: found := by
  constructor
  · intro h
    rw [stray] at h
    cases hname : Lexeme.string bs with
    | error fault => rw [hname] at h; cases h
    | ok named =>
      rw [hname] at h
      dsimp only at h
      cases hcolon : Reader.colon named.2 with
      | error fault => rw [hcolon] at h; cases h
      | ok bs₂ =>
        rw [hcolon] at h
        dsimp only at h
        cases hskip : Reader.skip bs₂ with
        | error fault => rw [hskip] at h; cases h
        | ok after =>
          rw [hskip] at h
          cases h
          exact ⟨named.1, named.2, bs₂, rfl, hcolon, hskip, rfl⟩
  · rintro ⟨name, bs₁, bs₂, hname, hcolon, hskip, rfl⟩
    rw [stray, hname]
    dsimp only
    rw [hcolon]
    dsimp only
    rw [hskip]
    rfl

theorem mem_names_of_find {name : String} {f : Field ρ} (h : fields.find? (·.name = name) = some f) :
    f ∈ fields ∧ f.name = name := by
  have hname := List.find?_some h
  exact ⟨List.mem_of_find?_eq_some h, of_decide_eq_true hname⟩

theorem not_mem_names_of_find {name : String} (h : fields.find? (·.name = name) = none) :
    name ∉ fields.map Field.name := by
  rintro hmem
  obtain ⟨f, hf, hname⟩ := List.mem_map.1 hmem
  exact List.find?_eq_none.1 h f hf (decide_eq_true hname)

variable {R : ρ → List (String × Json) → Prop}

theorem readable_iff : readable depth bs = true ↔ ∃ x rest, Reader.json depth bs = .ok (x, rest) := by
  rw [readable]
  cases Reader.json depth bs with
  | error fault => simp [Except.isOk, Except.toBool]
  | ok next => exact ⟨fun _ => ⟨next.1, next.2, rfl⟩, fun _ => rfl⟩

/-- One member of a record, as the record and as its document have it. -/
theorem member_document (hR : Tracks fields R) {s s' : ρ × List String}
    (h : member fields depth s bs = .ok (s', rest)) (found : List Bytes) :
    ∃ found', stray (fields.map Field.name) found bs = .ok (found', rest) ∧ found ⊆ found' ∧
      ((∀ v ∈ found', readable depth v = true) → ∀ xs, R s.1 xs →
        ∃ xs', Reader.entry Reader.keeping depth xs bs = .ok (xs', rest) ∧ R s'.1 xs') := by
  obtain ⟨name, bs₁, bs₂, hname, hcolon, hvalue⟩ := member_ok.1 h
  rcases hvalue with ⟨f, r, hfind, -, hread, rfl⟩ | ⟨hfind, hskip, rfl⟩
  · obtain ⟨hf, rfl⟩ := mem_names_of_find hfind
    obtain ⟨set, hof, hset⟩ := hR.field f hf
    rw [hof] at hread
    obtain ⟨x, after, hx, heq⟩ := Reader.map_ok hread
    cases heq
    refine ⟨found, stray_ok.2 ⟨f.name, bs₁, bs₂, hname, hcolon, (Reader.skip_of_json hx).1, ?_⟩,
      fun _ h => h, ?_⟩
    · rw [if_pos (List.mem_map_of_mem hf)]
    · intro _ xs hxs
      exact ⟨_, Reader.entry_ok.2 ⟨f.name, bs₁, bs₂, x, hname, hcolon, hx, rfl⟩, hset _ _ x hxs⟩
  · have hother := not_mem_names_of_find hfind
    refine ⟨bs₂ :: found, stray_ok.2 ⟨name, bs₁, bs₂, hname, hcolon, hskip, ?_⟩,
      fun _ => List.mem_cons_of_mem bs₂, ?_⟩
    · rw [if_neg hother]
    · intro hreadable xs hxs
      obtain ⟨x, after, hx⟩ := readable_iff.1 (hreadable bs₂ List.mem_cons_self)
      -- the record and the document agree on where the value ends
      obtain rfl : after = rest := by
        have hagain := (Reader.skip_of_json hx).1
        rw [hskip] at hagain
        exact (Except.ok.inj hagain).symm
      exact ⟨_, Reader.entry_ok.2 ⟨name, bs₁, bs₂, x, hname, hcolon, hx, rfl⟩,
        hR.other _ _ name x hother hxs⟩

/-- The members of a record, as the record and as its document have them: by induction on the
members that are left, with what was passed over so far. -/
theorem entries_document (hR : Tracks fields R) (n : Nat) :
    ∀ {s s' : ρ × List String} {bs rest : Bytes},
      Reader.entries (member fields depth) n s bs = .ok (s', rest) → ∀ found : List Bytes,
      ∃ found', Reader.entries (stray (fields.map Field.name)) n found bs = .ok (found', rest) ∧
        found ⊆ found' ∧
        ((∀ v ∈ found', readable depth v = true) → ∀ xs, R s.1 xs →
          ∃ xs', Reader.entries (Reader.entry Reader.keeping depth) n xs bs = .ok (xs', rest) ∧
            R s'.1 xs') := by
  induction n with
  | zero => intro s s' bs rest h; cases h
  | succ n ih =>
    intro s s' bs rest h found
    obtain ⟨bs₀, s₁, bs₁, hopen, hmember, hgoes⟩ := entries_succ_ok.1 h
    obtain ⟨found₁, hstray, hsub₁, hentry⟩ := member_document hR hmember found
    rcases hgoes with ⟨hclose, rfl⟩ | ⟨tail, hcomma, hmore⟩
    · refine ⟨found₁, entries_succ_ok.2 ⟨bs₀, found₁, bs₁, hopen, hstray, .inl ⟨hclose, rfl⟩⟩, hsub₁, ?_⟩
      intro hreadable xs hxs
      obtain ⟨xs₁, hxs₁, hR₁⟩ := hentry hreadable xs hxs
      exact ⟨xs₁, entries_succ_ok.2 ⟨bs₀, xs₁, bs₁, hopen, hxs₁, .inl ⟨hclose, rfl⟩⟩, hR₁⟩
    · obtain ⟨found', hstrays, hsub, hentries⟩ := ih hmore found₁
      refine ⟨found', entries_succ_ok.2 ⟨bs₀, found₁, bs₁, hopen, hstray, .inr ⟨tail, hcomma, hstrays⟩⟩,
        fun _ hv => hsub (hsub₁ hv), ?_⟩
      intro hreadable xs hxs
      obtain ⟨xs₁, hxs₁, hR₁⟩ := hentry (fun v hv => hreadable v (hsub hv)) xs hxs
      obtain ⟨xs', hxs', hR'⟩ := hentries hreadable xs₁ hR₁
      exact ⟨xs', entries_succ_ok.2 ⟨bs₀, xs₁, bs₁, hopen, hxs₁, .inr ⟨tail, hcomma, hxs'⟩⟩, hR'⟩

theorem object_document (hR : Tracks fields R) {s s' : ρ × List String}
    (h : Reader.object (member fields depth) s bs = .ok (s', rest)) (hs : R s.1 []) :
    ∃ found, Reader.object (stray (fields.map Field.name)) [] bs = .ok (found, rest) ∧
      ((∀ v ∈ found, readable depth v = true) →
        ∃ xs, Reader.object (Reader.entry Reader.keeping depth) [] bs = .ok (xs, rest) ∧ R s'.1 xs) := by
  rcases object_ok.1 h with ⟨hskip, rfl⟩ | ⟨b, tail, hskip, hb, hentries⟩
  · exact ⟨[], object_ok.2 (.inl ⟨hskip, rfl⟩), fun _ => ⟨[], object_ok.2 (.inl ⟨hskip, rfl⟩), hs⟩⟩
  · obtain ⟨found, hfound, -, hread⟩ := entries_document hR bs.length hentries []
    refine ⟨found, object_ok.2 (.inr ⟨b, tail, hskip, hb, hfound⟩), fun hreadable => ?_⟩
    obtain ⟨xs, hxs, hR'⟩ := hread hreadable [] hs
    exact ⟨xs, object_ok.2 (.inr ⟨b, tail, hskip, hb, hxs⟩), hR'⟩

/-- Of an object that can be read, so can every value. -/
theorem strays_readable (names : List String) {xs : List (String × Json)}
    (h : Reader.object (Reader.entry Reader.keeping depth) [] bs = .ok (xs, rest)) :
    ∃ found, Reader.object (stray names) [] bs = .ok (found, rest) ∧
      ∀ v ∈ found, readable depth v = true := by
  have hstep : StepFollows id bs.length (fun (_ : List (String × Json)) found =>
      ∀ v ∈ found, readable depth v = true) (Reader.entry Reader.keeping depth) (stray names) := by
    intro xs found bs ys rest _ hfound hentry
    obtain ⟨name, bs₁, bs₂, x, hname, hcolon, hx, rfl⟩ := Reader.entry_ok.1 hentry
    obtain ⟨_, -, -, hlt₁⟩ := Lexeme.skipString_follows_string bs name bs₁ hname
    obtain ⟨-, hlt₂⟩ := Reader.colon_follows faithful_id hcolon
    obtain ⟨hskip, hlt₃⟩ := Reader.skip_of_json hx
    simp only [id_eq] at hlt₁ hlt₂ ⊢
    refine ⟨_, stray_ok.2 ⟨name, bs₁, bs₂, hname, hcolon, hskip, rfl⟩, ?_, by omega⟩
    split
    · exact hfound
    · exact List.forall_mem_cons.2 ⟨readable_iff.2 ⟨x, rest, hx⟩, hfound⟩
  obtain ⟨found, hfound, hreadable, -⟩ := object_follows faithful_id hstep (Nat.le_refl _)
    (fun v hv => absurd hv List.not_mem_nil) h
  exact ⟨found, hfound, hreadable⟩

theorem json_object {tail : Bytes} {xs : List (String × Json)} (hskip : skipSpace bs = openBrace :: tail)
    (h : Reader.object (Reader.entry Reader.keeping depth) [] tail = .ok (xs, rest)) :
    Reader.json (depth + 1) bs = .ok (.object xs.reverse, rest) :=
  (Reader.Reads.object hskip h).value

theorem json_object_inv {tail : Bytes} {j : Json} (hskip : skipSpace bs = openBrace :: tail)
    (h : Reader.json (depth + 1) bs = .ok (j, rest)) :
    ∃ xs, Reader.object (Reader.entry Reader.keeping depth) [] tail = .ok (xs, rest) ∧
      j = .object xs.reverse := by
  have hhead : ∀ {b tail'}, skipSpace bs = b :: tail' → b = openBrace := by
    intro b tail' hb
    rw [hskip] at hb
    exact (List.cons.inj hb).1.symm
  generalize hdepth : depth + 1 = d at h
  cases Reader.reads_of_value h with
  | null hb => exact absurd (hhead hb) (by decide)
  | yes hb => exact absurd (hhead hb) (by decide)
  | no hb => exact absurd (hhead hb) (by decide)
  | number hb hnumber =>
    rw [hhead hb] at hnumber
    exact absurd hnumber (by decide)
  | text hb => exact absurd (hhead hb) (by decide)
  | array hb => exact absurd (hhead hb) (by decide)
  | object hb hobject =>
    cases hdepth
    rw [hskip] at hb
    cases hb
    exact ⟨_, hobject, rfl⟩

/-- **The document of a record can be read if and only if every value that the record passes over
can be**, and what the record holds follows from the members. -/
theorem object_of_record (hR : Tracks fields R) {start s : ρ} (hstart : R start []) {tail : Bytes}
    (hskip : skipSpace bs = openBrace :: tail)
    (h : record fields start (depth + 1) bs = .ok (s, rest)) :
    ((∃ j, Reader.json (depth + 1) bs = .ok (j, rest)) ↔
        ∀ v ∈ strays (fields.map Field.name) bs, readable depth v = true) ∧
      ∀ j after, Reader.json (depth + 1) bs = .ok (j, after) →
        after = rest ∧ ∃ ms, j = .object ms ∧ R s ms.reverse := by
  obtain ⟨found, hfound, hread⟩ : ∃ found,
      Reader.object (stray (fields.map Field.name)) [] tail = .ok (found, rest) ∧
        ((∀ v ∈ found, readable depth v = true) →
          ∃ xs, Reader.object (Reader.entry Reader.keeping depth) [] tail = .ok (xs, rest) ∧ R s xs) := by
    rcases record_ok.1 h with ⟨_, _, -, hskip', -⟩ | ⟨d, tail', seen, hdepth, hskip', hobject⟩
    · rw [hskip] at hskip'
      exact absurd (List.cons.inj hskip').1 (by decide)
    · cases hdepth
      rw [hskip] at hskip'
      cases hskip'
      exact object_document hR hobject hstart
  have hstrays : strays (fields.map Field.name) bs = found := by
    rw [strays, hskip]
    dsimp only
    rw [if_pos rfl, hfound]
  rw [hstrays]
  refine ⟨⟨?_, ?_⟩, ?_⟩
  · rintro ⟨j, hj⟩
    obtain ⟨xs, hxs, -⟩ := json_object_inv hskip hj
    obtain ⟨found', hfound', hreadable⟩ := strays_readable (fields.map Field.name) hxs
    cases hfound.symm.trans hfound'
    exact hreadable
  · intro hreadable
    obtain ⟨xs, hxs, -⟩ := hread hreadable
    exact ⟨_, json_object hskip hxs⟩
  · intro j after hj
    obtain ⟨xs, hxs, rfl⟩ := json_object_inv hskip hj
    obtain ⟨found', hfound', hreadable⟩ := strays_readable (fields.map Field.name) hxs
    cases hfound.symm.trans hfound'
    obtain ⟨xs', hxs', hR'⟩ := hread hreadable
    cases hxs.symm.trans hxs'
    refine ⟨rfl, xs.reverse, rfl, ?_⟩
    rwa [List.reverse_reverse]

/-- Fields by position are items of an array. -/
theorem positional_goes (hR : Tracks fields R) {fs : List (Field ρ)} (hfs : fs ⊆ fields) {s s' : ρ}
    {bs rest : Bytes} (h : positional depth fs false s bs = .ok (s', rest)) :
    ∀ n (xs : List Json), bs.length ≤ n →
      ∃ ys, Goes closeBracket (Reader.items (Reader.item Reader.keeping depth) n) xs bs ys rest := by
  induction fs generalizing s bs with
  | nil =>
    intro n xs _
    exact ⟨xs, .inl ⟨(positional_nil_ok.1 h).1, rfl⟩⟩
  | cons f fs ih =>
    intro n xs hn
    rcases positional_cons_ok.1 h with ⟨hskip, -⟩ | ⟨b, tail, s₁, bs₁, hskip, -, hsep, hread, hmore⟩
    · exact ⟨xs, .inl ⟨hskip, rfl⟩⟩
    · obtain rfl : b = comma := hsep.resolve_left (by decide)
      obtain ⟨set, hof, -⟩ := hR.field f (hfs List.mem_cons_self)
      rw [hof] at hread
      obtain ⟨x, after, hx, heq⟩ := Reader.map_ok hread
      cases heq
      have hbehind := length_of_skipSpace hskip
      have hlt : bs₁.length < tail.length := (Reader.skip_of_json hx).2
      obtain ⟨n, rfl⟩ : ∃ k, n = k + 1 := ⟨n - 1, by omega⟩
      obtain ⟨ys, hys⟩ := ih (fun _ hg => hfs (List.mem_cons_of_mem f hg)) hmore n (x :: xs) (by omega)
      refine ⟨ys, .inr ⟨tail, hskip, items_succ_ok.2 ⟨x :: xs, bs₁, ?_, hys⟩⟩⟩
      rw [Reader.item, show Reader.value Reader.keeping depth tail = .ok (x, bs₁) from hx]
      rfl

/-- **The document of a record that is an array can be read.** -/
theorem array_of_record (hR : Tracks fields R) {start s : ρ} {tail : Bytes}
    (hskip : skipSpace bs = openBracket :: tail)
    (h : record fields start (depth + 1) bs = .ok (s, rest)) :
    ∃ items, Reader.json (depth + 1) bs = .ok (.array items, rest) := by
  have harray : positional depth fields true start tail = .ok (s, rest) := by
    rcases record_ok.1 h with ⟨d, tail', hdepth, hskip', harray⟩ | ⟨_, _, _, -, hskip', -⟩
    · cases hdepth
      rw [hskip] at hskip'
      cases hskip'
      exact harray
    · rw [hskip] at hskip'
      exact absurd (List.cons.inj hskip').1 (by decide)
  obtain ⟨xs, hxs⟩ : ∃ xs, Reader.array (Reader.item Reader.keeping depth) [] tail = .ok (xs, rest) := by
    cases fields with
    | nil => exact ⟨[], array_ok.2 (.inl ⟨(positional_nil_ok.1 harray).1, rfl⟩)⟩
    | cons f fs =>
      rcases positional_cons_ok.1 harray with
        ⟨hclose, -⟩ | ⟨b, tail', s₁, bs₁, hopen, hb, -, hread, hmore⟩
      · exact ⟨[], array_ok.2 (.inl ⟨hclose, rfl⟩)⟩
      · obtain ⟨set, hof, -⟩ := hR.field f List.mem_cons_self
        rw [hof] at hread
        obtain ⟨x, after, hx, heq⟩ := Reader.map_ok hread
        cases heq
        have hlt : bs₁.length < (b :: tail').length := (Reader.skip_of_json hx).2
        have hle := length_skipSpace tail
        rw [hopen] at hle
        obtain ⟨n, hn⟩ : ∃ k, tail.length = k + 1 := ⟨tail.length - 1, by omega⟩
        obtain ⟨xs, hxs⟩ := positional_goes hR (fun _ hg => List.mem_cons_of_mem f hg) hmore n [x] (by omega)
        refine ⟨xs, array_ok.2 (.inr ⟨b, tail', hopen, hb, ?_⟩)⟩
        rw [hn]
        refine items_succ_ok.2 ⟨[x], bs₁, ?_, hxs⟩
        rw [Reader.item, show Reader.value Reader.keeping depth (b :: tail') = .ok (x, bs₁) from hx]
        rfl
  exact ⟨xs.reverse, (Reader.Reads.array hskip hxs).value⟩

end Documents

end Turnstile.Json

import Turnstile.Proofs.Json.Slots
import Turnstile.Proofs.Json.Texts

/-!
# Records read by name

* `valueOf`: the value of a name among members; `valueOf_perm`: it does not depend on their order.
* `record_of_object`: **an object whose names differ is read as a record, too**, and what the record
  holds follows from the members.
* `ObjectText`: the texts of such objects.
* `ObjectText.record_read`: a record is read from each of them.
-/

namespace Turnstile.Json

open Octet

/-! ## Values -/

section Values

variable {name : String} {ms ms' : List (String × Json)}

/-- The value of the first member of a name. -/
def valueOf (name : String) (ms : List (String × Json)) : Option Json :=
  (ms.find? (·.1 = name)).map (·.2)

theorem valueOf_cons_self (name : String) (x : Json) (ms : List (String × Json)) :
    valueOf name ((name, x) :: ms) = some x := by
  rw [valueOf, List.find?_cons_of_pos (by simp)]
  rfl

theorem valueOf_cons_ne {other : String} (h : other ≠ name) (x : Json) (ms : List (String × Json)) :
    valueOf name ((other, x) :: ms) = valueOf name ms := by
  rw [valueOf, List.find?_cons_of_neg (by simpa using h), valueOf]

theorem valueOf_iff (hdistinct : (ms.map Prod.fst).Nodup) {x : Json} :
    valueOf name ms = some x ↔ (name, x) ∈ ms := by
  rw [valueOf, Option.map_eq_some_iff]
  constructor
  · rintro ⟨m, hfind, rfl⟩
    have hname := List.find?_some hfind
    obtain rfl : m.1 = name := of_decide_eq_true hname
    exact List.mem_of_find?_eq_some hfind
  · intro hmem
    cases hfind : ms.find? (·.1 = name) with
    | none => exact absurd (decide_eq_true rfl) (List.find?_eq_none.1 hfind (name, x) hmem)
    | some m =>
      have hname := List.find?_some hfind
      have heq := List.inj_on_of_nodup_map hdistinct (List.mem_of_find?_eq_some hfind) hmem
        (of_decide_eq_true hname)
      exact ⟨m, rfl, congrArg Prod.snd heq⟩

/-- **The value of a name does not depend on the order of the members**, if their names differ. -/
theorem valueOf_perm (h : ms.Perm ms') (hdistinct : (ms.map Prod.fst).Nodup) (name : String) :
    valueOf name ms = valueOf name ms' := by
  have hdistinct' := (h.map Prod.fst).nodup_iff.1 hdistinct
  refine Option.ext fun x => ?_
  rw [valueOf_iff hdistinct, valueOf_iff hdistinct', h.mem_iff]

theorem valueOf_filter {names : List String} (hname : name ∈ names) (ms : List (String × Json)) :
    valueOf name (ms.filter (·.1 ∈ names)) = valueOf name ms := by
  rw [valueOf, valueOf, List.find?_filter]
  refine congrArg (fun p => (ms.find? p).map (·.2)) (funext fun m => ?_)
  by_cases hm : m.1 = name
  · simp [hm, hname]
  · simp [hm]

end Values

/-! ## Records of documents -/

section Records

variable {ρ : Type} {fields : List (Field ρ)} {R : ρ → List (String × Json) → Prop} {depth : Nat}
  {bs rest : Bytes} {xs ys : List (String × Json)}

/-- Whether a record is that of the members so far, and has seen no other names. -/
def Agrees (R : ρ → List (String × Json) → Prop) (s : ρ × List String) (xs : List (String × Json)) : Prop :=
  R s.1 xs ∧ s.2 ⊆ xs.map Prod.fst

/-- A member of a document is a member of a record, unless its name is repeated. -/
theorem member_of_entry (hR : Tracks fields R) {s : ρ × List String} (hs : Agrees R s xs)
    (hdistinct : (ys.map Prod.fst).Nodup) (h : Reader.entry Reader.keeping depth xs bs = .ok (ys, rest)) :
    ∃ s', member fields depth s bs = .ok (s', rest) ∧ Agrees R s' ys := by
  obtain ⟨name, bs₁, bs₂, x, hname, hcolon, hx, rfl⟩ := Reader.entry_ok.1 h
  have hnew : name ∉ s.2 := fun hmem => (List.nodup_cons.1 hdistinct).1 (hs.2 hmem)
  cases hfind : fields.find? (·.name = name) with
  | some f =>
    obtain ⟨hf, rfl⟩ := mem_names_of_find hfind
    obtain ⟨set, hof, hset⟩ := hR.field f hf
    have hread : f.read s.1 depth bs₂ = .ok (set s.1 x, rest) := by
      rw [hof]
      show (Reader.json depth bs₂).map _ = _
      rw [show Reader.json depth bs₂ = .ok (x, rest) from hx]
      rfl
    have hcontains : ¬ s.2.contains f.name = true := fun hmem => hnew (List.contains_iff_mem.1 hmem)
    exact ⟨(set s.1 x, f.name :: s.2),
      member_ok.2 ⟨f.name, bs₁, bs₂, hname, hcolon, .inl ⟨f, _, hfind, hcontains, hread, rfl⟩⟩,
      hset _ _ x hs.1, List.cons_subset_cons _ hs.2⟩
  | none =>
    have hother := not_mem_names_of_find hfind
    exact ⟨s, member_ok.2 ⟨name, bs₁, bs₂, hname, hcolon, .inr ⟨hfind, (Reader.skip_of_json hx).1, rfl⟩⟩,
      hR.other _ _ name x hother hs.1, List.subset_cons_of_subset _ hs.2⟩

/-- The members read so far stay where they are. -/
theorem entries_suffix {n : Nat}
    (h : Reader.entries (Reader.entry Reader.keeping depth) n xs bs = .ok (ys, rest)) : xs <:+ ys := by
  induction n generalizing xs bs with
  | zero => cases h
  | succ n ih =>
    obtain ⟨bs₀, xs₁, bs₁, -, hentry, hgoes⟩ := entries_succ_ok.1 h
    obtain ⟨name, _, _, x, -, -, -, rfl⟩ := Reader.entry_ok.1 hentry
    have hone := List.suffix_cons (name, x) xs
    rcases hgoes with ⟨-, rfl⟩ | ⟨tail, -, hmore⟩
    · exact hone
    · exact hone.trans (ih hmore)

/-- The members of a document are those of a record. -/
theorem record_of_entries (hR : Tracks fields R) {n : Nat} {s : ρ × List String}
    (hs : Agrees R s xs) (hdistinct : (ys.map Prod.fst).Nodup)
    (h : Reader.entries (Reader.entry Reader.keeping depth) n xs bs = .ok (ys, rest)) :
    ∃ s', Reader.entries (member fields depth) n s bs = .ok (s', rest) ∧ Agrees R s' ys := by
  induction n generalizing xs s bs with
  | zero => cases h
  | succ n ih =>
    obtain ⟨bs₀, xs₁, bs₁, hopen, hentry, hgoes⟩ := entries_succ_ok.1 h
    -- the names so far differ because those of all members do
    have hsuffix : xs₁ <:+ ys := by
      rcases hgoes with ⟨-, rfl⟩ | ⟨tail, -, hmore⟩
      · exact List.suffix_refl _
      · exact entries_suffix hmore
    have hdistinct₁ := hdistinct.sublist (hsuffix.sublist.map Prod.fst)
    obtain ⟨s₁, hmember, hs₁⟩ := member_of_entry hR hs hdistinct₁ hentry
    rcases hgoes with ⟨hclose, rfl⟩ | ⟨tail, hcomma, hmore⟩
    · exact ⟨s₁, entries_succ_ok.2 ⟨bs₀, s₁, bs₁, hopen, hmember, .inl ⟨hclose, rfl⟩⟩, hs₁⟩
    · obtain ⟨s', hmembers, hs'⟩ := ih hs₁ hmore
      exact ⟨s', entries_succ_ok.2 ⟨bs₀, s₁, bs₁, hopen, hmember, .inr ⟨tail, hcomma, hmembers⟩⟩, hs'⟩

/-- **An object whose names differ is read as a record, too.** -/
theorem record_of_object (hR : Tracks fields R) {start : ρ} (hstart : R start []) {tail : Bytes}
    (hskip : skipSpace bs = openBrace :: tail) (hdistinct : (xs.map Prod.fst).Nodup)
    (h : Reader.object (Reader.entry Reader.keeping depth) [] tail = .ok (xs, rest)) :
    ∃ s, record fields start (depth + 1) bs = .ok (s, rest) ∧ R s xs := by
  have hempty : Agrees R (start, []) [] := ⟨hstart, List.nil_subset _⟩
  obtain ⟨⟨s, seen⟩, hobject, hs⟩ : ∃ s',
      Reader.object (member fields depth) (start, []) tail = .ok (s', rest) ∧ Agrees R s' xs := by
    rcases object_ok.1 h with ⟨hclose, rfl⟩ | ⟨b, tail', hopen, hb, hentries⟩
    · exact ⟨_, object_ok.2 (.inl ⟨hclose, rfl⟩), hempty⟩
    · obtain ⟨s', hmembers, hs'⟩ := record_of_entries hR hempty hdistinct hentries
      exact ⟨s', object_ok.2 (.inr ⟨b, tail', hopen, hb, hmembers⟩), hs'⟩
  exact ⟨s, record_ok.2 (.inr ⟨depth, tail, seen, rfl, hskip, hobject⟩), hs.1⟩

end Records

/-! ## Texts of objects -/

/-- A text of an object whose names differ, with the white space around it. -/
structure ObjectText where
  before : Bytes
  inside : Bytes
  members : List Member
  after : Bytes
  blankBefore : Blank before
  blankInside : Blank inside
  blankAfter : Blank after
  /-- The object itself is one level of the nesting. -/
  texts : ∀ m ∈ members, Text (maxNesting - 1) m.item.text m.item.value
  distinct : (members.map Member.name).Nodup

namespace ObjectText

variable (o : ObjectText)

def octets : Bytes :=
  o.before ++ openBrace :: (o.inside ++ (enclosed closeBrace (o.members.map Member.octets) ++ o.after))

/-- The members by their names. -/
def pairs : List (String × Json) :=
  o.members.map Member.pair

/-- The value of the member of a name. -/
def get? (name : String) : Option Json :=
  valueOf name o.pairs

/-- The members that have one of the names. -/
def among (names : List String) : List (String × Json) :=
  o.pairs.filter (·.1 ∈ names)

theorem distinct_pairs : (o.pairs.map Prod.fst).Nodup := by
  rw [pairs, List.map_map]
  exact o.distinct

/-- **A record is read from the text of every object whose names differ.** -/
theorem record_read {ρ : Type} {fields : List (Field ρ)} {R : ρ → List (String × Json) → Prop}
    (hR : Tracks fields R) {start : ρ} (hstart : R start []) :
    ∃ s, record fields start maxNesting o.octets = .ok (s, o.after) ∧ R s o.pairs.reverse := by
  have hskip : skipSpace o.octets =
      openBrace :: (o.inside ++ (enclosed closeBrace (o.members.map Member.octets) ++ o.after)) :=
    skipSpace_found o.blankBefore (by decide) _
  have hobject := members_read o.blankInside (fun m hm => (o.texts m hm).taken) o.after
  have hdistinct : ((o.members.map Member.pair).reverse.map Prod.fst).Nodup := by
    rw [List.map_reverse, List.nodup_reverse]
    exact o.distinct_pairs
  exact record_of_object hR hstart hskip hdistinct hobject

/-- The last member of a name is the only one. -/
theorem valueOf_reverse (name : String) : valueOf name o.pairs.reverse = o.get? name :=
  (valueOf_perm (List.reverse_perm _).symm o.distinct_pairs name).symm

/-- **Members of other names do not count, and the order of the members does not.** -/
theorem get?_of_perm {o' : ObjectText} {names : List String} (h : (o'.among names).Perm (o.among names))
    {name : String} (hname : name ∈ names) : o'.get? name = o.get? name := by
  have hdistinct : ((o'.among names).map Prod.fst).Nodup :=
    o'.distinct_pairs.sublist (List.filter_sublist.map Prod.fst)
  have hvalue := valueOf_perm h hdistinct name
  rwa [among, among, valueOf_filter hname, valueOf_filter hname] at hvalue

end ObjectText

/-! ## Plain texts -/

theorem Quoted.of_plain {s : String} (h : Plain s) : Quoted (Utf8.encode s ++ [quote]) s :=
  ⟨Utf8.encode s, by simpa using (Lexeme.Spells.close []).append_plain h, Utf8.decode?_encode s⟩

/-- A name and a text that need no escapes. -/
structure PlainPair where
  name : String
  text : String
  plainName : Plain name
  plainText : Plain text

/-- The pair as a member, without white space. -/
def PlainPair.member (p : PlainPair) : Member where
  before := []
  label := Utf8.encode p.name ++ [quote]
  name := p.name
  behind := []
  item :=
    { before := []
      text := quote :: (Utf8.encode p.text ++ [quote])
      value := .string p.text
      after := []
      blankBefore := blank_nil
      blankAfter := blank_nil }
  blankBefore := blank_nil
  blankBehind := blank_nil
  spelled := .of_plain p.plainName

/-- The object of the pairs, without white space. -/
def ObjectText.ofPlain (pairs : List PlainPair) (distinct : (pairs.map PlainPair.name).Nodup) : ObjectText where
  before := []
  inside := []
  members := pairs.map PlainPair.member
  after := []
  blankBefore := blank_nil
  blankInside := blank_nil
  blankAfter := blank_nil
  texts := by
    intro m hm
    obtain ⟨p, -, rfl⟩ := List.mem_map.1 hm
    exact .string _ (.of_plain p.plainText)
  distinct := by
    rw [List.map_map]
    exact distinct

end Turnstile.Json

import Turnstile.Proofs.Json.Literals
import Turnstile.Proofs.Json.Parts
import Turnstile.Proofs.Json.Records

/-!
# The texts of documents

A document may be written in many ways: with white space between its parts, with escapes in its
strings, and with its numbers in any form. The grammar says which octets are a text of which
document, and knows nothing of the reader.

* `Text`: the texts of a document, by how deeply they are nested.
* `items_read`, `members_read`: the parts of an array and of an object are read.
* `Text.taken`: **every text is read as its document**, whatever follows it.
-/

namespace Turnstile.Json

open Octet Lexeme

/-! ## The grammar -/

/-- Whether octets spell a string, from behind its opening quote to the closing one. -/
def Quoted (bs : Bytes) (s : String) : Prop :=
  ∃ content, Spells bs content [] ∧ Utf8.decode? content = some s

/-- A document in an array or an object, with the white space around it. -/
structure Item where
  before : Bytes
  text : Bytes
  value : Json
  after : Bytes
  blankBefore : Blank before
  blankAfter : Blank after

/-- A member of an object: a name in quotes, a colon, and a document. -/
structure Member where
  before : Bytes
  /-- The name from behind its opening quote. -/
  label : Bytes
  name : String
  behind : Bytes
  item : Item
  blankBefore : Blank before
  blankBehind : Blank behind
  spelled : Quoted label name

def Item.octets (i : Item) : Bytes :=
  i.before ++ (i.text ++ i.after)

namespace Member

/-- The octets of a member from behind the opening quote of its name. -/
def body (m : Member) : Bytes :=
  m.label ++ (m.behind ++ colon :: m.item.octets)

def octets (m : Member) : Bytes :=
  m.before ++ quote :: m.body

/-- The member without the way it is written. -/
def pair (m : Member) : String × Json :=
  (m.name, m.item.value)

end Member

/-- The texts of documents that are nested no deeper than the number says. -/
inductive Text : Nat → Bytes → Json → Prop where
  | null (depth : Nat) : Text depth (Utf8.encode "null") .null
  | yes (depth : Nat) : Text depth (Utf8.encode "true") (.bool true)
  | no (depth : Nat) : Text depth (Utf8.encode "false") (.bool false)
  /-- A number that can be read on its own; those in range can. -/
  | number (depth : Nat) {l : Literal} {n : Number} (h : Lexeme.number l.octets = .ok (n, [])) :
      Text depth l.octets (.number n)
  | string (depth : Nat) {label : Bytes} {s : String} (h : Quoted label s) :
      Text depth (quote :: label) (.string s)
  | array {depth : Nat} {blank : Bytes} {items : List Item} (hblank : Blank blank)
      (h : ∀ i ∈ items, Text depth i.text i.value) :
      Text (depth + 1) (openBracket :: (blank ++ enclosed closeBracket (items.map Item.octets)))
        (.array (items.map Item.value))
  | object {depth : Nat} {blank : Bytes} {ms : List Member} (hblank : Blank blank)
      (h : ∀ m ∈ ms, Text depth m.item.text m.item.value) :
      Text (depth + 1) (openBrace :: (blank ++ enclosed closeBrace (ms.map Member.octets)))
        (.object (ms.map Member.pair))

/-! ## White space -/

section Space

variable {κ α : Type} {blank : Bytes}

theorem value_skipSpace (r : Reader.Reading κ α) (depth : Nat) (bs : Bytes) :
    Reader.value r depth (skipSpace bs) = Reader.value r depth bs := by
  rw [Reader.value.eq_def r depth (skipSpace bs), Reader.value.eq_def r depth bs]
  dsimp only
  rw [skipSpace_twice]

theorem value_blank (h : Blank blank) (r : Reader.Reading κ α) (depth : Nat) (bs : Bytes) :
    Reader.value r depth (blank ++ bs) = Reader.value r depth bs := by
  rw [← value_skipSpace, skipSpace_blank h, value_skipSpace]

theorem item_skipSpace (r : Reader.Reading κ α) (depth : Nat) (xs : List α) (bs : Bytes) :
    Reader.item r depth xs (skipSpace bs) = Reader.item r depth xs bs := by
  rw [Reader.item, Reader.item, value_skipSpace]

theorem colon_blank (h : Blank blank) (bs : Bytes) : Reader.colon (blank ++ colon :: bs) = .ok bs := by
  rw [Reader.colon, skipSpace_found h (by decide)]
  exact if_pos rfl

end Space

/-! ## Items and members -/

section Parts

variable {depth : Nat} {back : Bytes}

/-- Whether a text is read as a document, whatever follows it. -/
def Taken (depth : Nat) (text : Bytes) (j : Json) : Prop :=
  ∀ back, Ends back → Reader.json depth (text ++ back) = .ok (j, back)

theorem Item.taken {i : Item} (h : Taken depth i.text i.value) (hback : Ends back) :
    Reader.json depth (i.octets ++ back) = .ok (i.value, i.after ++ back) := by
  rw [Item.octets, List.append_assoc, List.append_assoc, Reader.json, value_blank i.blankBefore]
  exact h _ (ends_blank i.blankAfter hback)

theorem Quoted.string {label : Bytes} {s : String} (h : Quoted label s) (back : Bytes) :
    Lexeme.string (label ++ back) = .ok (s, back) := by
  obtain ⟨content, hspells, hdecode⟩ := h
  exact string_ok.2 ⟨content, hspells.append back, hdecode⟩

theorem Member.opening (m : Member) (back : Bytes) :
    skipSpace (m.octets ++ back) = quote :: (m.body ++ back) := by
  rw [octets, List.append_assoc]
  exact skipSpace_found m.blankBefore (by decide) _

/-- A member is read from behind the opening quote of its name. -/
theorem Member.taken {m : Member} (h : Taken depth m.item.text m.item.value) (hback : Ends back)
    (xs : List (String × Json)) : Reader.entry Reader.keeping depth xs (m.body ++ back) =
      .ok (m.pair :: xs, m.item.after ++ back) := by
  refine Reader.entry_ok.2 ⟨m.name, m.behind ++ colon :: (m.item.octets ++ back), m.item.octets ++ back,
    m.item.value, ?_, colon_blank m.blankBehind _, m.item.taken h hback, rfl⟩
  rw [body, List.append_assoc, List.append_assoc]
  exact m.spelled.string _

theorem takesParts_items {items : List Item} (h : ∀ i ∈ items, Taken depth i.text i.value) :
    ∀ xs, TakesParts (Reader.item Reader.keeping depth) xs (items.map Item.octets)
      ((items.map Item.value).reverse ++ xs) := by
  induction items with
  | nil => exact .nil
  | cons i items ih =>
    intro xs
    rw [List.map_cons, List.map_cons, List.reverse_cons, List.append_assoc]
    refine .cons i.blankAfter (fun back hback => ?_) (ih (fun j hj => h j (List.mem_cons_of_mem i hj)) _)
    exact congrArg (Except.map _) (i.taken (h i List.mem_cons_self) hback)

theorem takesEntries_members {ms : List Member} (h : ∀ m ∈ ms, Taken depth m.item.text m.item.value) :
    ∀ xs, TakesEntries (Reader.entry Reader.keeping depth) xs (ms.map Member.octets)
      ((ms.map Member.pair).reverse ++ xs) := by
  induction ms with
  | nil => exact .nil
  | cons m ms ih =>
    intro xs
    rw [List.map_cons, List.map_cons, List.reverse_cons, List.append_assoc]
    exact .cons m.opening m.item.blankAfter (fun back hback => m.taken (h m List.mem_cons_self) hback xs)
      (ih (fun m' hm' => h m' (List.mem_cons_of_mem m hm')) _)

/-- The items of an array are read, one after another. -/
theorem items_read {blank : Bytes} (hblank : Blank blank) {items : List Item}
    (h : ∀ i ∈ items, Starts i.text ∧ Taken depth i.text i.value) (back : Bytes) :
    Reader.array (Reader.item Reader.keeping depth) []
        (blank ++ (enclosed closeBracket (items.map Item.octets) ++ back)) =
      .ok ((items.map Item.value).reverse, back) := by
  have htakes := takesParts_items (fun i hi => (h i hi).2) []
  rw [List.append_nil] at htakes
  refine array_taken hblank htakes (fun part _ s back => item_skipSpace _ _ _ _) (fun part hpart back => ?_) back
  obtain ⟨i, hi, rfl⟩ := List.mem_map.1 hpart
  obtain ⟨hskip, hopen⟩ := (h i hi).1.skipSpace (i.after ++ back)
  rw [Item.octets, List.append_assoc, List.append_assoc, skipSpace_blank i.blankBefore, hskip]
  exact hopen

/-- The members of an object are read, one after another. -/
theorem members_read {blank : Bytes} (hblank : Blank blank) {ms : List Member}
    (h : ∀ m ∈ ms, Taken depth m.item.text m.item.value) (back : Bytes) :
    Reader.object (Reader.entry Reader.keeping depth) []
        (blank ++ (enclosed closeBrace (ms.map Member.octets) ++ back)) =
      .ok ((ms.map Member.pair).reverse, back) := by
  have htakes := takesEntries_members h []
  rw [List.append_nil] at htakes
  exact object_taken hblank htakes back

end Parts

/-! ## Documents -/

section Documents

variable {depth : Nat} {text : Bytes} {j : Json}

theorem Literal.start (l : Literal) :
    ∃ b tail, l.octets = b :: tail ∧ (decide (b = minus) || isDigit b) = true := by
  obtain ⟨c, cs, hwhole⟩ := List.exists_cons_of_ne_nil l.nonempty
  have hdigit := (isDigit_octet (l.wholeDigits c (hwhole ▸ List.mem_cons_self))).1
  rw [Literal.octets, hwhole]
  by_cases hnegative : l.negative = true
  · rw [if_pos hnegative]
    exact ⟨minus, _, rfl, rfl⟩
  · rw [if_neg hnegative]
    exact ⟨UInt8.ofNat c.toNat, _, rfl, by rw [hdigit, Bool.or_true]⟩

theorem Text.starts (h : Text depth text j) : Starts text := by
  cases h with
  | number _ h =>
    rename_i l n
    obtain ⟨b, tail, hl, hb⟩ := l.start
    refine ⟨b, tail, hl, (start_of_number hb).2.2.2, ?_⟩
    rintro rfl
    exact absurd hb (by decide)
  | null => exact ⟨_, _, rfl, by decide, by decide⟩
  | yes => exact ⟨_, _, rfl, by decide, by decide⟩
  | no => exact ⟨_, _, rfl, by decide, by decide⟩
  | string => exact ⟨_, _, rfl, by decide, by decide⟩
  | array => exact ⟨_, _, rfl, by decide, by decide⟩
  | object => exact ⟨_, _, rfl, by decide, by decide⟩

/-- **Every text is read as its document**, whatever follows it. -/
theorem Text.taken (h : Text depth text j) : Taken depth text j := by
  induction h with
  | null => exact fun back _ => (Reader.Reads.null rfl rfl).value
  | yes => exact fun back _ => (Reader.Reads.yes rfl rfl).value
  | no => exact fun back _ => (Reader.Reads.no rfl rfl).value
  | @number depth l n h =>
    intro back hback
    obtain ⟨b, tail, hl, hb⟩ := l.start
    have hnumber := Literal.number_followed h hback
    have hspace := (start_of_number hb).2.2.2
    rw [hl, List.cons_append] at hnumber ⊢
    refine (Reader.Reads.number (List.dropWhile_cons_of_neg hspace) hb ?_).value
    exact congrArg (Except.map _) hnumber
  | string depth h => exact fun back _ => (Reader.Reads.text rfl (h.string back)).value
  | @array depth blank items hblank h ih =>
    intro back _
    rw [List.cons_append, List.append_assoc]
    have hskip := skipSpace_found blank_nil (b := openBracket) (by decide)
      (blank ++ (enclosed closeBracket (items.map Item.octets) ++ back))
    have harray := items_read hblank (fun i hi => ⟨(h i hi).starts, ih i hi⟩) back
    have hread := (Reader.Reads.array hskip harray).value
    rw [List.reverse_reverse] at hread
    exact hread
  | @object depth blank ms hblank h ih =>
    intro back _
    rw [List.cons_append, List.append_assoc]
    have hskip := skipSpace_found blank_nil (b := openBrace) (by decide)
      (blank ++ (enclosed closeBrace (ms.map Member.octets) ++ back))
    have hread := json_object hskip (members_read hblank ih back)
    rw [List.reverse_reverse] at hread
    exact hread

end Documents

end Turnstile.Json

import Turnstile.Json.Writer
import Turnstile.Proofs.Json.Integers
import Turnstile.Proofs.Json.Parts
import Turnstile.Proofs.Json.Slots

/-!
# What is written is read back

* `string_quoted`: a string in quotes is read as the string, whatever its characters.
* `number_exact`: so is a number of 64 bits.
* `object_written`: members are read one after another, by any reader of members that
  takes each of them.
* `json_written`: **a document without doubles is read back as it was written.**
* `record_written`: **a record whose fields are written in their order is read back.**
-/

namespace Turnstile

/-- The octets of characters. -/
def Utf8.octets (cs : List Char) : Bytes :=
  cs.flatMap String.utf8EncodeChar

open Utf8 (octets)

@[simp] theorem octets_nil : octets [] = [] := rfl

theorem octets_cons (c : Char) (cs : List Char) :
    octets (c :: cs) = String.utf8EncodeChar c ++ octets cs := List.flatMap_cons

@[simp] theorem octets_append (cs ds : List Char) : octets (cs ++ ds) = octets cs ++ octets ds :=
  List.flatMap_append

namespace Json

open Octet

theorem bytes_eq (j : Json) : j.bytes = octets j.chars := by
  rw [bytes, text, Utf8.encode, String.toList_ofList, octets]

/-! ## Strings -/

namespace Lexeme

variable {bs content rest : Bytes}

/-- The escape of a control character stands for it. -/
theorem escape_control {c : Char} (h : c.toNat < 0x20) :
    Escape (octets ['u', '0', '0', hexDigit (c.toNat / 16), hexDigit (c.toNat % 16)]) c := by
  have hall : ∀ n < 32, octets ['u', '0', '0', hexDigit (n / 16), hexDigit (n % 16)] =
        [0x75, 0x30, 0x30, UInt8.ofNat (hexDigit (n / 16)).toNat, UInt8.ofNat (hexDigit (n % 16)).toNat] ∧
      hex4? 0x30 0x30 (UInt8.ofNat (hexDigit (n / 16)).toNat) (UInt8.ofNat (hexDigit (n % 16)).toNat) =
        some n := by decide +kernel
  obtain ⟨hoctets, hvalue⟩ := hall c.toNat h
  have hlow : ¬ isLowSurrogate c.toNat = true := by simp [isLowSurrogate]; omega
  have hhigh : ¬ isHighSurrogate c.toNat = true := by simp [isHighSurrogate]; omega
  have hunit := Escape.unit hvalue hlow hhigh
  rwa [Char.ofNat_toNat, ← hoctets] at hunit

/-- A character that needs no escape stands for itself. -/
theorem plain_char {c : Char} (hquote : c ≠ '"') (hbackslash : c ≠ '\\') (hcontrol : ¬ c.toNat < 0x20) :
    ∀ b ∈ String.utf8EncodeChar c, b ≠ quote ∧ b ≠ backslash ∧ ¬ b < 0x20 := by
  intro b hb
  by_cases hascii : c.toNat < 0x80
  · rw [Utf8.encodeChar_ascii hascii, List.mem_singleton] at hb
    have hvalue : b.toNat = c.toNat := by rw [hb]; exact Utf8.toNat_octet (by omega)
    have hne : ∀ d : Char, c ≠ d → b.toNat ≠ d.toNat := fun d hd heq =>
      hd (Char.toNat_inj.1 (hvalue ▸ heq))
    exact plain_of_toNat (by omega) (hne '"' hquote) (hne '\\' hbackslash)
  · obtain ⟨b₀, bs₀, henc, hhigh⟩ := Utf8.encodeChar_high (c := c) (by omega)
    rw [henc] at hb
    exact plain_of_high (hhigh b hb)

/-- **A written character spells the character.** -/
theorem spells_escaped (c : Char) (h : Spells bs content rest) :
    Spells (octets (escaped c) ++ bs) (String.utf8EncodeChar c ++ content) rest := by
  unfold escaped
  split_ifs with h₁ h₂ h₃ h₄ h₅ h₆ h₇ h₈
  · subst h₁; exact .escape (.short (e := quote) (c := quote) rfl) h
  · subst h₂; exact .escape (.short (e := backslash) (c := backslash) rfl) h
  · subst h₃; exact .escape (.short (e := 0x62) (c := 0x08) rfl) h
  · subst h₄; exact .escape (.short (e := 0x66) (c := 0x0C) rfl) h
  · subst h₅; exact .escape (.short (e := 0x6E) (c := 0x0A) rfl) h
  · subst h₆; exact .escape (.short (e := 0x72) (c := 0x0D) rfl) h
  · subst h₇; exact .escape (.short (e := 0x74) (c := 0x09) rfl) h
  · exact .escape (escape_control h₈) h
  · rw [octets_cons, octets_nil, List.append_nil]
    exact h.append_plain (plain_char h₁ h₂ h₈)

theorem spells_quoted (cs : List Char) (rest : Bytes) :
    Spells (octets (cs.flatMap escaped) ++ quote :: rest) (octets cs) rest := by
  induction cs with
  | nil => exact .close rest
  | cons c cs ih =>
    rw [List.flatMap_cons, octets_append, List.append_assoc, octets_cons]
    exact spells_escaped c ih

/-- **A string is read from behind its opening quote**, whatever its characters. -/
theorem string_quoted (s : String) (rest : Bytes) :
    string (octets (s.toList.flatMap escaped) ++ quote :: rest) = .ok (s, rest) :=
  string_ok.2 ⟨_, spells_quoted s.toList rest, Utf8.decode?_encode s⟩

/-! ## Numbers -/

/-- **An integer is read as itself**, from the least one of 64 bits with a sign up to the greatest
without one. -/
theorem number_exact {n : Int} (hlow : -9223372036854775808 ≤ n) (hhigh : n ≤ 18446744073709551615)
    (hrest : Ends rest) : number (integerOctets n ++ rest) = .ok (.ofInt n, rest) := by
  have hlimit : maxSignificand = 18446744073709551615 := rfl
  cases n with
  | ofNat m =>
    rw [Int.ofNat_eq_natCast] at hhigh
    rw [number_ofNat, magnitude_fits (by omega) hrest]
    rfl
  | negSucc m =>
    rw [number_negSucc, magnitude_fits (by omega) hrest, integer, if_neg (by decide),
      if_pos ⟨Nat.succ_pos m, by omega⟩]
    rfl

end Lexeme

open Lexeme (Ends)

/-! ## Items and members -/

section Loops

variable {σ : Type} {step : σ → Bytes → Except Fault (σ × Bytes)} {s s' : σ}

/-- The characters behind an item. -/
def afterItem : List Json → List Char
  | [] => [']']
  | x :: xs => ',' :: itemChars (x :: xs)

/-- The characters behind a member. -/
def afterMember : List (String × Json) → List Char
  | [] => ['}']
  | m :: ms => ',' :: memberChars (m :: ms)

theorem itemChars_cons (x : Json) (xs : List Json) : itemChars (x :: xs) = chars x ++ afterItem xs := by
  cases xs <;> rw [itemChars, afterItem]

theorem memberChars_cons (name : String) (x : Json) (ms : List (String × Json)) :
    memberChars ((name, x) :: ms) = quoted name ++ ':' :: chars x ++ afterMember ms := by
  cases ms <;> rw [memberChars, afterMember]

/-- The octets of a member from behind the opening quote of its name. -/
def memberOctets (name : String) (x : Json) : Bytes :=
  octets (name.toList.flatMap escaped) ++ quote :: colon :: x.bytes

theorem octets_items (xs : List Json) : octets (itemChars xs) = enclosed closeBracket (xs.map Json.bytes) := by
  have hafter : ∀ xs : List Json, octets (afterItem xs) = follow closeBracket (xs.map Json.bytes) := by
    intro xs
    induction xs with
    | nil => rfl
    | cons x xs ih =>
      rw [afterItem, octets_cons, itemChars_cons, octets_append, ih, List.map_cons, follow, bytes_eq]
      rfl
  cases xs with
  | nil => rfl
  | cons x xs => rw [itemChars_cons, octets_append, hafter, List.map_cons, enclosed, bytes_eq]

/-- The octets of a member. -/
def memberPart (m : String × Json) : Bytes :=
  quote :: memberOctets m.1 m.2

theorem octets_member (name : String) (x : Json) (ms : List (String × Json)) :
    octets (memberChars ((name, x) :: ms)) = memberPart (name, x) ++ octets (afterMember ms) := by
  have hquoted : octets (quoted name) = quote :: (octets (name.toList.flatMap escaped) ++ [quote]) := by
    rw [quoted, octets_append, octets_cons]
    rfl
  have hcolon : octets (':' :: chars x) = colon :: x.bytes := by
    rw [octets_cons, bytes_eq]
    rfl
  rw [memberChars_cons, octets_append, octets_append, hquoted, hcolon, memberPart, memberOctets]
  simp only [List.cons_append, List.append_assoc, List.nil_append]

theorem octets_members (ms : List (String × Json)) :
    octets (memberChars ms) = enclosed closeBrace (ms.map memberPart) := by
  have hafter : ∀ ms : List (String × Json), octets (afterMember ms) = follow closeBrace (ms.map memberPart) := by
    intro ms
    induction ms with
    | nil => rfl
    | cons m ms ih =>
      rw [afterMember, octets_cons, octets_member, ih, List.map_cons, follow]
      rfl
  cases ms with
  | nil => rfl
  | cons m ms => rw [octets_member, hafter, List.map_cons, enclosed]

/-- Whether a reader of items takes items one after another, as they are written. -/
inductive TakesItems (step : σ → Bytes → Except Fault (σ × Bytes)) : σ → List Json → σ → Prop where
  | nil (s : σ) : TakesItems step s [] s
  | cons {s s₁ s' x xs} (h : ∀ back, Ends back → step s (x.bytes ++ back) = .ok (s₁, back))
      (hmore : TakesItems step s₁ xs s') : TakesItems step s (x :: xs) s'

/-- Whether a reader of members takes members one after another, as they are written. -/
inductive TakesMembers (step : σ → Bytes → Except Fault (σ × Bytes)) :
    σ → List (String × Json) → σ → Prop where
  | nil (s : σ) : TakesMembers step s [] s
  | cons {s s₁ s' name x ms} (h : ∀ back, Ends back → step s (memberOctets name x ++ back) = .ok (s₁, back))
      (hmore : TakesMembers step s₁ ms s') : TakesMembers step s ((name, x) :: ms) s'

theorem TakesItems.parts {xs : List Json} (h : TakesItems step s xs s') :
    TakesParts step s (xs.map Json.bytes) s' := by
  induction h with
  | nil s => exact .nil s
  | cons h _ ih => exact .cons blank_nil h ih

theorem TakesMembers.entries {ms : List (String × Json)} (h : TakesMembers step s ms s') :
    TakesEntries step s (ms.map memberPart) s' := by
  induction h with
  | nil s => exact .nil s
  | cons h _ ih => exact .cons (fun _ => rfl) blank_nil h ih

/-- **Items in brackets are taken**, one after another. -/
theorem array_written {xs : List Json} (h : TakesItems step s xs s')
    (hopen : ∀ x ∈ xs, Starts x.bytes) (back : Bytes) :
    Reader.array step s (octets (itemChars xs) ++ back) = .ok (s', back) := by
  have hskip : ∀ part ∈ xs.map Json.bytes, Starts part := by
    intro part hpart
    obtain ⟨x, hx, rfl⟩ := List.mem_map.1 hpart
    exact hopen x hx
  rw [octets_items]
  refine array_taken blank_nil h.parts (fun part hpart s back => ?_) (fun part hpart back => ?_) back
  · rw [((hskip part hpart).skipSpace back).1]
  · rw [((hskip part hpart).skipSpace back).1]
    exact ((hskip part hpart).skipSpace back).2

/-- **Members in braces are taken**, one after another. -/
theorem object_written {ms : List (String × Json)} (h : TakesMembers step s ms s') (back : Bytes) :
    Reader.object step s (octets (memberChars ms) ++ back) = .ok (s', back) := by
  rw [octets_members]
  exact object_taken blank_nil h.entries back

end Loops

/-! ## Documents -/

/-- Whether a reader takes what is written for a document as a value. -/
def Takes {α : Type} (r : Bytes → Except Fault (α × Bytes)) (j : Json) (x : α) : Prop :=
  ∀ back, Ends back → r (j.bytes ++ back) = .ok (x, back)

/-- Whether a document is nested no deeper than the number says, with no numbers but integers of 64
bits. -/
inductive Fits : Nat → Json → Prop where
  | null (depth : Nat) : Fits depth .null
  | bool (depth : Nat) (b : Bool) : Fits depth (.bool b)
  | integer {depth : Nat} {n : Int} (hlow : -9223372036854775808 ≤ n) (hhigh : n ≤ 18446744073709551615) :
      Fits depth (.ofInt n)
  | string (depth : Nat) (s : String) : Fits depth (.string s)
  | array {depth : Nat} {xs : List Json} (h : ∀ x ∈ xs, Fits depth x) : Fits (depth + 1) (.array xs)
  | object {depth : Nat} {ms : List (String × Json)} (h : ∀ m ∈ ms, Fits depth m.2) :
      Fits (depth + 1) (.object ms)

theorem bytes_string (s : String) :
    (Json.string s).bytes = quote :: (octets (s.toList.flatMap escaped) ++ [quote]) := by
  rw [bytes_eq, chars, quoted, octets_append, octets_cons]
  rfl

theorem bytes_integer (n : Int) : (Json.ofInt n).bytes = integerOctets n := by
  rw [ofInt, bytes, text, chars]
  rfl

theorem bytes_array (xs : List Json) : (Json.array xs).bytes = openBracket :: octets (itemChars xs) := by
  rw [bytes_eq, chars, octets_cons]
  rfl

theorem bytes_object (ms : List (String × Json)) :
    (Json.object ms).bytes = openBrace :: octets (memberChars ms) := by
  rw [bytes_eq, chars, octets_cons]
  rfl

/-- What is written starts with no white space and with no closing bracket. -/
theorem Fits.open {depth : Nat} {j : Json} (h : Fits depth j) : Starts j.bytes := by
  cases h with
  | null => exact ⟨_, _, rfl, by decide, by decide⟩
  | bool _ b => cases b <;> exact ⟨_, _, rfl, by decide, by decide⟩
  | integer =>
    obtain ⟨b, tail, hb, hstart⟩ := Lexeme.integerOctets_head _
    rw [bytes_integer, hb]
    refine ⟨b, tail, rfl, (start_of_number hstart).2.2.2, ?_⟩
    rintro rfl
    exact absurd hstart (by decide)
  | string => exact ⟨_, _, bytes_string _, by decide, by decide⟩
  | array => exact ⟨_, _, bytes_array _, by decide, by decide⟩
  | object => exact ⟨_, _, bytes_object _, by decide, by decide⟩

/-- **A member of a document is taken** where its value is. -/
theorem entry_written {depth : Nat} {name : String} {x : Json} (h : Takes (Reader.json depth) x x)
    (ms : List (String × Json)) {back : Bytes} (hback : Ends back) :
    Reader.entry Reader.keeping depth ms (memberOctets name x ++ back) = .ok ((name, x) :: ms, back) := by
  rw [memberOctets, List.append_assoc]
  exact Reader.entry_ok.2 ⟨name, colon :: (x.bytes ++ back), x.bytes ++ back, x,
    Lexeme.string_quoted name _, rfl, h back hback, rfl⟩

theorem takes_items {depth : Nat} {xs : List Json} (h : ∀ x ∈ xs, Takes (Reader.json depth) x x) :
    ∀ ys, TakesItems (Reader.item Reader.keeping depth) ys xs (xs.reverse ++ ys) := by
  induction xs with
  | nil => exact .nil
  | cons x xs ih =>
    intro ys
    rw [List.reverse_cons, List.append_assoc]
    refine .cons (fun back hback => ?_) (ih (fun y hy => h y (List.mem_cons_of_mem x hy)) (x :: ys))
    have hx : Reader.value Reader.keeping depth (x.bytes ++ back) = .ok (x, back) :=
      h x List.mem_cons_self back hback
    rw [Reader.item, hx]
    rfl

theorem takes_members {depth : Nat} {ms : List (String × Json)}
    (h : ∀ m ∈ ms, Takes (Reader.json depth) m.2 m.2) :
    ∀ ns, TakesMembers (Reader.entry Reader.keeping depth) ns ms (ms.reverse ++ ns) := by
  induction ms with
  | nil => exact .nil
  | cons m ms ih =>
    intro ns
    rw [List.reverse_cons, List.append_assoc]
    exact .cons (fun back hback => entry_written (h m List.mem_cons_self) ns hback)
      (ih (fun m' hm' => h m' (List.mem_cons_of_mem m hm')) (m :: ns))

/-- **A document is read back as it was written.** -/
theorem json_written {depth : Nat} {j : Json} (h : Fits depth j) : Takes (Reader.json depth) j j := by
  induction h with
  | null => exact fun back _ => (Reader.Reads.null (r := Reader.keeping) rfl rfl).value
  | bool _ b =>
    intro back _
    cases b
    · exact (Reader.Reads.no (r := Reader.keeping) rfl rfl).value
    · exact (Reader.Reads.yes (r := Reader.keeping) rfl rfl).value
  | @integer depth n hlow hhigh =>
    intro back hback
    obtain ⟨b, tail, hb, hstart⟩ := Lexeme.integerOctets_head n
    have hread := Lexeme.number_exact hlow hhigh hback
    rw [bytes_integer]
    rw [hb, List.cons_append] at hread ⊢
    refine (Reader.Reads.number (List.dropWhile_cons_of_neg (start_of_number hstart).2.2.2) hstart ?_).value
    show (Lexeme.number (b :: (tail ++ back))).map _ = _
    rw [hread]
    rfl
  | string _ s =>
    intro back hback
    rw [bytes_string, List.cons_append, List.append_assoc]
    exact (Reader.Reads.text (r := Reader.keeping) rfl (Lexeme.string_quoted s back)).value
  | @array depth xs h ih =>
    intro back _
    have harray := array_written (takes_items ih []) (fun x hx => (h x hx).open) back
    rw [List.append_nil] at harray
    rw [bytes_array, List.cons_append]
    have hskip : skipSpace (openBracket :: (octets (itemChars xs) ++ back)) =
        openBracket :: (octets (itemChars xs) ++ back) := rfl
    have hread := (Reader.Reads.array (r := Reader.keeping) hskip harray).value
    rwa [List.reverse_reverse] at hread
  | @object depth ms h ih =>
    intro back _
    have hobject := object_written (takes_members ih []) back
    rw [List.append_nil] at hobject
    rw [bytes_object, List.cons_append]
    have hskip : skipSpace (openBrace :: (octets (memberChars ms) ++ back)) =
        openBrace :: (octets (memberChars ms) ++ back) := rfl
    have hread := json_object hskip hobject
    rwa [List.reverse_reverse] at hread

/-- What is read of all octets of a document is what is taken of it. -/
theorem Takes.read {α : Type} {r : Reader α} {j : Json} {x : α} (h : Takes (r maxNesting) j x) :
    Json.read r j.bytes = .ok x := by
  have hread := h [] Lexeme.ends_nil
  rw [List.append_nil] at hread
  exact read_ok.2 ⟨[], hread, rfl⟩

/-! ## Records -/

section Records

variable {ρ α : Type} {depth : Nat} {x : Json}

/-- Whether fields take the members that are written for them, one after another. -/
inductive TakesFields (depth : Nat) : List (Field ρ) → ρ → List (String × Json) → ρ → Prop where
  | nil (s : ρ) : TakesFields depth [] s [] s
  | cons {f : Field ρ} {fs : List (Field ρ)} {s s₁ s' : ρ} {x : Json} {ms : List (String × Json)}
      (h : Takes (f.read s depth) x s₁) (hmore : TakesFields depth fs s₁ ms s') :
      TakesFields depth (f :: fs) s ((f.name, x) :: ms) s'

theorem Takes.field {reader : Reader α} {a : α} (h : Takes (reader depth) x a) (name : String)
    (set : ρ → α → ρ) (s : ρ) : Takes ((Field.of name reader set).read s depth) x (set s a) := by
  intro back hback
  show (reader depth (x.bytes ++ back)).map _ = _
  rw [h back hback]
  rfl

theorem find_field {fields : List (Field ρ)} (hnames : (fields.map Field.name).Nodup) {f : Field ρ}
    (hf : f ∈ fields) : fields.find? (·.name = f.name) = some f := by
  induction fields with
  | nil => cases hf
  | cons g fields ih =>
    rw [List.map_cons, List.nodup_cons] at hnames
    rcases List.mem_cons.1 hf with rfl | hf
    · exact List.find?_cons_of_pos (decide_eq_true rfl)
    · have hother : g.name ≠ f.name := fun heq => hnames.1 (heq ▸ List.mem_map_of_mem hf)
      rw [List.find?_cons_of_neg (by simpa using hother)]
      exact ih hnames.2 hf

/-- The members of fields that are left, when none of them was seen before. -/
theorem TakesFields.members {fields fs : List (Field ρ)} (hnames : (fields.map Field.name).Nodup)
    {s s' : ρ} {ms : List (String × Json)} (h : TakesFields depth fs s ms s') :
    ∀ seen, fs ⊆ fields → (fs.map Field.name).Nodup → (∀ f ∈ fs, f.name ∉ seen) →
      ∃ seen', TakesMembers (member fields depth) (s, seen) ms (s', seen') := by
  induction h with
  | nil s => exact fun seen _ _ _ => ⟨seen, .nil _⟩
  | @cons f fs s s₁ s' x ms h hmore ih =>
    intro seen hfs hleft hseen
    rw [List.map_cons, List.nodup_cons] at hleft
    obtain ⟨seen', hms⟩ := ih (f.name :: seen) (List.cons_subset.1 hfs).2 hleft.2 (by
      intro g hg hmem
      rcases List.mem_cons.1 hmem with heq | hmem
      · exact hleft.1 (heq ▸ List.mem_map_of_mem hg)
      · exact hseen g (List.mem_cons_of_mem f hg) hmem)
    refine ⟨seen', .cons (fun back hback => ?_) hms⟩
    have hnew : ¬ seen.contains f.name = true :=
      fun hmem => hseen f List.mem_cons_self (List.contains_iff_mem.1 hmem)
    rw [memberOctets, List.append_assoc]
    exact member_ok.2 ⟨f.name, colon :: (x.bytes ++ back), x.bytes ++ back,
      Lexeme.string_quoted f.name _, rfl,
      .inl ⟨f, s₁, find_field hnames (List.cons_subset.1 hfs).1, hnew, h back hback, rfl⟩⟩

/-- **A record whose fields are written in their order is read back.** -/
theorem record_written {fields : List (Field ρ)} (hnames : (fields.map Field.name).Nodup) {start s : ρ}
    {ms : List (String × Json)} (h : TakesFields depth fields start ms s) :
    Takes (record fields start (depth + 1)) (.object ms) s := by
  intro back _
  obtain ⟨seen, hms⟩ := h.members hnames [] (List.Subset.refl fields) hnames fun _ _ => List.not_mem_nil
  rw [bytes_object, List.cons_append]
  exact record_ok.2 (.inr ⟨depth, _, seen, rfl, rfl, object_written hms back⟩)

theorem text_written (s : String) : Takes (Reader.text depth) (.string s) s := by
  intro back _
  rw [bytes_string, List.cons_append, List.append_assoc]
  exact Lexeme.string_quoted s back

theorem bool_written (b : Bool) : Takes (Reader.bool depth) (.bool b) b := by
  intro back _
  cases b <;> rfl

/-- An integer between two bounds of 64 bits is read. -/
theorem int_written {low high n : Int} (hlow : low ≤ n) (hhigh : n ≤ high)
    (hleast : -9223372036854775808 ≤ low) (hgreatest : high ≤ 18446744073709551615) :
    Takes (Reader.int low high depth) (.ofInt n) n := by
  intro back hback
  obtain ⟨b, tail, hb, hstart⟩ := Lexeme.integerOctets_head n
  have hread := Lexeme.number_exact (Int.le_trans hleast hlow) (Int.le_trans hhigh hgreatest) hback
  rw [bytes_integer]
  rw [hb, List.cons_append] at hread ⊢
  have hspace : skipSpace (b :: (tail ++ back)) = b :: (tail ++ back) :=
    List.dropWhile_cons_of_neg (start_of_number hstart).2.2.2
  rw [Reader.int, starting, hspace]
  dsimp only
  rw [if_pos hstart, hread]
  cases n with
  | ofNat m => exact if_pos hhigh
  | negSucc m => exact if_pos hlow

theorem int32_written {n : Int} (hlow : Text.int32Min ≤ n) (hhigh : n ≤ Text.int32Max) :
    Takes (Reader.int32 depth) (.ofInt n) n :=
  int_written hlow hhigh (by decide) (by decide)

theorem nat_written {n high : Nat} (h : n ≤ high) (hgreatest : high ≤ 18446744073709551615) :
    Takes (Reader.nat high depth) (.ofInt n) n := by
  intro back hback
  have hread : Takes (Reader.int 0 high depth) (.ofInt n) n :=
    int_written (by omega) (by omega) (by decide) (by omega)
  rw [Reader.nat, hread back hback]
  rfl

end Records

end Json
end Turnstile

import Turnstile.Proofs.Json.Following

/-!
# Strings, kept and passed over

* `Escape`, `Spells`: the grammar of strings that are kept; `Passes`: of those passed over.
* `content_ok`, `skipString_ok`: the readers read those.
* `Spells.mend`, `Passes.mend`: both are read alike when their octets are mended, and the content
  of one that is kept is mended with them.
* `string_follows`, `skipString_follows`: so strings may be mended before they are read.
-/

namespace Turnstile.Json.Lexeme

open Octet Utf8

/-- The escapes, from behind the backslash, and the characters they stand for. -/
inductive Escape : Bytes → Char → Prop where
  | short {e c : UInt8} (h : shortEscape? e = some c) : Escape [e] (Char.ofNat c.toNat)
  | unit {a b c d : UInt8} {n : Nat} (hn : hex4? a b c d = some n) (hlow : ¬ isLowSurrogate n = true)
      (hhigh : ¬ isHighSurrogate n = true) : Escape [0x75, a, b, c, d] (Char.ofNat n)
  | pair {a b c d e f g h : UInt8} {n m : Nat} (hn : hex4? a b c d = some n)
      (hnot : ¬ isLowSurrogate n = true) (hhigh : isHighSurrogate n = true)
      (hm : hex4? e f g h = some m) (hlow : isLowSurrogate m = true) :
      Escape [0x75, a, b, c, d, backslash, 0x75, e, f, g, h]
        (Char.ofNat ((n - 0xD800) * 0x400 + (m - 0xDC00) + 0x10000))

/-- The strings, from behind the opening quote: their content, and what follows the closing one. -/
inductive Spells : Bytes → Bytes → Bytes → Prop where
  | close (rest : Bytes) : Spells (quote :: rest) [] rest
  | octet {b : UInt8} {bs octets rest : Bytes} (hquote : b ≠ quote) (hbackslash : b ≠ backslash)
      (hb : ¬ b < 0x20) (h : Spells bs octets rest) : Spells (b :: bs) (b :: octets) rest
  | escape {e : Bytes} {c : Char} {bs octets rest : Bytes} (he : Escape e c)
      (h : Spells bs octets rest) :
      Spells (backslash :: (e ++ bs)) (String.utf8EncodeChar c ++ octets) rest

/-- The strings that can be passed over, from behind the opening quote. -/
inductive Passes : Bytes → Bytes → Prop where
  | close (rest : Bytes) : Passes (quote :: rest) rest
  | octet {b : UInt8} {bs rest : Bytes} (hquote : b ≠ quote) (hbackslash : b ≠ backslash)
      (hb : ¬ b < 0x20) (h : Passes bs rest) : Passes (b :: bs) rest
  | short {e : UInt8} {bs rest : Bytes} (he : (shortEscape? e).isSome = true) (h : Passes bs rest) :
      Passes (backslash :: e :: bs) rest
  | unit {a b c d : UInt8} {bs rest : Bytes} (hn : (hex4? a b c d).isSome = true)
      (h : Passes bs rest) : Passes (backslash :: 0x75 :: a :: b :: c :: d :: bs) rest

variable {bs octets rest : Bytes}

/-! ## Escapes -/

theorem ascii_of_shortEscape {e c : UInt8} (h : shortEscape? e = some c) :
    e.toNat < 0x80 ∧ c.toNat < 0x80 := by
  have hall := octet_forall
    (p := fun e => (shortEscape? e).all fun c => e.toNat < 0x80 && c.toNat < 0x80)
    (by decide +kernel) e
  simpa [h] using hall

theorem ascii_of_hex4 {a b c d : UInt8} (h : (hex4? a b c d).isSome = true) :
    a.toNat < 0x80 ∧ b.toNat < 0x80 ∧ c.toNat < 0x80 ∧ d.toNat < 0x80 := by
  obtain ⟨n, hn⟩ := Option.isSome_iff_exists.1 h
  simp only [hex4?, Option.bind_eq_bind, Option.bind_eq_some_iff] at hn
  obtain ⟨_, ha, _, hb, _, hc, _, hd, -⟩ := hn
  exact ⟨ascii_of_hexValue (ha ▸ rfl), ascii_of_hexValue (hb ▸ rfl), ascii_of_hexValue (hc ▸ rfl),
    ascii_of_hexValue (hd ▸ rfl)⟩

theorem Escape.ascii {e : Bytes} {c : Char} (h : Escape e c) : ∀ b ∈ e, b.toNat < 0x80 := by
  have hu : (0x75 : UInt8).toNat < 0x80 := by decide
  have hbackslash : backslash.toNat < 0x80 := by decide
  cases h with
  | short h =>
    intro b hb
    rw [List.mem_singleton.1 hb]
    exact (ascii_of_shortEscape h).1
  | unit hn =>
    have hdigits := ascii_of_hex4 (Option.isSome_of_eq_some hn)
    simpa [hu] using hdigits
  | pair hn _ _ hm =>
    have hdigits := ascii_of_hex4 (Option.isSome_of_eq_some hn)
    have hmore := ascii_of_hex4 (Option.isSome_of_eq_some hm)
    simp [hbackslash, hdigits, hmore]

theorem encode_short {c : UInt8} (h : c.toNat < 0x80) :
    String.utf8EncodeChar (Char.ofNat c.toNat) = [c] := by
  have hchar : (Char.ofNat c.toNat).toNat = c.toNat := by
    rw [Char.ofNat, dif_pos (Or.inl (by omega))]
    rfl
  rw [Utf8.encodeChar_ascii (by omega), hchar, UInt8.ofNat_toNat]

/-! ## The readers -/

theorem push_ok {front octets rest : Bytes} {r : Except Fault (Bytes × Bytes)}
    (h : push front r = .ok (octets, rest)) : ∃ tail, r = .ok (tail, rest) ∧ octets = front ++ tail := by
  cases r with
  | error fault => cases h
  | ok read =>
    cases h
    exact ⟨read.1, rfl, rfl⟩

theorem spells_of_content (h : content bs = .ok (octets, rest)) : Spells bs octets rest := by
  fun_induction content bs generalizing octets with
  | case2 bs =>
    cases h
    exact .close _
  | case4 e bs c he _ ih =>
    obtain ⟨tail, htail, rfl⟩ := push_ok h
    have hescape := Spells.escape (.short he) (ih htail)
    rwa [encode_short (ascii_of_shortEscape he).2] at hescape
  | case11 a b c d n hn hnot hhigh x y hxy e f g k bs m hm hlow _ _ ih =>
    obtain ⟨tail, htail, hoctets⟩ := push_ok h
    rw [hoctets, hxy.1, hxy.2]
    exact .escape (.pair hn hnot hhigh hm hlow) (ih htail)
  | case15 a b c d bs n hn hlow hhigh _ _ ih =>
    obtain ⟨tail, htail, rfl⟩ := push_ok h
    exact .escape (.unit hn hlow hhigh) (ih htail)
  | case19 b bs hquote hbackslash hb ih =>
    obtain ⟨tail, htail, rfl⟩ := push_ok h
    exact .octet hquote hbackslash hb (ih htail)
  | _ => cases h

theorem Spells.content (h : Spells bs octets rest) : Lexeme.content bs = .ok (octets, rest) := by
  have hopen : ¬ backslash = quote := by decide
  have hnone : shortEscape? 0x75 = none := by decide
  induction h with
  | close rest =>
    rw [content.eq_def]
    exact if_pos rfl
  | octet hquote hbackslash hb _ ih =>
    rw [content.eq_def]
    dsimp only
    rw [if_neg hquote, if_neg hbackslash, if_neg hb, ih]
    rfl
  | escape he _ ih =>
    rw [content.eq_def]
    dsimp only
    rw [if_neg hopen, if_pos rfl]
    cases he with
    | short he =>
      rw [encode_short (ascii_of_shortEscape he).2, List.singleton_append]
      dsimp only
      rw [he, ih]
      rfl
    | unit hn hlow hhigh =>
      simp only [List.cons_append, List.nil_append]
      rw [hnone]
      dsimp only
      rw [if_pos trivial, hn]
      dsimp only
      rw [if_neg hlow, if_neg hhigh, ih]
      rfl
    | pair hn hnot hhigh hm hlow =>
      simp only [List.cons_append, List.nil_append]
      rw [hnone]
      dsimp only
      rw [if_pos trivial, hn]
      dsimp only
      rw [if_neg hnot, if_pos hhigh, if_pos ⟨trivial, trivial⟩, hm]
      dsimp only
      rw [if_pos hlow, ih]
      rfl

theorem content_ok : content bs = .ok (octets, rest) ↔ Spells bs octets rest :=
  ⟨spells_of_content, Spells.content⟩

theorem skipString_ok : skipString bs = .ok ((), rest) ↔ Passes bs rest := by
  constructor
  · intro h
    fun_induction skipString bs with
    | case2 bs =>
      cases h
      exact .close _
    | case4 e bs he _ ih => exact .short he (ih h)
    | case5 a b c d bs hn _ _ ih => exact .unit hn (ih h)
    | case10 b bs hquote hbackslash hb ih => exact .octet hquote hbackslash hb (ih h)
    | _ => cases h
  · intro h
    have hopen : ¬ backslash = quote := by decide
    have hnone : ¬ (shortEscape? 0x75).isSome = true := by decide
    induction h with
    | close rest =>
      rw [skipString.eq_def]
      exact if_pos rfl
    | octet hquote hbackslash hb _ ih =>
      rw [skipString.eq_def]
      dsimp only
      rw [if_neg hquote, if_neg hbackslash, if_neg hb, ih]
    | short he _ ih =>
      rw [skipString.eq_def]
      dsimp only
      rw [if_neg hopen, if_pos rfl, if_pos he, ih]
    | unit hn _ ih =>
      rw [skipString.eq_def]
      dsimp only
      rw [if_neg hopen, if_pos rfl, if_neg hnone, if_pos rfl, if_pos hn, ih]

/-- A string that is kept can be passed over. -/
theorem Spells.passes (h : Spells bs octets rest) : Passes bs rest := by
  induction h with
  | close rest => exact .close rest
  | octet hquote hbackslash hb _ ih => exact .octet hquote hbackslash hb ih
  | escape he _ ih =>
    cases he with
    | short he => exact .short (Option.isSome_of_eq_some he) ih
    | unit hn => exact .unit (Option.isSome_of_eq_some hn) ih
    | pair hn _ _ hm =>
      exact .unit (Option.isSome_of_eq_some hn) (.unit (Option.isSome_of_eq_some hm) ih)

theorem Passes.length (h : Passes bs rest) : rest.length < bs.length := by
  induction h with
  | close rest => exact Nat.lt_succ_self _
  | octet _ _ _ _ ih => exact Nat.lt_succ_of_lt ih
  | short _ _ ih =>
    simp only [List.length_cons]
    omega
  | unit _ _ ih =>
    simp only [List.length_cons]
    omega

/-! ## Mended octets -/

/-- Octets that are no quote, no backslash and no control stand for themselves. -/
theorem Spells.append_plain {front : Bytes}
    (hfront : ∀ b ∈ front, b ≠ quote ∧ b ≠ backslash ∧ ¬ b < 0x20) (h : Spells bs octets rest) :
    Spells (front ++ bs) (front ++ octets) rest := by
  induction front with
  | nil => exact h
  | cons b front ih =>
    obtain ⟨hquote, hbackslash, hb⟩ := hfront b List.mem_cons_self
    exact .octet hquote hbackslash hb (ih fun x hx => hfront x (List.mem_cons_of_mem _ hx))

/-- A string is spelled alike whatever follows it. -/
theorem Spells.append (h : Spells bs octets rest) (back : Bytes) :
    Spells (bs ++ back) octets (rest ++ back) := by
  induction h with
  | close rest => exact .close _
  | octet hquote hbackslash hb _ ih => exact .octet hquote hbackslash hb ih
  | escape he _ ih =>
    rw [List.cons_append, List.append_assoc]
    exact .escape he ih

theorem Spells.append_high {front : Bytes} (hfront : ∀ b ∈ front, 0x80 ≤ b.toNat)
    (h : Spells bs octets rest) : Spells (front ++ bs) (front ++ octets) rest :=
  h.append_plain fun b hb => plain_of_high (hfront b hb)

theorem Passes.append_high {front : Bytes} (hfront : ∀ b ∈ front, 0x80 ≤ b.toNat) (h : Passes bs rest) :
    Passes (front ++ bs) rest := by
  induction front with
  | nil => exact h
  | cons b front ih =>
    obtain ⟨hquote, hbackslash, hb⟩ := plain_of_high (hfront b List.mem_cons_self)
    exact .octet hquote hbackslash hb (ih fun x hx => hfront x (List.mem_cons_of_mem _ hx))

theorem mend_append_ascii {front : Bytes} (hfront : ∀ b ∈ front, b.toNat < 0x80) (bs : Bytes) :
    mend (front ++ bs) = front ++ mend bs := by
  induction front with
  | nil => rfl
  | cons b front ih =>
    rw [List.cons_append, mend_ascii (hfront b List.mem_cons_self),
      ih fun x hx => hfront x (List.mem_cons_of_mem _ hx)]
    rfl

/-- **A string is kept alike when its octets are mended**, and its content is mended with them;
something may be pending where it starts. -/
theorem Spells.mend (h : Spells bs octets rest) {p : Option Pending} (hp : Ready p) :
    Spells (mendFrom p bs) (mendFrom p octets) (Utf8.mend rest) := by
  induction h generalizing p with
  | close rest =>
    rw [mendFrom_ascii hp (by decide), mendFrom_nil, ← List.append_nil (broken p), List.append_assoc]
    exact .append_high (fun b => mem_broken) (.close _)
  | @octet b bs octets rest hquote hbackslash hb _ ih =>
    by_cases hascii : b.toNat < 0x80
    · rw [mendFrom_ascii hp hascii, mendFrom_ascii hp hascii]
      exact .append_high (fun b => mem_broken)
        (.octet hquote hbackslash hb (ih ready_none))
    · obtain ⟨out, q, hturn⟩ := mendFrom_high hp (Nat.not_lt.1 hascii)
      rw [hturn.next, hturn.next]
      exact .append_high hturn.high (ih hturn.ready)
  | @escape e c bs octets rest he _ ih =>
    rw [mendFrom_ascii hp (by decide), mend_append_ascii he.ascii, mendFrom_encode hp, List.append_assoc]
    exact .append_high (fun b => mem_broken) (.escape he (ih ready_none))

/-- A string is passed over alike when its octets are mended. -/
theorem Passes.mend (h : Passes bs rest) {p : Option Pending} (hp : Ready p) :
    Passes (mendFrom p bs) (Utf8.mend rest) := by
  induction h generalizing p with
  | close rest =>
    rw [mendFrom_ascii hp (by decide)]
    exact .append_high (fun b => mem_broken) (.close _)
  | @octet b bs rest hquote hbackslash hb _ ih =>
    by_cases hascii : b.toNat < 0x80
    · rw [mendFrom_ascii hp hascii]
      exact .append_high (fun b => mem_broken) (.octet hquote hbackslash hb (ih ready_none))
    · obtain ⟨out, q, hturn⟩ := mendFrom_high hp (Nat.not_lt.1 hascii)
      rw [hturn.next]
      exact .append_high hturn.high (ih hturn.ready)
  | @short e bs rest he _ ih =>
    obtain ⟨c, hc⟩ := Option.isSome_iff_exists.1 he
    rw [mendFrom_ascii hp (by decide), mend_ascii (ascii_of_shortEscape hc).1]
    exact .append_high (fun b => mem_broken) (.short he (ih ready_none))
  | @unit a b c d bs rest hn _ ih =>
    obtain ⟨ha, hb, hc, hd⟩ := ascii_of_hex4 hn
    rw [mendFrom_ascii hp (by decide), mend_ascii (by decide), mend_ascii ha, mend_ascii hb,
      mend_ascii hc, mend_ascii hd]
    exact .append_high (fun b => mem_broken) (.unit hn (ih ready_none))

/-! ## Following -/

theorem string_ok {s : String} : string bs = .ok (s, rest) ↔
    ∃ octets, Spells bs octets rest ∧ decode? octets = some s := by
  rw [string]
  constructor
  · intro h
    cases hcontent : content bs with
    | error fault => rw [hcontent] at h; cases h
    | ok read =>
      rw [hcontent] at h
      dsimp only at h
      cases hdecode : decode? read.1 with
      | none => rw [hdecode] at h; cases h
      | some t =>
        rw [hdecode] at h
        cases h
        exact ⟨read.1, content_ok.1 hcontent, hdecode⟩
  · rintro ⟨octets, hspells, hdecode⟩
    rw [content_ok.2 hspells]
    dsimp only
    rw [hdecode]

/-- The octets of a text in quotes are read as the text, if it needs no escapes. -/
theorem string_plain {s : String} (h : ∀ b ∈ encode s, b ≠ quote ∧ b ≠ backslash ∧ ¬ b < 0x20)
    (rest : Bytes) : string (encode s ++ quote :: rest) = .ok (s, rest) := by
  have hspells := (Spells.close rest).append_plain h
  rw [List.append_nil] at hspells
  exact string_ok.2 ⟨encode s, hspells, decode?_encode s⟩

/-- **Strings may be mended before they are read.** -/
theorem string_follows_mend : Follows Utf8.mend Eq string string := by
  intro bs s rest h
  obtain ⟨octets, hspells, hdecode⟩ := string_ok.1 h
  have hmended := hspells.mend ready_none
  -- what spells a text is nothing to mend, and its octets spell it again
  have hagain : decode? (mendFrom none octets) = some s := by
    rw [← mend.eq_def, ← encode_decodeLossy, decodeLossy_of_decode? hdecode, decode?_encode]
  exact ⟨s, string_ok.2 ⟨_, hmended, hagain⟩, rfl, hmended.passes.length⟩

theorem skipString_follows_mend : Follows Utf8.mend (fun _ _ => True) skipString skipString := by
  intro bs _ rest h
  have hmended := (skipString_ok.1 h).mend ready_none
  exact ⟨(), skipString_ok.2 hmended, trivial, hmended.length⟩

theorem skipString_follows_id : Follows id (fun _ _ => True) skipString skipString :=
  fun _ _ _ h => ⟨(), h, trivial, (skipString_ok.1 h).length⟩

/-- A string that is kept can be passed over. -/
theorem skipString_follows_string : Follows id (fun _ _ => True) string skipString := by
  intro bs s rest h
  obtain ⟨octets, hspells, -⟩ := string_ok.1 h
  exact ⟨(), skipString_ok.2 hspells.passes, trivial, hspells.passes.length⟩

end Turnstile.Json.Lexeme

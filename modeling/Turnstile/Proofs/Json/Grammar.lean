import Mathlib.Data.List.Forall2
import Turnstile.Proofs.Json.Following

/-!
# Two readings of one document

* `Reads`: the documents that the grammar reads, by their first octet.
* `Reading.Follows`: one way to make something of strings, numbers and parts follows another.
* `value_follows`: **so does the grammar**, within as much nesting or within as much as the octets
  bound.
-/

namespace Turnstile.Json

open Octet

variable {α β κ κ' : Type} {φ : Bytes → Bytes}

namespace Reader

/-- One item of an array, put in front of those before it. -/
def item (r : Reading κ α) (depth : Nat) (xs : List α) (bs : Bytes) : Except Fault (List α × Bytes) :=
  (value r depth bs).map fun (x, rest) => (x :: xs, rest)

/-- One entry of an object, from behind the opening quote of its name. -/
def entry (r : Reading κ α) (depth : Nat) (xs : List (κ × α)) (bs : Bytes) :
    Except Fault (List (κ × α) × Bytes) :=
  match r.string bs with
  | .error fault => .error fault
  | .ok (name, bs) =>
    match colon bs with
    | .error fault => .error fault
    | .ok bs => (value r depth bs).map fun (x, rest) => ((name, x) :: xs, rest)

/-- The documents that the grammar reads, by their first octet. -/
inductive Reads (r : Reading κ α) : Nat → Bytes → α → Bytes → Prop where
  | null {depth bs tail rest} (hskip : skipSpace bs = 0x6E :: tail)
      (hword : Lexeme.word [0x75, 0x6C, 0x6C] tail = .ok rest) : Reads r depth bs r.null rest
  | yes {depth bs tail rest} (hskip : skipSpace bs = 0x74 :: tail)
      (hword : Lexeme.word [0x72, 0x75, 0x65] tail = .ok rest) : Reads r depth bs (r.bool true) rest
  | no {depth bs tail rest} (hskip : skipSpace bs = 0x66 :: tail)
      (hword : Lexeme.word [0x61, 0x6C, 0x73, 0x65] tail = .ok rest) :
      Reads r depth bs (r.bool false) rest
  | number {depth bs b tail x rest} (hskip : skipSpace bs = b :: tail)
      (hb : (decide (b = minus) || isDigit b) = true) (hnumber : r.number (b :: tail) = .ok (x, rest)) :
      Reads r depth bs x rest
  | text {depth bs tail s rest} (hskip : skipSpace bs = quote :: tail)
      (hstring : r.string tail = .ok (s, rest)) : Reads r depth bs (r.text s) rest
  | array {depth bs tail xs rest} (hskip : skipSpace bs = openBracket :: tail)
      (harray : Reader.array (item r depth) [] tail = .ok (xs, rest)) :
      Reads r (depth + 1) bs (r.array xs.reverse) rest
  | object {depth bs tail xs rest} (hskip : skipSpace bs = openBrace :: tail)
      (hobject : Reader.object (entry r depth) [] tail = .ok (xs, rest)) :
      Reads r (depth + 1) bs (r.object xs.reverse) rest

theorem map_ok {e : Except Fault (α × Bytes)} {f : α × Bytes → β × Bytes} {x : β × Bytes}
    (h : e.map f = .ok x) : ∃ a rest, e = .ok (a, rest) ∧ f (a, rest) = x := by
  cases e with
  | error fault => cases h
  | ok a =>
    cases h
    exact ⟨a.1, a.2, rfl, rfl⟩

theorem entry_ok {r : Reading κ α} {depth : Nat} {xs ys : List (κ × α)} {bs rest : Bytes} :
    entry r depth xs bs = .ok (ys, rest) ↔ ∃ name bs₁ bs₂ x, r.string bs = .ok (name, bs₁) ∧
      colon bs₁ = .ok bs₂ ∧ value r depth bs₂ = .ok (x, rest) ∧ ys = (name, x) :: xs := by
  constructor
  · intro h
    rw [entry] at h
    cases hname : r.string bs with
    | error fault => rw [hname] at h; cases h
    | ok named =>
      rw [hname] at h
      dsimp only at h
      cases hcolon : colon named.2 with
      | error fault => rw [hcolon] at h; cases h
      | ok after =>
        rw [hcolon] at h
        obtain ⟨x, _, hx, heq⟩ := map_ok h
        cases heq
        exact ⟨named.1, named.2, after, x, rfl, hcolon, hx, rfl⟩
  · rintro ⟨name, bs₁, bs₂, x, hname, hcolon, hx, rfl⟩
    rw [entry, hname]
    dsimp only
    rw [hcolon]
    dsimp only
    rw [hx]
    rfl

theorem reads_of_value {r : Reading κ α} {depth : Nat} {bs rest : Bytes} {x : α}
    (h : value r depth bs = .ok (x, rest)) : Reads r depth bs x rest := by
  rw [value] at h
  cases hskip : skipSpace bs with
  | nil => rw [hskip] at h; cases h
  | cons b tail =>
    rw [hskip] at h
    dsimp only at h
    have hword : ∀ {word : Bytes} {y : α},
        (Lexeme.word word tail).map (y, ·) = .ok (x, rest) → y = x ∧ Lexeme.word word tail = .ok rest := by
      intro word y hmap
      cases hw : Lexeme.word word tail with
      | error fault => rw [hw] at hmap; cases hmap
      | ok after => rw [hw] at hmap; cases hmap; exact ⟨rfl, rfl⟩
    by_cases hnull : b = 0x6E
    · subst hnull
      obtain ⟨rfl, hw⟩ := hword h
      exact .null hskip hw
    rw [if_neg hnull] at h
    by_cases htrue : b = 0x74
    · subst htrue
      obtain ⟨rfl, hw⟩ := hword h
      exact .yes hskip hw
    rw [if_neg htrue] at h
    by_cases hfalse : b = 0x66
    · subst hfalse
      obtain ⟨rfl, hw⟩ := hword h
      exact .no hskip hw
    rw [if_neg hfalse] at h
    by_cases hnumber : (decide (b = minus) || isDigit b) = true
    · rw [if_pos hnumber] at h
      exact .number hskip hnumber h
    rw [if_neg hnumber] at h
    by_cases hquote : b = quote
    · subst hquote
      obtain ⟨s, after, hs, heq⟩ := map_ok h
      cases heq
      exact .text hskip hs
    rw [if_neg hquote] at h
    by_cases hbracket : b = openBracket
    · subst hbracket
      cases depth with
      | zero => cases h
      | succ depth =>
        obtain ⟨xs, after, hxs, heq⟩ := map_ok h
        cases heq
        exact .array hskip hxs
    rw [if_neg hbracket] at h
    by_cases hbrace : b = openBrace
    · subst hbrace
      cases depth with
      | zero => cases h
      | succ depth =>
        obtain ⟨xs, after, hxs, heq⟩ := map_ok h
        cases heq
        exact .object hskip hxs
    rw [if_neg hbrace] at h
    cases h

theorem Reads.value {r : Reading κ α} {depth : Nat} {bs rest : Bytes} {x : α}
    (h : Reads r depth bs x rest) : Reader.value r depth bs = .ok (x, rest) := by
  cases h with
  | null hskip hword => rw [Reader.value, hskip]; dsimp only; rw [if_pos rfl, hword]; rfl
  | yes hskip hword => rw [Reader.value, hskip]; dsimp only; rw [if_neg (by decide), if_pos rfl, hword]; rfl
  | no hskip hword =>
    rw [Reader.value, hskip]
    dsimp only
    rw [if_neg (by decide), if_neg (by decide), if_pos rfl, hword]
    rfl
  | number hskip hb hnumber =>
    obtain ⟨hnull, htrue, hfalse, -⟩ := start_of_number hb
    rw [Reader.value, hskip]
    dsimp only
    rw [if_neg hnull, if_neg htrue, if_neg hfalse, if_pos hb, hnumber]
  | text hskip hstring =>
    rw [Reader.value, hskip]
    dsimp only
    rw [if_neg (by decide), if_neg (by decide), if_neg (by decide), if_neg (by decide), if_pos rfl,
      hstring]
    rfl
  | array hskip harray =>
    rw [Reader.value, hskip]
    dsimp only
    rw [if_neg (by decide), if_neg (by decide), if_neg (by decide), if_neg (by decide),
      if_neg (by decide), if_pos rfl]
    exact congrArg (Except.map _) harray
  | object hskip hobject =>
    rw [Reader.value, hskip]
    dsimp only
    rw [if_neg (by decide), if_neg (by decide), if_neg (by decide), if_neg (by decide),
      if_neg (by decide), if_neg (by decide), if_pos rfl]
    exact congrArg (Except.map _) hobject

/-- Whether one way to make something of a document follows another. -/
structure Reading.Follows (φ : Bytes → Bytes) (K : κ → κ' → Prop) (A : α → β → Prop)
    (r : Reading κ α) (r' : Reading κ' β) : Prop where
  string : Json.Follows φ K r.string r'.string
  number : Json.Follows φ A r.number r'.number
  null : A r.null r'.null
  bool : ∀ b, A (r.bool b) (r'.bool b)
  text : ∀ s s', K s s' → A (r.text s) (r'.text s')
  array : ∀ xs ys, List.Forall₂ A xs ys → A (r.array xs) (r'.array ys)
  object : ∀ xs ys, List.Forall₂ (fun x y => K x.1 y.1 ∧ A x.2 y.2) xs ys → A (r.object xs) (r'.object ys)

theorem word_follows (hφ : Faithful φ) {word : Bytes} (hword : ∀ b ∈ word, b.toNat < 0x80)
    {bs rest : Bytes} (h : Lexeme.word word bs = .ok rest) :
    Lexeme.word word (φ bs) = .ok (φ rest) ∧ (φ rest).length ≤ (φ bs).length := by
  induction word generalizing bs with
  | nil =>
    cases h
    exact ⟨rfl, Nat.le_refl _⟩
  | cons e es ih =>
    cases bs with
    | nil => cases h
    | cons b bs =>
      rw [Lexeme.word] at h
      by_cases hb : b = e
      · subst hb
        rw [if_pos rfl] at h
        obtain ⟨hrest, hle⟩ := ih (fun x hx => hword x (List.mem_cons_of_mem _ hx)) h
        rw [hφ.ascii b bs (hword b List.mem_cons_self), Lexeme.word, if_pos rfl, List.length_cons]
        exact ⟨hrest, by omega⟩
      · rw [if_neg hb] at h
        cases h

/-- A word is behind its first octet, before and after the change. -/
theorem word_behind (hφ : Faithful φ) {word : Bytes} (hword : ∀ b ∈ word, b.toNat < 0x80) {b : UInt8}
    {bs tail rest : Bytes} (hskip : skipSpace bs = b :: tail) (hb : b.toNat < 0x80)
    (h : Lexeme.word word tail = .ok rest) :
    skipSpace (φ bs) = b :: φ tail ∧ Lexeme.word word (φ tail) = .ok (φ rest) ∧
      (φ rest).length < (φ bs).length := by
  have hskip' := hφ.skipSpace_ascii hskip hb
  obtain ⟨hword', hle⟩ := word_follows hφ hword h
  exact ⟨hskip', hword', Nat.lt_of_le_of_lt hle (length_of_skipSpace hskip')⟩

theorem colon_follows (hφ : Faithful φ) {bs rest : Bytes} (h : colon bs = .ok rest) :
    colon (φ bs) = .ok (φ rest) ∧ (φ rest).length < (φ bs).length := by
  rw [colon] at h
  cases hskip : skipSpace bs with
  | nil => rw [hskip] at h; cases h
  | cons b tail =>
    rw [hskip] at h
    dsimp only at h
    by_cases hb : b = Octet.colon
    · subst hb
      rw [if_pos rfl] at h
      cases h
      have hskip' := hφ.skipSpace_ascii hskip (by decide)
      refine ⟨?_, length_of_skipSpace hskip'⟩
      rw [colon, hskip']
      exact if_pos rfl
    · rw [if_neg hb] at h
      cases h

section Parts

variable {K : κ → κ' → Prop} {A : α → β → Prop} {r : Reading κ α} {r' : Reading κ' β} {depth depth' : Nat}
  {bound : Nat}

/-- Whether the documents of one reading follow those of the other, on octets of a bounded length. -/
def ValueFollows (φ : Bytes → Bytes) (bound : Nat) (A : α → β → Prop) (r : Reading κ α)
    (r' : Reading κ' β) (depth depth' : Nat) : Prop :=
  ∀ bs x rest, (φ bs).length ≤ bound → value r depth bs = .ok (x, rest) →
    ∃ y, value r' depth' (φ bs) = .ok (y, φ rest) ∧ A x y ∧ (φ rest).length < (φ bs).length

theorem item_follows (h : ValueFollows φ bound A r r' depth depth') :
    StepFollows φ bound (List.Forall₂ A) (item r depth) (item r' depth') := by
  intro s t bs s' rest hbound hst hstep
  obtain ⟨x, _, hx, heq⟩ := map_ok hstep
  cases heq
  obtain ⟨y, hy, hA, hlt⟩ := h bs x rest hbound hx
  exact ⟨y :: t, by rw [item, hy]; rfl, .cons hA hst, hlt⟩

theorem entry_follows (hφ : Faithful φ) (hstring : Json.Follows φ K r.string r'.string)
    (h : ValueFollows φ bound A r r' depth depth') :
    StepFollows φ bound (List.Forall₂ fun x y => K x.1 y.1 ∧ A x.2 y.2) (entry r depth)
      (entry r' depth') := by
  intro s t bs s' rest hbound hst hstep
  obtain ⟨name, bs₁, bs₂, x, hname, hcolon, hx, rfl⟩ := entry_ok.1 hstep
  obtain ⟨name', hname', hK, hlt₁⟩ := hstring _ _ _ hname
  obtain ⟨hcolon', hlt₂⟩ := colon_follows hφ hcolon
  obtain ⟨y, hy, hA, hlt⟩ := h bs₂ x rest (by omega) hx
  exact ⟨(name', y) :: t, entry_ok.2 ⟨name', φ bs₁, φ bs₂, y, hname', hcolon', hy, rfl⟩,
    .cons ⟨hK, hA⟩ hst, by omega⟩

end Parts

/-- **The grammar follows** if its strings and numbers do, within as much nesting or within as much
as the octets bound. -/
theorem value_follows (hφ : Faithful φ) {K : κ → κ' → Prop} {A : α → β → Prop} {r : Reading κ α}
    {r' : Reading κ' β} (h : r.Follows φ K A r') :
    ∀ depth depth' bs x rest, depth ≤ depth' ∨ (φ bs).length ≤ depth' →
      value r depth bs = .ok (x, rest) →
      ∃ y, value r' depth' (φ bs) = .ok (y, φ rest) ∧ A x y ∧ (φ rest).length < (φ bs).length := by
  intro depth
  induction depth using Nat.strong_induction_on with
  | _ depth ih =>
  intro depth' bs x rest hdepth hvalue
  cases reads_of_value hvalue with
  | null hskip hword =>
    obtain ⟨hskip', hword', hlt⟩ := word_behind hφ (by simp) hskip (by decide) hword
    exact ⟨_, (Reads.null hskip' hword').value, h.null, hlt⟩
  | yes hskip hword =>
    obtain ⟨hskip', hword', hlt⟩ := word_behind hφ (by simp) hskip (by decide) hword
    exact ⟨_, (Reads.yes hskip' hword').value, h.bool true, hlt⟩
  | no hskip hword =>
    obtain ⟨hskip', hword', hlt⟩ := word_behind hφ (by simp) hskip (by decide) hword
    exact ⟨_, (Reads.no hskip' hword').value, h.bool false, hlt⟩
  | @number _ _ b tail _ _ hskip hb hnumber =>
    have hascii : b.toNat < 0x80 := by
      rcases Bool.or_eq_true _ _ ▸ hb with hminus | hdigit
      · rw [of_decide_eq_true hminus]
        decide
      · exact ascii_of_isDigit hdigit
    have hskip' := hφ.skipSpace_ascii hskip hascii
    obtain ⟨y, hnumber', hA, hlt⟩ := h.number _ _ _ hnumber
    rw [hφ.ascii b tail hascii] at hnumber' hlt
    have hle := length_skipSpace (φ bs)
    rw [hskip'] at hle
    exact ⟨y, (Reads.number hskip' hb hnumber').value, hA, by omega⟩
  | text hskip hstring =>
    have hskip' := hφ.skipSpace_ascii hskip (by decide)
    obtain ⟨s', hstring', hK, hlt⟩ := h.string _ _ _ hstring
    have hbehind := length_of_skipSpace hskip'
    exact ⟨_, (Reads.text hskip' hstring').value, h.text _ _ hK, by omega⟩
  | @array depth _ tail xs _ hskip harray =>
    have hskip' := hφ.skipSpace_ascii hskip (by decide)
    have hbehind := length_of_skipSpace hskip'
    obtain ⟨depth', rfl⟩ : ∃ k, depth' = k + 1 := ⟨depth' - 1, by omega⟩
    have hinner : ValueFollows φ (φ tail).length A r r' depth depth' :=
      fun bs₀ x₀ rest₀ hbound => ih depth (by omega) depth' bs₀ x₀ rest₀ (by omega)
    obtain ⟨ys, hys, hall, hlt⟩ := array_follows hφ (item_follows hinner) (Nat.le_refl _) .nil harray
    exact ⟨_, (Reads.array hskip' hys).value, h.array _ _ (List.rel_reverse hall), by omega⟩
  | @object depth _ tail xs _ hskip hobject =>
    have hskip' := hφ.skipSpace_ascii hskip (by decide)
    have hbehind := length_of_skipSpace hskip'
    obtain ⟨depth', rfl⟩ : ∃ k, depth' = k + 1 := ⟨depth' - 1, by omega⟩
    have hinner : ValueFollows φ (φ tail).length A r r' depth depth' :=
      fun bs₀ x₀ rest₀ hbound => ih depth (by omega) depth' bs₀ x₀ rest₀ (by omega)
    obtain ⟨ys, hys, hall, hlt⟩ :=
      object_follows hφ (entry_follows hφ h.string hinner) (Nat.le_refl _) .nil hobject
    exact ⟨_, (Reads.object hskip' hys).value, h.object _ _ (List.rel_reverse hall), by omega⟩

end Reader

end Turnstile.Json

import Turnstile.Proofs.Environment.Told

/-!
# Files of quoted assignments

A well-kept file puts every value in quotes. Blank lines and comments may stand between its
assignments, the word `export` in front of a name, and blanks around all of that.

* `Line`: the lines of such a file.
* `assignment?_quoted`: an assignment sets its name to all that stands between the outer quotes.
* `passed?_line`: a line passes on what it sets.
* `variables_told_exactly`: **no file tells the build of anything but variables, and a well-kept one
  tells of exactly those it sets**, in order and as they are written.
-/

namespace Turnstile.Environment

/-- Blanks that do not end a line. -/
abbrev Blanks := { cs : List Char // ∀ c ∈ cs, Text.isBlank c = true ∧ c ≠ '\n' }

/-- A text that does not end a line. -/
abbrev OneLine := { s : String // '\n' ∉ s.toList }

/-- A name that is passed on. -/
abbrev PassedOn := { name : String // name ∈ passedOn }

/-- A line of a well-kept file. In front of a name the word `export` may stand, with a space and any
blanks behind it. -/
inductive Line where
  | blank (blanks : Blanks)
  | comment (before : Blanks) (text : OneLine)
  | quoted (before : Blanks) (exported : Option Blanks) (name : PassedOn) (value : OneLine) (after : Blanks)

/-- The word `export` as it stands in front of a name. -/
def exportWord : Option Blanks → List Char
  | none => []
  | some behind => "export ".toList ++ behind.val

/-- What is left of that word without its letters and the first space. -/
def exportBlanks : Option Blanks → List Char
  | none => []
  | some behind => behind.val

/-- A value in quotes behind its name. -/
def quotedSetting (name : PassedOn) (value : OneLine) : List Char :=
  name.val.toList ++ '=' :: '"' :: value.val.toList ++ ['"']

/-- The characters of a line. -/
def Line.chars : Line → List Char
  | .blank blanks => blanks.val
  | .comment before text => before.val ++ '#' :: text.val.toList
  | .quoted before exported name value after =>
    before.val ++ (exportWord exported ++ quotedSetting name value) ++ after.val

/-- The variable that a line sets. -/
def Line.sets? : Line → Option Variable
  | .quoted _ _ name value _ => some (name.val, value.val)
  | _ => none

/-- The text of a file with these lines. -/
def fileText (ls : List Line) : String :=
  "\n".intercalate (ls.map fun line => String.ofList line.chars)

/-! ## Parts of a line -/

theorem Blanks.isBlank (blanks : Blanks) : ∀ c ∈ blanks.val, Text.isBlank c = true :=
  fun c hc => (blanks.property c hc).1

theorem exportBlanks_isBlank (exported : Option Blanks) :
    ∀ c ∈ exportBlanks exported, Text.isBlank c = true := by
  cases exported with
  | none => nofun
  | some behind => exact Blanks.isBlank behind

/-- A setting starts with the first character of its name. -/
theorem quotedSetting_head (name : PassedOn) (value : OneLine) :
    ∃ c cs, quotedSetting name value = c :: cs ∧ c ∈ name.val.toList := by
  obtain ⟨hne, -⟩ := passedOn_plain name.val name.property
  obtain ⟨c, cs, hname⟩ := List.exists_cons_of_ne_nil hne
  refine ⟨c, cs ++ '=' :: '"' :: value.val.toList ++ ['"'], ?_, ?_⟩
  · rw [quotedSetting, hname]
    rfl
  · rw [hname]
    exact List.mem_cons_self

theorem dropExport_word (exported : Option Blanks) (name : PassedOn) (value : OneLine) :
    dropExport (exportWord exported ++ quotedSetting name value) =
      exportBlanks exported ++ quotedSetting name value := by
  cases exported with
  | none =>
    obtain ⟨c, cs, hsetting, hc⟩ := quotedSetting_head name value
    have hne : c ≠ 'e' := by
      rintro rfl
      exact mark_not_mem name.property (by decide) hc
    show dropExport (quotedSetting name value) = quotedSetting name value
    rw [hsetting, dropExport, if_neg]
    intro hstarts
    have hfirst := (List.cons_prefix_cons.1 (List.isPrefixOf_iff_prefix.1 hstarts)).1
    exact hne hfirst.symm
  | some behind =>
    have hstarts : "export ".toList.isPrefixOf
        ("export ".toList ++ behind.val ++ quotedSetting name value) = true := by
      rw [List.isPrefixOf_iff_prefix, List.append_assoc]
      exact List.prefix_append _ _
    exact if_pos hstarts

/-- The value of a quoted assignment is all that stands between its outer quotes. -/
theorem unquote_quoted (value : List Char) : unquote ('"' :: value ++ ['"']) = value := by
  have hlength : 2 ≤ ('"' :: value ++ ['"']).length := by simp
  have hlast : ('"' :: value ++ ['"']).getLast? = some '"' := List.getLast?_concat
  rw [unquote, if_pos ⟨rfl, hlast, hlength⟩]
  exact List.dropLast_concat

/-- The name and the value of a setting are parted at its first equals sign. -/
theorem part_quoted (exported : Option Blanks) (name : PassedOn) (value : OneLine) :
    (exportBlanks exported ++ quotedSetting name value).takeWhile (· ≠ '=') =
        exportBlanks exported ++ name.val.toList ∧
      (exportBlanks exported ++ quotedSetting name value).dropWhile (· ≠ '=') =
        '=' :: '"' :: value.val.toList ++ ['"'] := by
  have hparts : exportBlanks exported ++ quotedSetting name value =
      (exportBlanks exported ++ name.val.toList) ++ '=' :: '"' :: value.val.toList ++ ['"'] := by
    simp only [quotedSetting, List.append_assoc]
  have hfront : ∀ c ∈ exportBlanks exported ++ name.val.toList, decide (c ≠ '=') = true := by
    intro c hc
    rw [decide_eq_true_eq]
    rintro rfl
    rcases List.mem_append.1 hc with hc | hc
    · exact absurd (exportBlanks_isBlank exported _ hc) (by decide)
    · exact mark_not_mem name.property (by decide) hc
  rw [hparts, List.append_assoc, List.takeWhile_append_of_pos hfront, List.dropWhile_append_of_pos hfront]
  exact ⟨List.append_nil _, rfl⟩

/-- A setting starts with a character that is neither blank nor the sign of a comment. -/
theorem setting_start (exported : Option Blanks) (name : PassedOn) (value : OneLine) :
    ∃ c cs, exportWord exported ++ quotedSetting name value = c :: cs ∧ ¬ Text.isBlank c = true ∧ c ≠ '#' := by
  cases exported with
  | none =>
    obtain ⟨c, cs, hsetting, hc⟩ := quotedSetting_head name value
    refine ⟨c, cs, hsetting, ((passedOn_plain name.val name.property).2 c hc).1, ?_⟩
    rintro rfl
    exact mark_not_mem name.property (by decide) hc
  | some behind => exact ⟨'e', _, rfl, by decide, by decide⟩

theorem quote_not_blank : ¬ Text.isBlank '"' = true := by decide

/-- What is around a setting is dropped. -/
theorem trim_quoted (before : Blanks) (exported : Option Blanks) (name : PassedOn) (value : OneLine)
    (after : Blanks) : Text.trim Text.isBlank (Line.quoted before exported name value after).chars =
      exportWord exported ++ quotedSetting name value := by
  refine Text.trim_around before.isBlank after.isBlank ?_ ?_
  · obtain ⟨c, cs, hstart, hblank, -⟩ := setting_start exported name value
    rw [hstart]
    rintro d ⟨⟩
    exact hblank
  · rw [quotedSetting, ← List.append_assoc, List.getLast?_concat]
    rintro d ⟨⟩
    exact quote_not_blank

theorem trim_name (exported : Option Blanks) (name : PassedOn) :
    Text.trim Text.isBlank (exportBlanks exported ++ name.val.toList) = name.val.toList := by
  have hplain : ∀ c ∈ name.val.toList, ¬ Text.isBlank c = true := fun c hc =>
    ((passedOn_plain name.val name.property).2 c hc).1
  have haround : Text.trim Text.isBlank (exportBlanks exported ++ name.val.toList ++ []) = name.val.toList :=
    Text.trim_around (exportBlanks_isBlank exported) nofun
      (fun c hc => hplain c (List.mem_of_mem_head? hc)) fun c hc => hplain c (List.mem_of_mem_getLast? hc)
  rwa [List.append_nil] at haround

/-- Blanks inside the quotes stay. -/
theorem trim_value (value : List Char) :
    Text.trim Text.isBlank ('"' :: value ++ ['"']) = '"' :: value ++ ['"'] := by
  refine Text.trim_eq_self ?_ ?_
  · rintro c ⟨⟩
    exact quote_not_blank
  · rw [List.getLast?_concat]
    rintro c ⟨⟩
    exact quote_not_blank

/-! ## What a line sets -/

/-- **A quoted assignment sets its name to the value as it is written**, whatever that contains. -/
theorem assignment?_quoted (before : Blanks) (exported : Option Blanks) (name : PassedOn)
    (value : OneLine) (after : Blanks) :
    assignment? (Line.quoted before exported name value after).chars =
      some (name.val.toList, value.val.toList) := by
  have hset : ¬ ((exportWord exported ++ quotedSetting name value).isEmpty = true ∨
      (exportWord exported ++ quotedSetting name value).head? = some '#') := by
    obtain ⟨c, cs, hstart, -, hcomment⟩ := setting_start exported name value
    rw [hstart]
    rintro (hempty | hsharp)
    · cases hempty
    · exact hcomment (Option.some.inj hsharp)
  obtain ⟨hbefore, hbehind⟩ := part_quoted exported name value
  have hquotes : ('=' :: '"' :: value.val.toList ++ ['"']).drop 1 = '"' :: value.val.toList ++ ['"'] := rfl
  have hequals : ¬ ('=' :: '"' :: value.val.toList ++ ['"']).isEmpty = true := nofun
  simp only [assignment?, trim_quoted, if_neg hset, dropExport_word, hbefore, hbehind, if_neg hequals,
    hquotes, trim_name, trim_value, unquote_quoted]

theorem assignment?_blank (blanks : Blanks) : assignment? (Line.blank blanks).chars = none := by
  have hline : Text.trim Text.isBlank blanks.val = [] := by
    have haround := Text.trim_append blanks.isBlank []
    rwa [List.nil_append] at haround
  simp only [assignment?, Line.chars, hline]
  exact if_pos (.inl rfl)

theorem assignment?_comment (before : Blanks) (text : OneLine) :
    assignment? (Line.comment before text).chars = none := by
  have hsharp : ¬ Text.isBlank '#' = true := by decide
  have hfirst := Text.head?_trim before.isBlank hsharp text.val.toList
  simp only [assignment?, Line.chars]
  exact if_pos (.inr hfirst)

/-- **A line passes on what it sets.** -/
theorem passed?_line (l : Line) : passed? l.chars = l.sets? := by
  cases l with
  | blank blanks => rw [passed?, assignment?_blank]; rfl
  | comment before text => rw [passed?, assignment?_comment]; rfl
  | quoted before exported name value after =>
    have hname : passedOn.contains name.val = true := List.contains_iff_mem.2 name.property
    rw [passed?, assignment?_quoted, Option.map_some, String.ofList_toList, String.ofList_toList]
    exact if_pos hname

/-- Quotes, signs and blanks inside the outer quotes belong to the value. -/
example : passed? "\t export  WIFI_PASS=\" \"a\"=b #\" \r".toList = some ("WIFI_PASS", " \"a\"=b #") := by
  decide +kernel

/-- No line of a file can end itself early. -/
theorem newline_not_mem_chars (l : Line) : '\n' ∉ l.chars := by
  have hblanks : ∀ blanks : Blanks, '\n' ∉ blanks.val := fun blanks hmem => (blanks.property _ hmem).2 rfl
  cases l with
  | blank blanks => exact hblanks blanks
  | comment before text =>
    simp only [Line.chars, List.mem_append, List.mem_cons, not_or]
    exact ⟨hblanks before, by decide, text.property⟩
  | quoted before exported name value after =>
    have hword : '\n' ∉ exportWord exported := by
      cases exported with
      | none => exact List.not_mem_nil
      | some behind =>
        intro hmem
        rcases List.mem_append.1 hmem with hmem | hmem
        · exact absurd hmem (by decide)
        · exact hblanks behind hmem
    have hname : '\n' ∉ name.val.toList := mark_not_mem name.property (by decide)
    simp only [Line.chars, quotedSetting, List.mem_append, List.mem_cons, List.not_mem_nil, or_false, not_or]
    exact ⟨⟨hblanks before, hword, ⟨hname, by decide, by decide, value.property⟩, by decide⟩, hblanks after⟩

/-- The lines of a file are found again. -/
theorem lines_fileText {ls : List Line} (hne : ls ≠ []) :
    Text.lines (fileText ls) = ls.map fun line => String.ofList line.chars := by
  refine Text.lines_intercalate ?_ (by simpa using hne)
  intro line hline
  obtain ⟨l, -, rfl⟩ := List.mem_map.1 hline
  rw [String.toList_ofList]
  exact newline_not_mem_chars l

/-! ## Main result -/

/-- **Nothing but variables is told, and those of a well-kept file exactly.** Whatever text a file holds,
its output is the line about the file, and a line for each of some variables that are passed on. If
the file is well kept, these are the ones that its lines set, in order, each with the value that stands
between its outer quotes. -/
theorem variables_told_exactly :
    (∀ text : String, ∃ vs : List Variable, (∀ v ∈ vs, v.1 ∈ passedOn) ∧
      Tells (output (some (Utf8.encode text))) vs) ∧
    ∀ ls : List Line, Tells (output (some (Utf8.encode (fileText ls)))) (ls.filterMap Line.sets?) := by
  constructor
  · intro text
    refine ⟨_, ?_, output_tells text⟩
    intro v hv
    obtain ⟨line, -, hpassed⟩ := List.mem_filterMap.1 hv
    exact (passed?_some hpassed).1
  · intro ls
    have htells := output_tells (fileText ls)
    cases ls with
    | nil => exact htells
    | cons l ls =>
      have hsets : (fun line => passed? line.toList) ∘ (fun l => String.ofList (Line.chars l)) = Line.sets? := by
        funext l
        rw [Function.comp_apply, String.toList_ofList, passed?_line]
      rw [lines_fileText (List.cons_ne_nil l ls), List.filterMap_map, hsets] at htells
      exact htells

end Turnstile.Environment

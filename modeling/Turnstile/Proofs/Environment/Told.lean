import Turnstile.Environment
import Turnstile.Proofs.Text.Lines
import Turnstile.Proofs.Text.Trimming
import Turnstile.Proofs.Text.Utf8

/-!
# What an environment file can tell the build

The output is read line by line, so a file could tell the build of anything if it could end a line.

* `Tells`: the lines of an output are the one about the file and one for each variable, and no more.
* `passed?`: the variable that a line of the file tells of. Its value is part of that line.
* `output_tells`: **a file that is a text tells of what its lines pass on, and of nothing else.**
-/

namespace Turnstile.Environment

/-- A variable and its value. -/
abbrev Variable := String × String

/-- The line that tells the build of a variable. -/
def told (v : Variable) : String :=
  "cargo:rustc-env=" ++ v.1 ++ "=" ++ v.2

/-- Whether the lines of an output are the one about the file and one for each of the variables. The
line behind the last line feed is empty. -/
def Tells (output : String) (vs : List Variable) : Prop :=
  Text.lines output = ("cargo:rerun-if-changed=" ++ fileName) :: vs.map told ++ [""]

variable {line : List Char} {name : String} {v : Variable}

/-- The characters that mean something where a name is looked for: the equals sign, the sign of a
comment, the first letter of `export`, and the end of a line. -/
def marks : List Char :=
  ['=', '#', 'e', '\n']

/-- The names that are passed on have neither blanks nor marks. -/
theorem passedOn_plain : ∀ name ∈ passedOn, name.toList ≠ [] ∧
    ∀ c ∈ name.toList, ¬ Text.isBlank c = true ∧ c ∉ marks := by
  have hall : (passedOn.all fun name => !name.toList.isEmpty &&
      name.toList.all fun c => !Text.isBlank c && !marks.contains c) = true := by
    decide +kernel
  simpa using hall

theorem mark_not_mem {c : Char} (hname : name ∈ passedOn) (hc : c ∈ marks) : c ∉ name.toList :=
  fun hmem => ((passedOn_plain name hname).2 c hmem).2 hc

/-- The variable that a line tells the build of. -/
def passed? (line : List Char) : Option Variable :=
  ((assignment? line).map fun a => (String.ofList a.1, String.ofList a.2)).filter
    fun v => passedOn.contains v.1

theorem directive?_eq (line : List Char) : directive? line = (passed? line).map told := by
  unfold directive? passed?
  cases assignment? line with
  | none => rfl
  | some a =>
    rw [Option.map_some, Option.filter_some]
    dsimp only
    split <;> rfl

theorem dropExport_subset (line : List Char) : dropExport line ⊆ line := by
  unfold dropExport
  split
  · exact List.drop_subset 7 line
  · exact List.Subset.refl line

theorem unquote_subset (value : List Char) : unquote value ⊆ value := by
  unfold unquote
  split
  · exact fun _ hc => List.drop_subset 1 value (List.dropLast_subset _ hc)
  · exact List.Subset.refl value

/-- A value is part of its line. -/
theorem assignment?_subset {a : List Char × List Char} (h : assignment? line = some a) : a.2 ⊆ line := by
  simp only [assignment?] at h
  split at h
  · cases h
  split at h
  · cases h
  cases h
  intro c hc
  have hquoted := Text.trim_subset _ _ (unquote_subset _ hc)
  have hbehind := List.dropWhile_subset _ (List.drop_subset 1 _ hquoted)
  exact Text.trim_subset _ _ (dropExport_subset _ hbehind)

/-- What a line tells the build of is passed on, and its value is part of the line. -/
theorem passed?_some (h : passed? line = some v) : v.1 ∈ passedOn ∧ v.2.toList ⊆ line := by
  obtain ⟨hassigned, hpassed⟩ := Option.filter_eq_some_iff.1 h
  obtain ⟨a, ha, rfl⟩ := Option.map_eq_some_iff.1 hassigned
  refine ⟨List.contains_iff_mem.1 hpassed, ?_⟩
  rw [String.toList_ofList]
  exact assignment?_subset ha

theorem newline_not_mem_told (hname : v.1 ∈ passedOn) (hvalue : '\n' ∉ v.2.toList) :
    '\n' ∉ (told v).toList := by
  unfold told
  rw [String.toList_append, String.toList_append, String.toList_append, List.mem_append,
    List.mem_append, List.mem_append]
  rintro (((hmem | hmem) | hmem) | hmem)
  · exact absurd hmem (by decide)
  · exact mark_not_mem hname (by decide) hmem
  · exact absurd hmem (by decide)
  · exact hvalue hmem

/-- **A file that is a text tells of what its lines pass on**, each in a line of its own. -/
theorem output_tells (text : String) : Tells (output (some (Utf8.encode text)))
    ((Text.lines text).filterMap fun line => passed? line.toList) := by
  have hdirectives : directives (some (Utf8.encode text)) =
      ((Text.lines text).filterMap fun line => passed? line.toList).map told := by
    rw [directives, Option.bind_some, Utf8.decode?_encode, List.map_filterMap, Text.lines,
      List.filterMap_map]
    refine List.filterMap_congr fun line _ => ?_
    rw [Function.comp_apply, String.toList_ofList, directive?_eq]
  rw [Tells, output, hdirectives]
  refine Text.lines_ended ?_
  intro line hline
  rcases List.mem_cons.1 hline with rfl | hline
  · decide +kernel
  · obtain ⟨v, hv, rfl⟩ := List.mem_map.1 hline
    obtain ⟨source, hsource, hpassed⟩ := List.mem_filterMap.1 hv
    obtain ⟨hname, hvalue⟩ := passed?_some hpassed
    exact newline_not_mem_told hname fun hmem => Text.newline_not_mem_of_mem_lines hsource (hvalue hmem)

end Turnstile.Environment

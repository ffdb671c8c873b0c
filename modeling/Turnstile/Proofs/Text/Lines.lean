import Mathlib.Data.List.Basic

/-!
# The lines of a text

* `lines`: a text cut at every line feed.
* `newline_not_mem_of_mem_lines`: a line has no line feed.
* `lines_intercalate`: lines that are joined by line feeds are found again.
* `lines_ended`: **so are lines that each have a line feed behind them**, with the empty line behind
  the last.
-/

namespace Turnstile.Text

/-- The lines of a text, which is cut at every line feed. -/
def lines (text : String) : List String :=
  (text.toList.splitOn '\n').map String.ofList

variable {ls : List String} {line text : String}

theorem not_mem_of_mem_splitOn {x : Char} {cs piece : List Char} (h : piece ∈ cs.splitOn x) :
    x ∉ piece := by
  rw [List.splitOn_eq_splitOnP] at h
  induction cs generalizing piece with
  | nil =>
    rw [List.splitOnP_nil, List.mem_singleton] at h
    rw [h]
    exact List.not_mem_nil
  | cons c cs ih =>
    rw [List.splitOnP_cons_eq_if_modifyHead] at h
    obtain ⟨first, others, hrest⟩ := List.exists_cons_of_ne_nil (List.splitOnP_ne_nil (· == x) cs)
    rw [hrest] at h ih
    by_cases hc : (c == x) = true
    · rw [if_pos hc] at h
      rcases List.mem_cons.1 h with rfl | h
      · exact List.not_mem_nil
      · exact ih h
    · rw [if_neg hc, List.modifyHead_cons] at h
      rcases List.mem_cons.1 h with rfl | h
      · have hfirst := ih List.mem_cons_self
        have hne : x ≠ c := fun heq => hc (beq_iff_eq.2 heq.symm)
        exact fun hmem => (List.mem_cons.1 hmem).elim hne hfirst
      · exact ih (List.mem_cons_of_mem first h)

/-- A line has no line feed. -/
theorem newline_not_mem_of_mem_lines (h : line ∈ lines text) : '\n' ∉ line.toList := by
  obtain ⟨piece, hpiece, rfl⟩ := List.mem_map.1 h
  rw [String.toList_ofList]
  exact not_mem_of_mem_splitOn hpiece

/-- Lines that are joined by line feeds are the lines of what they make up. -/
theorem lines_intercalate (hls : ∀ line ∈ ls, '\n' ∉ line.toList) (hne : ls ≠ []) :
    lines ("\n".intercalate ls) = ls := by
  have hpieces : ∀ piece ∈ ls.map String.toList, '\n' ∉ piece := by
    simpa only [List.forall_mem_map] using hls
  have hnewline : "\n".toList = ['\n'] := rfl
  rw [lines, String.toList_intercalate, hnewline, List.splitOn_intercalate '\n' hpieces (by simpa using hne),
    List.map_map]
  simp

/-- A line feed behind every line is one between any two, if another line is put behind the last. -/
theorem join_ended (ls : List String) :
    String.join (ls.map (· ++ "\n")) = "\n".intercalate (ls ++ [""]) := by
  induction ls with
  | nil => rfl
  | cons line ls ih =>
    have hmore : ls ++ [""] ≠ [] := List.concat_ne_nil _ _
    rw [List.map_cons, String.join_cons, ih, List.cons_append, String.intercalate_cons_of_ne_nil hmore]

/-- **Lines that each have a line feed behind them** are the lines of what they make up, but for the empty
line behind the last. -/
theorem lines_ended (hls : ∀ line ∈ ls, '\n' ∉ line.toList) :
    lines (String.join (ls.map (· ++ "\n"))) = ls ++ [""] := by
  rw [join_ended]
  refine lines_intercalate ?_ (List.concat_ne_nil _ _)
  intro line hline
  rcases List.mem_append.1 hline with hline | hline
  · exact hls line hline
  · rw [List.mem_singleton.1 hline]
    exact List.not_mem_nil

end Turnstile.Text

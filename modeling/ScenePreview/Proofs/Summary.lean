import ScenePreview.Failure
import ScenePreview.Proofs.Lines

/-!
# Summaries of diagnostic text

The message of a failure shows one line of what a tool wrote.  The search for that line goes
through the lines from the end; whether there is anything to show is asked of the text as a
whole.  Here the two are shown to agree, for every text.

## Main results

* `lastLine?_eq` — the search in terms of the pieces between line feeds.
* `summary_of_isLastVisible`, `summary_of_blank` — what is shown, for either kind of text.
* `outputNote_eq_empty_iff` — nothing is added to a message exactly for a blank text.
* `summary_last_visible` — **the summary is the last line that is not blank, trimmed.**
-/

namespace ScenePreview

open Text

/-! ### The search for a line -/

theorem Text.trim_ofList (cs : List Char) :
    trim (String.ofList cs) = String.ofList (trimChars cs) := by
  rw [trim, String.toList_ofList]

theorem Text.ofList_eq_empty_iff (cs : List Char) : String.ofList cs = "" ↔ cs = [] := by
  rw [← String.toList_inj, String.toList_ofList]
  rfl

/-- The search among lines is one among the pieces between line feeds. -/
theorem lastLine?_eq (s : String) :
    lastLine? s =
      (((s.toList.splitOn '\n').reverse.map trimChars).find? (· ≠ [])).map String.ofList := by
  have htrim : (Text.lines s).reverse.map trim
      = ((linesFrom [] s.toList).reverse.map trimChars).map String.ofList := by
    rw [Text.lines, ← List.map_reverse, List.map_map, List.map_map]
    exact List.map_congr_left fun cs _ => trim_ofList cs
  rw [lastLine?, htrim, List.find?_map, ← find?_trimmed_lines]
  congr 2
  funext cs
  simp

theorem summary_of_isLastVisible {s : String} {line : List Char}
    (h : IsLastVisible (s.toList.splitOn '\n') line) :
    summary s = String.ofList (trimChars line) := by
  rw [summary, lastLine?_eq, h.find?_eq]
  rfl

theorem summary_of_blank {s : String} (h : ¬ HasVisible s.toList) : summary s = noDiagnostics := by
  have hnone : ((s.toList.splitOn '\n').reverse.map trimChars).find? (· ≠ []) = none := by
    rw [hasVisible_iff_exists_line, not_exists] at h
    simpa [trimChars_eq_nil_iff] using h
  rw [summary, lastLine?_eq, hnone]
  rfl

/-- A text that is not blank has a last line that is not. -/
theorem exists_isLastVisible_line {s : String} (h : HasVisible s.toList) :
    ∃ line, IsLastVisible (s.toList.splitOn '\n') line :=
  exists_isLastVisible ((hasVisible_iff_exists_line s.toList).1 h)

/-- A summary has no line feed, whatever the text is. -/
theorem newline_notMem_summary (s : String) : '\n' ∉ (summary s).toList := by
  by_cases hs : HasVisible s.toList
  · obtain ⟨line, hlast⟩ := exists_isLastVisible_line hs
    obtain ⟨before, after, hlines, -⟩ := id hlast
    have hmem : line ∈ s.toList.splitOn '\n' := by
      rw [hlines]
      simp
    have hline : '\n' ∉ line := notMem_of_mem_splitOn hmem
    obtain ⟨lead, trail, heq, -⟩ := exists_eq_append_trimChars line
    rw [summary_of_isLastVisible hlast, String.toList_ofList]
    intro hmem
    apply hline
    rw [heq]
    simp [hmem]
  · rw [summary_of_blank hs]
    decide

/-- A line that is added at the end of a text stands on its own, if the text before it has ended
its last line. -/
theorem exists_splitOn_append_line {before line : String}
    (hbefore : before = "" ∨ ∃ earlier, before = earlier ++ "\n") (hline : '\n' ∉ line.toList) :
    ∃ lines, (before ++ line ++ "\n").toList.splitOn '\n' = lines ++ [line.toList, []] := by
  have hnewline : "\n".toList = ['\n'] := rfl
  have hone : (line ++ "\n").toList.splitOn '\n' = [line.toList, []] := by
    rw [String.toList_append, hnewline, List.splitOn_append_cons_self_of_not_mem hline,
      List.splitOn_nil]
  rw [String.append_assoc]
  rcases hbefore with rfl | ⟨earlier, rfl⟩
  · exact ⟨[], by rw [String.empty_append, hone, List.nil_append]⟩
  · refine ⟨earlier.toList.splitOn '\n', ?_⟩
    rw [String.toList_append, String.toList_append, hnewline, List.append_assoc,
      List.singleton_append, List.splitOn_append_cons_self, hone]

/-- A line that is added at the end of a text is its summary, if it is trimmed and the text before
it has ended its last line. -/
theorem summary_append_line {before line : String}
    (hbefore : before = "" ∨ ∃ earlier, before = earlier ++ "\n") (hne : line ≠ "")
    (hline : '\n' ∉ line.toList) (htrim : IsTrimmed line.toList) :
    summary (before ++ line ++ "\n") = line := by
  obtain ⟨lines, hlines⟩ := exists_splitOn_append_line hbefore hline
  have hchars : trimChars line.toList = line.toList := htrim.trimChars_eq
  have hvisible : HasVisible line.toList := by
    by_contra hblank
    rw [← trimChars_eq_nil_iff, hchars, String.toList_eq_nil_iff] at hblank
    exact hne hblank
  have hlast : IsLastVisible ((before ++ line ++ "\n").toList.splitOn '\n') line.toList :=
    ⟨lines, [[]], hlines, hvisible, by simp⟩
  rw [summary_of_isLastVisible hlast, hchars, String.ofList_toList]

/-! ### What a message adds -/

/-- A message adds nothing exactly for a blank text. -/
theorem outputNote_eq_empty_iff (s : String) : outputNote s = "" ↔ ¬ HasVisible s.toList := by
  rw [← trim_eq_empty_iff, outputNote]
  by_cases hs : trim s = ""
  · rw [if_pos hs]
    exact iff_of_true rfl hs
  · rw [if_neg hs]
    refine iff_of_false (fun h => ?_) hs
    have hlist := congrArg String.toList h
    simp at hlist

theorem outputNote_of_hasVisible {s : String} (h : HasVisible s.toList) :
    outputNote s = " (render output: " ++ summary s ++ ")" := by
  rw [outputNote, if_neg]
  exact fun hs => (trim_eq_empty_iff s).1 hs h

/-- **The summary is the last line that is not blank, trimmed.**  If a text has a character that
is not blank, then so has one of its lines, and the summary is what is left of the last such
line without the blanks around it: a part of the text that is not empty, has no line feed and
neither starts nor ends with a blank.  A text of blanks alone has a summary that says so.  The
message on a missing video asks the text as a whole whether there is anything to add, and that
comes to the same: it shows the summary of every text that is not blank, and nothing for any
other. -/
theorem summary_last_visible (s : String) :
    (HasVisible s.toList → ∃ line, IsLastVisible (s.toList.splitOn '\n') line ∧
      summary s = trim (String.ofList line) ∧
      (∃ before after, line = before ++ (summary s).toList ++ after ∧
        ∀ c ∈ before ++ after, isBlank c = true) ∧
      summary s ≠ "" ∧ (summary s).toList <:+: s.toList ∧ '\n' ∉ (summary s).toList ∧
      IsTrimmed (summary s).toList) ∧
    (¬ HasVisible s.toList → summary s = "no diagnostics on stderr") ∧
    (outputNote s = "" ↔ ¬ HasVisible s.toList) ∧
    ∀ dir reason,
      let opening := "Rendering finished, but no video file was found in " ++ dir.display ++ ": "
        ++ reason
      (HasVisible s.toList → (Failure.artifactNotFound dir reason s).message =
        opening ++ (" (render output: " ++ summary s ++ ")")) ∧
      (¬ HasVisible s.toList → (Failure.artifactNotFound dir reason s).message = opening) := by
  refine ⟨fun hs => ?_, summary_of_blank, outputNote_eq_empty_iff s, fun dir reason => ?_⟩
  · obtain ⟨line, hlast⟩ := exists_isLastVisible_line hs
    obtain ⟨earlier, later, hlines, hvisible, -⟩ := id hlast
    have hsummary : summary s = String.ofList (trimChars line) := summary_of_isLastVisible hlast
    have hchars : (summary s).toList = trimChars line := by
      rw [hsummary, String.toList_ofList]
    obtain ⟨before, after, hline, hbefore, hafter⟩ := exists_eq_append_trimChars line
    have hinfix : line <:+: s.toList := infix_of_mem_splitOn (by rw [hlines]; simp)
    refine ⟨line, hlast, hsummary.trans (trim_ofList line).symm, ⟨before, after, ?_, ?_⟩, ?_, ?_,
      newline_notMem_summary s, ?_⟩
    · rw [hchars]
      exact hline
    · intro c hc
      rcases List.mem_append.1 hc with hc | hc
      · exact hbefore c hc
      · exact hafter c hc
    · intro hempty
      rw [hsummary, ofList_eq_empty_iff, trimChars_eq_nil_iff] at hempty
      exact hempty hvisible
    · rw [hchars]
      exact List.IsInfix.trans ⟨before, after, hline.symm⟩ hinfix
    · rw [hchars]
      exact isTrimmed_trimChars line
  · intro opening
    have hmessage : (Failure.artifactNotFound dir reason s).message = opening ++ outputNote s := rfl
    rw [hmessage]
    refine ⟨fun hs => ?_, fun hs => ?_⟩
    · rw [outputNote_of_hasVisible hs]
    · rw [(outputNote_eq_empty_iff s).2 hs, String.append_empty]

/-- A traceback whose last lines are blank in several ways: the line before them is shown. -/
theorem summary_last_visible_traceback :
    let s := "Traceback\r\n\u3000no codec \u00a0\r\n \u2028\r\n\t\r"
    HasVisible s.toList ∧ summary s = "no codec" ∧
      (Failure.artifactNotFound (Path.ofString "/w") "no file" s).message =
        "Rendering finished, but no video file was found in /w: no file " ++
          "(render output: no codec)" := by
  intro s
  have hblank : s.toList.all isBlank = false := by cbv
  have hsummary : summary s = "no codec" := by cbv
  clear_value s
  have hs : HasVisible s.toList := by
    simpa [HasVisible] using hblank
  have hdir : (Path.ofString "/w").display = "/w" := by cbv
  obtain ⟨-, -, -, hmessage⟩ := summary_last_visible s
  refine ⟨hs, hsummary, ?_⟩
  rw [(hmessage (Path.ofString "/w") "no file").1 hs, hsummary, hdir]
  rfl

end ScenePreview

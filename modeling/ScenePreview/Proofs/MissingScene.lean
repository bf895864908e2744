import ScenePreview.Proofs.Calls
import ScenePreview.Proofs.Summary

/-!
# A transformer that leaves no scene

A transformer may say that all went well and leave no scene.  The run then fails, and a line of
its own is added to what the transformer wrote.  What is shown of a failure is found in that text
again, so the line must not run into the one before it: it has to be the last line, whatever the
transformer wrote.

## Main definitions

* `Slice.missingLine` — the line that is added.

## Main results

* `Slice.exists_withMissingScene` — how the line is added.
* `Slice.isTrimmed_missingLine` — the line has no blank at either end.
* `Job.play_without_scene` — **a missing scene is told in a line of its own, after all that the
  transformer wrote.**
-/

namespace ScenePreview

open Text

namespace Slice

/-! ### The line that is added -/

/-- What is said about a scene that is not there. -/
def missingLine (scene : Path) : String :=
  "transformer exited successfully but did not write " ++ scene.display

/-- The line comes after the text, and after a line feed if the text ends within a line. -/
theorem exists_withMissingScene (stderr : String) (scene : Path) :
    ∃ gap, withMissingScene stderr scene = stderr ++ gap ++ missingLine scene ++ "\n" ∧
      (gap = "" ∨ gap = "\n") ∧
      (gap = "\n" ↔ stderr ≠ "" ∧ ¬ ['\n'] <:+ stderr.toList) := by
  have hends : stderr.toList.getLast? = some '\n' ↔ ['\n'] <:+ stderr.toList := by
    rw [List.getLast?_eq_some_iff]
    exact exists_congr fun before => eq_comm
  have hne : ("" : String) ≠ "\n" := by decide
  unfold withMissingScene missingLine
  simp only [ne_eq, hends]
  by_cases hopen : ¬ stderr = "" ∧ ¬ ['\n'] <:+ stderr.toList
  · rw [if_pos hopen]
    refine ⟨"\n", ?_, .inr rfl, iff_of_true rfl hopen⟩
    simp only [String.append_assoc]
  · rw [if_neg hopen]
    refine ⟨"", ?_, .inl rfl, iff_of_false hne hopen⟩
    simp only [String.append_assoc, String.empty_append]

/-- Before the line there is nothing, or a line feed. -/
theorem ended_append_gap {stderr gap : String} (hgap : gap = "" ∨ gap = "\n")
    (hiff : gap = "\n" ↔ stderr ≠ "" ∧ ¬ ['\n'] <:+ stderr.toList) :
    stderr ++ gap = "" ∨ ∃ earlier, stderr ++ gap = earlier ++ "\n" := by
  rcases hgap with rfl | rfl
  · have hended : stderr = "" ∨ ['\n'] <:+ stderr.toList := by
      by_contra hopen
      rw [not_or] at hopen
      exact absurd (hiff.2 hopen) (by decide)
    rw [String.append_empty]
    rcases hended with hempty | ⟨before, hbefore⟩
    · exact .inl hempty
    · refine .inr ⟨String.ofList before, ?_⟩
      rw [← String.toList_inj, String.toList_append, String.toList_ofList, ← hbefore]
      rfl
  · exact .inr ⟨stderr, rfl⟩

/-- The line starts and ends with a letter, whatever the directory is called. -/
theorem isTrimmed_missingLine (dir : Path) :
    IsTrimmed (missingLine (WorkDir.scenePath dir)).toList := by
  have hplain : Path.StartsPlain sceneFile := ⟨'t', by decide, by decide, by decide⟩
  obtain ⟨gap, -, hdisplay⟩ := dir.exists_display_child hplain
  have hfirst : (missingLine (WorkDir.scenePath dir)).toList.head? = some 't' := by
    unfold missingLine
    simp
  have hlast : (missingLine (WorkDir.scenePath dir)).toList.getLast? = some 'y' := by
    unfold missingLine
    rw [WorkDir.scenePath, hdisplay, ← String.append_assoc, String.toList_append,
      List.getLast?_append]
    simp [sceneFile]
  constructor
  · intro c hc
    rw [hfirst] at hc
    cases hc
    decide
  · intro c hc
    rw [hlast] at hc
    cases hc
    decide

theorem missingLine_ne_empty (scene : Path) : missingLine scene ≠ "" := by
  unfold missingLine
  simp

theorem newline_notMem_missingLine {scene : Path} (h : '\n' ∉ scene.display.toList) :
    '\n' ∉ (missingLine scene).toList := by
  unfold missingLine
  rw [String.toList_append, List.mem_append, not_or]
  exact ⟨by decide, h⟩

end Slice

theorem Failure.messages_sliceExtraction {stderr : String} (h : stderr ≠ "") :
    (Failure.sliceExtraction stderr).messages =
      [.error (Failure.sliceExtraction stderr).message, .log stderr] := by
  rw [messages, stderr?]
  dsimp only
  rw [if_neg h]

namespace Job

/-! ### The stage -/

/-- A transformer that ended well and left no scene ends the run. -/
theorem play_of_missing {runner : Runner} {j : Job} {s : Scope} (hphase : j.phase = .slicing)
    {r : ProcessResult} (hran : (runner s.host (Slice.call s.orchestrator.settings j.request
      (WorkDir.scenePath j.dir))).result = .ok r) (hcode : r.exitCode = 0)
    (hmissing : (runner s.host (Slice.call s.orchestrator.settings j.request
      (WorkDir.scenePath j.dir))).host.exists (WorkDir.scenePath j.dir) = false) :
    let f := Failure.sliceExtraction (Slice.withMissingScene r.stderr (WorkDir.scenePath j.dir))
    (j.play runner s).1 = .ended (.error f) ∧
      (j.play runner s).2.messages = s.messages ++ f.messages := by
  intro f
  have houtcome := Slice.outcome_of_zero hran hcode (WorkDir.scenePath j.dir)
  rw [Slice.confirm, hmissing, if_neg Bool.false_ne_true] at houtcome
  rw [play_of_slicing s runner hphase]
  dsimp only
  rw [houtcome]
  refine ⟨rfl, ?_⟩
  rw [messages_fail]
  rfl

/-- **A missing scene is told in a line of its own, after all that the transformer wrote.**  A
transformer that ends with exit code zero and leaves no scene ends the run.  The diagnostic text
of the failure is what the transformer wrote, unchanged, a line feed if that ends within a line,
and then a line that names the scene.  This is the last line of the text, so it is what the
message of the failure shows, whatever the transformer wrote; and the message and the text are
what the display is told. -/
theorem play_without_scene (runner : Runner) (j : Job) (s : Scope) (r : ProcessResult)
    (hphase : j.phase = .slicing)
    (hran : (runner s.host (Slice.call s.orchestrator.settings j.request
      (j.dir.child "temp_scene.py"))).result = .ok r)
    (hcode : r.exitCode = 0)
    (hmissing : (runner s.host (Slice.call s.orchestrator.settings j.request
      (j.dir.child "temp_scene.py"))).host.exists (j.dir.child "temp_scene.py") = false)
    (hpath : '\n' ∉ (j.dir.child "temp_scene.py").display.toList) :
    let line := "transformer exited successfully but did not write " ++
      (j.dir.child "temp_scene.py").display
    ∃ gap text, text = r.stderr ++ gap ++ line ++ "\n" ∧ (gap = "" ∨ gap = "\n") ∧
      (gap = "\n" ↔ r.stderr ≠ "" ∧ ¬ ['\n'] <:+ r.stderr.toList) ∧
      (j.play runner s).1 = .ended (.error (.sliceExtraction text)) ∧
      r.stderr.toList <+: text.toList ∧
      (∃ before, text.toList.splitOn '\n' = before ++ [line.toList, []]) ∧
      (Failure.sliceExtraction text).message = "Slice extraction failed: " ++ line ∧
      (j.play runner s).2.messages = s.messages ++
        [.error ("Slice extraction failed: " ++ line), .log text] := by
  intro line
  obtain ⟨hend, htold⟩ := play_of_missing hphase hran hcode hmissing
  obtain ⟨gap, htext, hgap, hiff⟩ :=
    Slice.exists_withMissingScene r.stderr (WorkDir.scenePath j.dir)
  have hmissingLine : Slice.missingLine (WorkDir.scenePath j.dir) = line := rfl
  have hline : '\n' ∉ line.toList := Slice.newline_notMem_missingLine hpath
  have hended := Slice.ended_append_gap hgap hiff
  have hmessage : (Failure.sliceExtraction (r.stderr ++ gap ++ line ++ "\n")).message =
      "Slice extraction failed: " ++ line :=
    congrArg (_ ++ ·) (summary_append_line hended (Slice.missingLine_ne_empty _) hline
      (Slice.isTrimmed_missingLine j.dir))
  rw [htext, hmissingLine] at hend htold
  refine ⟨gap, _, rfl, hgap, hiff, hend, ?_, exists_splitOn_append_line hended hline, hmessage, ?_⟩
  · simp only [String.append_assoc, String.toList_append]
    exact List.prefix_append ..
  · have hne : r.stderr ++ gap ++ line ++ "\n" ≠ "" := by simp
    rw [htold, Failure.messages_sliceExtraction hne, hmessage]

/-- A transformer that writes a line without an end and leaves nothing. -/
def idleRunner : Runner := fun h _ => { result := .ok { stderr := "Done\r" }, host := h }

/-- The line on the missing scene does not run into what the transformer wrote. -/
theorem play_without_scene_idle :
    let j : Job :=
      { request := ⟨"", 3, none, by decide⟩
        run := { id := Uuid.nil, startedAt := Timestamp.epoch }
        dir := Path.ofString "/1"
        completedAt := Timestamp.epoch }
    let s : Scope := { orchestrator := {}, host := {} }
    (j.play idleRunner s).1 = .ended (.error (.sliceExtraction
        "Done\r\ntransformer exited successfully but did not write /1/temp_scene.py\n")) ∧
      '\n' ∉ ((Path.ofString "/1").child "temp_scene.py").display.toList := by
  intro j s
  have hdisplay : ((Path.ofString "/1").child "temp_scene.py").display = "/1/temp_scene.py" := by
    cbv
  have hmissing : ({} : Host).exists ((Path.ofString "/1").child "temp_scene.py") = false := by cbv
  have hpath : '\n' ∉ ((Path.ofString "/1").child "temp_scene.py").display.toList := by
    rw [hdisplay]
    decide
  obtain ⟨gap, text, htext, -, hgap, hend, -⟩ := play_without_scene idleRunner j s
    { stderr := "Done\r" } rfl rfl rfl hmissing hpath
  refine ⟨?_, hpath⟩
  have hnewline : gap = "\n" := hgap.2 ⟨by decide, by decide⟩
  rw [hend, htext, hnewline, hdisplay]
  rfl

end Job

end ScenePreview

import ScenePreview.OsError
import ScenePreview.Path
import ScenePreview.Text.Blank

/-!
# Failures

Why a process could not be run, and why a run ended without a video. Every failure is final
for its run: nothing is tried again.

## Main definitions

* `Stage` — the two processes of a run.
* `ProcessError`, `ProcessResult` — how running one process can end.
* `Failure`, `Failure.message` — how a run can fail, and what the user is told.
* `summary` — the line of a diagnostic text that says most.

## References

The reference's `Stage`, `PipelineError`, `RunnerError` and `StageResult`; `summary` is its
`summarize`, and `outputNote` its `render_output`.
-/

namespace ScenePreview

/-- The stages of a run that start a process. -/
inductive Stage where
  /-- Cutting the slice out of the document. -/
  | slice
  /-- Rendering the slice. -/
  | render
  deriving Repr, DecidableEq

namespace Stage

/-- The word for a stage in records. -/
def tag : Stage → String
  | .slice => "slice_extraction"
  | .render => "render"

/-- The word for a stage in messages. -/
def title : Stage → String
  | .slice => "slice extraction"
  | .render => "render"

/-- The stage that a word of a record stands for. -/
def ofTag? (s : String) : Option Stage := [Stage.slice, .render].find? (·.tag == s)

end Stage

/-! ### One process -/

/-- What a process leaves when it ends. -/
structure ProcessResult where
  /-- The exit code; -1 after a signal. -/
  exitCode : Int := 0
  /-- Everything written to standard output. -/
  stdout : String := ""
  /-- Everything written to standard error. -/
  stderr : String := ""
  deriving Repr, DecidableEq

/-- Whether a process ended well. -/
def ProcessResult.success (r : ProcessResult) : Bool := r.exitCode == 0

/-- Why running a process gave no result. -/
inductive ProcessError where
  /-- It could not be started. -/
  | launch (command : String) (cause : IoError)
  /-- It was started, but its output or its end could not be read. -/
  | io (command : String) (cause : IoError)
  deriving Repr, DecidableEq

/-- The text of a runner error. -/
def ProcessError.message : ProcessError → String
  | .launch command cause =>
    "Failed to start process with command \"" ++ command ++ "\": " ++ cause.message
  | .io command cause =>
    "I/O error while running \"" ++ command ++ "\": " ++ cause.message

/-! ### A whole run -/

/-- Why a run ended without a video. -/
inductive Failure where
  /-- The process of a stage could not be started. -/
  | launch (stage : Stage) (command : String) (reason : String)
  /-- The transformer failed or left no scene. -/
  | sliceExtraction (stderr : String)
  /-- The renderer failed. -/
  | render (exitCode : Int) (stderr : String)
  /-- The renderer ended well, but there is no video. -/
  | artifactNotFound (dir : Path) (reason : String) (stderr : String)
  /-- There is no directory to work in. -/
  | workingDirectory (cause : IoError)
  /-- Another run is under way. -/
  | runInFlight
  deriving Repr, DecidableEq

/-- The last line that is not blank, trimmed: there a traceback has its error. -/
def lastLine? (stderr : String) : Option String :=
  (Text.lines stderr).reverse.map Text.trim |>.find? (· ≠ "")

/-- What stands for the summary of a blank text. -/
def noDiagnostics : String := "no diagnostics on stderr"

/-- The line of a diagnostic text that says most. -/
def summary (stderr : String) : String := (lastLine? stderr).getD noDiagnostics

/-- What the message on a missing video adds about the renderer's output: nothing if it
was silent. -/
def outputNote (stderr : String) : String :=
  if Text.trim stderr = "" then "" else " (render output: " ++ summary stderr ++ ")"

namespace Failure

/-- A runner error as the failure of a stage. -/
def ofRunner (stage : Stage) (e : ProcessError) : Failure :=
  match e, stage with
  | .launch command cause, _ => .launch stage command cause.message
  | .io .., .slice => .sliceExtraction e.message
  | .io .., .render => .render (-1) e.message

/-- The stage that a failure belongs to, if any. -/
def stage? : Failure → Option Stage
  | .launch stage .. => some stage
  | .sliceExtraction _ => some .slice
  | .render .. => some .render
  | .artifactNotFound .. => some .render
  | .workingDirectory _ => none
  | .runInFlight => none

/-- The diagnostic text to keep in the log, if any. -/
def stderr? : Failure → Option String
  | .sliceExtraction stderr => some stderr
  | .render _ stderr => some stderr
  | .artifactNotFound _ _ stderr => some stderr
  | _ => none

/-- What the user is told. -/
def message : Failure → String
  | .launch stage command reason =>
    "Failed to start " ++ stage.title ++ " process with command \"" ++ command ++ "\": " ++ reason
      ++ ". Check if the tool or environment launcher is on your PATH."
  | .sliceExtraction stderr => "Slice extraction failed: " ++ summary stderr
  | .render exitCode stderr =>
    "Rendering failed with exit code " ++ Text.signedDecimal exitCode ++ ": " ++ summary stderr
  | .artifactNotFound dir reason stderr =>
    "Rendering finished, but no video file was found in " ++ dir.display ++ ": " ++ reason
      ++ outputNote stderr
  | .workingDirectory cause => "Failed to create working directory: " ++ cause.message
  | .runInFlight => "A render is already in progress for this orchestrator"

/-- The error beneath a failure, which a report of it names after it. -/
def cause? : Failure → Option IoError
  | .workingDirectory cause => some cause
  | _ => none

end Failure

end ScenePreview

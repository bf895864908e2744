import ScenePreview.Artifact
import ScenePreview.RunState
import ScenePreview.Timestamp
import ScenePreview.Uuid

/-!
# Run records

What is known of one run: its identifier, its state, when it started and ended, where it
worked, and what came of it.

## References

The reference's `Run`, with `succeed`, `fail` and `is_finished`.
-/

namespace ScenePreview

/-- The record of a run. -/
structure Run where
  /-- What tells the run apart from all others. -/
  id : Uuid
  /-- How far it has come. -/
  state : RunState := .idle
  /-- When it started. -/
  startedAt : Timestamp
  /-- When it ended. -/
  completedAt : Option Timestamp := none
  /-- The directory it works in. -/
  workdir : Option Path := none
  /-- The video. -/
  artifact : Option Artifact := none
  /-- What the user was told of its failure. -/
  error : Option String := none
  deriving Repr, DecidableEq

namespace Run

/-- The record of a run that ended with a video. -/
def succeed (r : Run) (artifact : Artifact) (now : Timestamp) : Run :=
  { r with state := .succeeded, artifact := some artifact, completedAt := some now }

/-- The record of a run that failed. -/
def fail (r : Run) (error : String) (now : Timestamp) : Run :=
  { r with state := .failed, error := some error, completedAt := some now }

/-- Whether the run has ended. -/
def isFinished (r : Run) : Bool := r.state.isFinal

end Run

end ScenePreview

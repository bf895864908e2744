import ScenePreview.Path
import ScenePreview.RunState
import ScenePreview.Text.Decimal

/-!
# Warnings

What goes to the log because it is worth a look, although nothing failed.

## References

What `advance`, `find_artifact` and `write_line` of the reference log as warnings.
-/

namespace ScenePreview

/-- A warning in the log. -/
inductive Warning where
  /-- A change of state that is not expected. -/
  | transition (source target : RunState)
  /-- A directory with several videos, of which the first by name was chosen. -/
  | severalVideos (count : Nat) (chosen : Path)
  /-- A display could not be written to. -/
  | displayWrite (error : String)
  deriving Repr, DecidableEq

namespace Warning

/-- The text of a warning. -/
def message : Warning → String
  | .transition .. => "Unexpected run state transition"
  | .severalVideos .. => "Multiple rendered videos found, using the first by name"
  | .displayWrite _ => "Failed to write display message"

/-- The fields of a warning beside its text. -/
def fields : Warning → List (String × String)
  | .transition source target => [("from", source.title), ("to", target.title)]
  | .severalVideos count chosen =>
    [("count", Text.decimal count), ("chosen", chosen.display)]
  | .displayWrite error => [("error", error)]

end Warning

end ScenePreview

import ScenePreview.Failure
import ScenePreview.Invocation
import ScenePreview.Request
import ScenePreview.Settings

/-!
# Cutting the slice

The transformer gets the whole document on its standard input and writes a scene for the
target line to a file. That it ends well is not enough: the file must be there.

## Main definitions

* `Slice.invocation`, `Slice.call` — how the transformer is run.
* `Slice.settle`, `Slice.confirm` — what its end means.

## References

The reference's `SliceExtractionStage`.
-/

namespace ScenePreview.Slice

/-- The name of the scene file in a working directory. -/
def sceneFile : String := "temp_scene.py"

/-- The interpreter on the transformer, with the file to write and the target line. -/
def invocation (s : Settings) (r : Request) (scene : Path) : Invocation :=
  (Invocation.ofTool s.interpreter r.environment s.launcher).addArgs
    [s.transformer.display, scene.display, Text.decimal r.targetLine.toNat]

/-- The process of this stage. -/
def call (s : Settings) (r : Request) (scene : Path) : Call :=
  { invocation := invocation s r scene, input := some r.sourceText }

/-- The standard error of a transformer that ended well, or the failure of the stage. -/
def settle : Except ProcessError ProcessResult → Except Failure String
  | .error e => .error (.ofRunner .slice e)
  | .ok r => if r.success then .ok r.stderr else .error (.sliceExtraction r.stderr)

/-- A diagnostic text with a line about the missing file at its end. -/
def withMissingScene (stderr : String) (scene : Path) : String :=
  (if stderr ≠ "" ∧ stderr.toList.getLast? ≠ some '\n' then stderr ++ "\n" else stderr)
    ++ "transformer exited successfully but did not write " ++ scene.display ++ "\n"

/-- The scene, if it is there after a transformer that ended well. -/
def confirm (found : Bool) (stderr : String) (scene : Path) : Except Failure Path :=
  if found then .ok scene else .error (.sliceExtraction (withMissingScene stderr scene))

end ScenePreview.Slice

import ScenePreview.Artifact
import ScenePreview.Failure
import ScenePreview.Invocation
import ScenePreview.Settings

/-!
# Rendering

The renderer runs in the working directory and gets only the name of the scene file. It
leaves the video in a directory named for the scene and the quality.

## Main definitions

* `Render.invocation`, `Render.call` — how the renderer is run.
* `Render.artifactDir` — where it leaves the video.
* `Render.settle` — what its end means.

## References

The reference's `RenderStage` and `artifact_dir`.
-/

namespace ScenePreview.Render

/-- What asks the renderer for a preview of low quality. -/
def flags : List String := ["-pql"]

/-- The directory that the renderer names for that quality. -/
def quality : String := "480p15"

/-- The name of the scene file; empty if the path has none. -/
def sceneName (scene : Path) : String := Text.Utf8.lossy (scene.fileName?.getD [])

/-- The renderer with its flags and the name of the scene file. -/
def invocation (s : Settings) (scene : Path) (environment : Option String) : Invocation :=
  (Invocation.ofTool s.renderer environment s.launcher).addArgs (flags ++ [sceneName scene])

/-- The process of this stage. -/
def call (s : Settings) (scene workdir : Path) (environment : Option String) : Call :=
  { invocation := invocation s scene environment, cwd := some workdir }

/-- Where the video of a scene is left. -/
def artifactDir (workdir scene : Path) : Path :=
  (((workdir.child "media").child "videos").join ⟨scene.stem⟩).child quality

/-- The standard error of a renderer that ended well, or the failure of the stage. -/
def settle : Except ProcessError ProcessResult → Except Failure String
  | .error e => .error (.ofRunner .render e)
  | .ok r => if r.success then .ok r.stderr else .error (.render r.exitCode r.stderr)

end ScenePreview.Render

import ScenePreview.Path

/-!
# Settings

Which tools a run starts and where it keeps its files.

## References

The reference's `PipelineSettings` and its defaults.
-/

namespace ScenePreview

/-- The tools of a run and the place of its files. -/
structure Settings where
  /-- Runs a tool in a named environment. -/
  launcher : String := "conda"
  /-- Runs the transformer. -/
  interpreter : String := "python"
  /-- The script that cuts the slice out of a document. -/
  transformer : Path := Path.ofString "transformer.py"
  /-- Renders a scene. -/
  renderer : String := "manim"
  /-- What the name of a working directory starts with. -/
  workdirPrefix : String := "manim-preview-"
  /-- Where working directories are made; the system's own place if absent. -/
  tempRoot : Option Path := none
  /-- Whether the working directory of a failed run stays. -/
  keepFailedWorkdir : Bool := false
  deriving Repr, DecidableEq

namespace Settings

/-- Whether two settings agree, their paths compared by components. -/
def sameAs (s t : Settings) : Bool :=
  s.launcher == t.launcher && s.interpreter == t.interpreter
    && s.transformer.sameAs t.transformer && s.renderer == t.renderer
    && s.workdirPrefix == t.workdirPrefix
    && s.tempRoot.map Path.components == t.tempRoot.map Path.components
    && s.keepFailedWorkdir == t.keepFailedWorkdir

/-- Whether these are the default settings. -/
def isDefault (s : Settings) : Bool := s.sameAs {}

end Settings

end ScenePreview

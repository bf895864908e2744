import ScenePreview.Failure
import ScenePreview.Host
import ScenePreview.Invocation
import ScenePreview.Process.Output

/-!
# Runners

A runner runs processes on a host. Nothing is assumed of what they write, how they end and how
they change the files.

## References

The reference's `ProcessRunner` and `RunOptions`.
-/

namespace ScenePreview

/-- What running a process gives. -/
structure Ran where
  /-- What it wrote, as it arrived. -/
  chunks : List Chunk := []
  /-- How it ended. -/
  result : Except ProcessError ProcessResult
  /-- The host after it. -/
  host : Host

/-- Runs processes. -/
abbrev Runner := Host → Call → Ran

end ScenePreview

import ScenePreview.Path

/-!
# Commands

What the program can be asked to do.

## References

The reference's `Commands` and `ToolArgs`.
-/

namespace ScenePreview

/-- How progress and results are shown. -/
inductive Format where
  /-- For a reader at a terminal. -/
  | console
  /-- For another program, one JSON object on each line. -/
  | jsonl
  deriving Repr, DecidableEq

namespace Format

/-- The word for a format. -/
def tag : Format → String
  | .console => "console"
  | .jsonl => "jsonl"

/-- The format that a word stands for. -/
def ofTag? (s : String) : Option Format := [Format.console, .jsonl].find? (·.tag == s)

end Format

/-- What commands that build a pipeline can say about its tools. -/
structure ToolOptions where
  /-- The environment to run tools in. -/
  environment : Option String := none
  /-- The transformer. -/
  transformer : Option Path := none
  deriving Repr, DecidableEq

/-- Rendering the slice around a line of a script. -/
structure RenderCommand where
  /-- The script; standard input if absent. -/
  file : Option Path := none
  /-- The line, counted from one. -/
  line : UInt32
  /-- Whether the script comes from standard input in any case. -/
  stdin : Bool := false
  /-- The language of the script; told by the name of the file if absent. -/
  language : Option String := none
  /-- How progress and results are shown. -/
  format : Format := .console
  /-- The tools. -/
  tools : ToolOptions := {}
  deriving Repr, DecidableEq

/-- What the program is asked to do. -/
inductive Command where
  /-- Render. -/
  | render (c : RenderCommand)
  /-- Show what rendering would run. -/
  | plan (line : UInt32) (tools : ToolOptions)
  /-- Show the configuration. -/
  | config
  deriving Repr, DecidableEq

end ScenePreview

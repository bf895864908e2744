import ScenePreview.Path

/-!
# Invocations

A program with its arguments, as it is handed to the operating system.

## Main definitions

* `Invocation`, `Invocation.argv`, `Invocation.display` — the call and its two views.
* `Invocation.ofTool` — a tool run directly, or through the launcher of an environment.

## References

The reference's `Invocation` and `resolve_tool`.
-/

namespace ScenePreview

/-- A program and its arguments. -/
structure Invocation where
  /-- The program. -/
  program : String
  /-- The arguments, in order. -/
  args : List String := []
  deriving Repr, DecidableEq

namespace Invocation

/-- The invocation with one more argument. -/
def arg (i : Invocation) (a : String) : Invocation := { i with args := i.args ++ [a] }

/-- The invocation with more arguments. -/
def addArgs (i : Invocation) (as : List String) : Invocation := { i with args := i.args ++ as }

/-- The program, then the arguments. -/
def argv (i : Invocation) : List String := i.program :: i.args

/-- The program and the arguments with a space between each two. -/
def display (i : Invocation) : String := " ".intercalate i.argv

/-- A tool as a program of its own, or run by the launcher in a named environment. -/
def ofTool (tool : String) (environment : Option String) (launcher : String) : Invocation :=
  match environment with
  | some name => ⟨launcher, ["run", "-n", name, tool]⟩
  | none => ⟨tool, []⟩

end Invocation

/-- One process to run: what is started, where, and with which standard input. -/
structure Call where
  /-- What is started. -/
  invocation : Invocation
  /-- The directory it starts in; that of the starting process if absent. -/
  cwd : Option Path := none
  /-- The text on its standard input, which is closed after it. -/
  input : Option String := none
  deriving Repr, DecidableEq

end ScenePreview

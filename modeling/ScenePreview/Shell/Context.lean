import ScenePreview.Process.Output
import ScenePreview.Process.Program

/-!
# A process at work

What a process sees and changes: files, its directory, its variables, its streams.

## Main definitions

* `Sink` — where a stream goes.
* `Context` — a process at work.
* `Context.write`, `Context.openFile` — its writing.
-/

namespace ScenePreview.Shell

/-- A text of a process: an argument, a value, a line. -/
abbrev Field := List UInt8

/-- A text as a field. -/
def field (s : String) : Field := Text.Utf8.encode s

/-- Where a stream goes. -/
inductive Sink where
  /-- To whoever started the first process. -/
  | channel (c : Channel)
  /-- To a file. -/
  | file (place : Place)
  /-- Nowhere. -/
  | nowhere
  deriving Repr, DecidableEq

/-- A variable of a process. -/
structure Var where
  /-- Its name. -/
  name : Field
  /-- Its value. -/
  value : Field
  /-- Whether processes that are started get it. -/
  exported : Bool := false
  deriving Repr, DecidableEq

/-- A process at work. -/
structure Context where
  /-- The files. -/
  tree : FileTree
  /-- The directory. -/
  cwd : Place
  /-- The variables. -/
  vars : List Var := []
  /-- What is left of standard input. -/
  input : List UInt8 := []
  /-- Where standard output goes. -/
  stdout : Sink := .channel .stdout
  /-- Where standard error goes. -/
  stderr : Sink := .channel .stderr
  /-- What was written, newest first. -/
  written : List Piece := []
  deriving Repr, DecidableEq

namespace Context

/-! ### Variables -/

/-- The value of a variable. -/
def get? (c : Context) (name : Field) : Option Field :=
  (c.vars.find? (·.name == name)).map (·.value)

/-- Sets a variable; one that processes get stays so. -/
def set (c : Context) (name value : Field) : Context :=
  if c.vars.any (·.name == name) then
    { c with vars := c.vars.map fun v => if v.name == name then { v with value } else v }
  else { c with vars := c.vars ++ [{ name, value }] }

/-- Lets processes that are started get a variable. -/
def exportVar (c : Context) (name : Field) : Context :=
  { c with vars := c.vars.map fun v => if v.name == name then { v with exported := true } else v }

/-- Away with a variable. -/
def unset (c : Context) (name : Field) : Context :=
  { c with vars := c.vars.filter (·.name != name) }

/-- The directories that programs are looked for in. -/
def searchPath (c : Context) : Field := (c.get? (field "PATH")).getD (field "/bin:/usr/bin")

/-! ### Streams -/

/-- The sink of a stream. -/
def sink (c : Context) : Channel → Sink
  | .stdout => c.stdout
  | .stderr => c.stderr

/-- The context with another sink for a stream. -/
def setSink (c : Context) (channel : Channel) (s : Sink) : Context :=
  match channel with
  | .stdout => { c with stdout := s }
  | .stderr => { c with stderr := s }

/-- Writes bytes at once. -/
def write (c : Context) (channel : Channel) (bytes : List UInt8) : Context :=
  if bytes = [] then c
  else match c.sink channel with
    | .channel ch => { c with written := ⟨ch, bytes⟩ :: c.written }
    | .file place =>
      match c.tree.get? place with
      | some (.file content executable) =>
        { c with tree := c.tree.insert place (.file (content ++ bytes) executable) }
      | _ => c
    | .nowhere => c

/-- Writes a line of text to standard error. -/
def complain (c : Context) (parts : List Field) : Context :=
  c.write .stderr (parts.flatten ++ [10])

/-- The file that takes everything and keeps nothing. -/
def nullDevice : Path := Path.ofString "/dev/null"

/-- Opens a file to write to, from its beginning or after its end. -/
def openFile (c : Context) (p : Path) (append : Bool) : Except IoError (Sink × Context) :=
  if p = nullDevice then .ok (.nowhere, c)
  else do
    let old : List UInt8 := match c.tree.readFile c.cwd p with
      | .ok content => content
      | .error _ => []
    let tree ← c.tree.writeFile c.cwd p (if append then old else [])
    let (place, _) ← tree.stat c.cwd p
    return (.file place, { c with tree })

/-- The content of a file to read from. -/
def load (c : Context) (p : Path) : Except IoError (List UInt8) :=
  if p = nullDevice then .ok [] else c.tree.readFile c.cwd p

end Context

end ScenePreview.Shell

import ScenePreview.Yaml.Node

/-!
# Configuration files

What a configuration file can say, and how that is read from a YAML document. Every part may
be left out. Keys that are not known are ignored together with their values; a known key must
not be repeated.

## Main definitions

* `ConfigFile` — the content of a file.
* `ConfigFile.ofDocument?` — the content that a document holds.
* `ConfigFile.parse?` — the content that a text spells.

## References

The reference's `ConfigFile`, `EnvironmentConfig`, `ToolsConfig` and `WorkdirConfig`, and the
reader that it derives for them.
-/

namespace ScenePreview

/-- How tools are run in an environment. -/
structure EnvironmentSection where
  /-- The environment that both tools run in. -/
  name : Option String := none
  /-- Runs a tool in a named environment. -/
  launcher : Option String := none
  deriving Repr, DecidableEq

/-- The tools. -/
structure ToolsSection where
  /-- Runs the transformer. -/
  interpreter : Option String := none
  /-- The transformer, relative to the project. -/
  transformer : Option String := none
  /-- Renders a scene. -/
  renderer : Option String := none
  deriving Repr, DecidableEq

/-- The working directories. -/
structure WorkdirSection where
  /-- What the name of a working directory starts with. -/
  namePrefix : Option String := none
  /-- Where working directories are made, relative to the project. -/
  root : Option String := none
  /-- Whether the working directory of a failed run stays. -/
  keepFailed : Bool := false
  deriving Repr, DecidableEq

/-- The content of a configuration file. -/
structure ConfigFile where
  /-- The version of the file. -/
  version : Option String := none
  /-- How tools are run in an environment. -/
  environment : EnvironmentSection := {}
  /-- The tools. -/
  tools : ToolsSection := {}
  /-- The working directories. -/
  workdir : WorkdirSection := {}
  deriving Repr, DecidableEq

namespace ConfigFile

open Yaml (Document Node Style Tag)

/-! ### Scalars -/

/-- The tag of the standard for nothing. -/
def nullTag : Tag := Text.Utf8.encode "tag:yaml.org,2002:null"

/-- The tag of the standard for truth values. -/
def boolTag : Tag := Text.Utf8.encode "tag:yaml.org,2002:bool"

/-- The words for nothing. -/
def isNullWord (s : String) : Bool := ["~", "null", "Null", "NULL"].contains s

/-- The truth value that a word stands for. -/
def boolWord? (s : String) : Option Bool :=
  if ["true", "True", "TRUE"].contains s then some true
  else if ["false", "False", "FALSE"].contains s then some false
  else none

/-- The text of a scalar. -/
def text? (d : Document) (n : Node) : Option String :=
  match d.resolve? n with
  | some (.scalar s _ _) => some s
  | _ => none

/-- The text of a scalar that may stand for nothing: one that is plain and empty or one of the
words for nothing. A tag other than that of nothing makes any plain scalar text. -/
def optionalText? (d : Document) (n : Node) : Option (Option String) :=
  match d.resolve? n with
  | some (.scalar s .plain none) => some (if s = "" ∨ isNullWord s then none else some s)
  | some (.scalar s .plain (some t)) =>
    if t = nullTag then (if isNullWord s then some none else none) else some (some s)
  | some (.scalar s _ _) => some (some s)
  | _ => none

/-- The truth value of a plain scalar, or of a literal one with the tag for it. -/
def bool? (d : Document) (n : Node) : Option Bool :=
  match d.resolve? n with
  | some (.scalar s .plain _) => boolWord? s
  | some (.scalar s .literal (some t)) => if t = boolTag then boolWord? s else none
  | _ => none

/-! ### Sections -/

/-- A section as its entries: a mapping whose keys are all text. An empty plain scalar is a
section without entries. -/
def entries? (d : Document) (n : Node) : Option (List (String × Node)) :=
  match d.resolve? n with
  | some (.mapping es) => es.mapM fun (k, v) => (text? d k).map (·, v)
  | some (.scalar "" .plain _) => some []
  | _ => none

/-- The value of a key, read by `f`, or `default` if the key is not there. A repeated key is
refused. -/
def entry? {α : Type} (es : List (String × Node)) (key : String) (f : Node → Option α)
    (default : α) : Option α :=
  match es.filter (·.1 == key) with
  | [] => some default
  | [(_, v)] => f v
  | _ => none

/-- The section on environments. -/
def environmentSection? (d : Document) (n : Node) : Option EnvironmentSection := do
  let es ← entries? d n
  let name ← entry? es "name" (optionalText? d) none
  let launcher ← entry? es "launcher" (optionalText? d) none
  return { name, launcher }

/-- The section on tools. -/
def toolsSection? (d : Document) (n : Node) : Option ToolsSection := do
  let es ← entries? d n
  let interpreter ← entry? es "interpreter" (optionalText? d) none
  let transformer ← entry? es "transformer" (optionalText? d) none
  let renderer ← entry? es "renderer" (optionalText? d) none
  return { interpreter, transformer, renderer }

/-- The section on working directories. -/
def workdirSection? (d : Document) (n : Node) : Option WorkdirSection := do
  let es ← entries? d n
  let namePrefix ← entry? es "prefix" (optionalText? d) none
  let root ← entry? es "root" (optionalText? d) none
  let keepFailed ← entry? es "keep_failed" (bool? d) false
  return { namePrefix, root, keepFailed }

/-- The content that a document holds. -/
def ofDocument? (d : Document) : Option ConfigFile := do
  let es ← entries? d d.root
  let version ← entry? es "version" (optionalText? d) none
  let environment ← entry? es "environment" (environmentSection? d) {}
  let tools ← entry? es "tools" (toolsSection? d) {}
  let workdir ← entry? es "workdir" (workdirSection? d) {}
  return { version, environment, tools, workdir }

/-- The content that a text spells. -/
def parse? (s : String) : Option ConfigFile := (Document.parse? s).bind ofDocument?

end ConfigFile

end ScenePreview

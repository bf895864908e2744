import ScenePreview.Failure
import ScenePreview.Json.Reader
import ScenePreview.Json.Writer
import ScenePreview.Run

/-!
# Run records as JSON

A run record is an object with all its fields in order, absent ones as `null`. It is read
from such an object in any order, with other members ignored, or from an array of its seven
values.

## Main definitions

* `Artifact.toJson?`, `Artifact.ofJson?` — artifacts, whose path must be text.
* `Run.toJson?`, `Run.ofJson?` — run records.
* `Stage.ofJson?` — stages.

## References

The reader and the writer that the reference derives for `Run`, `ArtifactReference` and `Stage`.
-/

namespace ScenePreview

/-- Why a record cannot be written. -/
inductive Json.WriteError where
  /-- A path is no text. -/
  | pathNotText
  deriving Repr, DecidableEq

/-- The text of the error. -/
def Json.WriteError.message : Json.WriteError → String
  | .pathNotText => "path contains invalid UTF-8 characters"

/-- A path as a string. -/
def Path.toJson (p : Path) : Except Json.WriteError Json :=
  match p.toString? with
  | some s => .ok (.text s)
  | none => .error .pathNotText

/-- The path that a value holds. -/
def Path.ofJson? (v : Json) : Option Path := v.asText?.map Path.ofString

/-- The stage that a value holds. -/
def Stage.ofJson? (v : Json) : Option Stage := v.asWord?.bind Stage.ofTag?

/-- A stage as a string. -/
def Stage.toJson (s : Stage) : Json := .text s.tag

/-- The state that a value holds. -/
def RunState.ofJson? (v : Json) : Option RunState := v.asWord?.bind RunState.ofTag?

/-- A state as a string. -/
def RunState.toJson (s : RunState) : Json := .text s.tag

/-- The identifier that a value holds. -/
def Uuid.ofJson? (v : Json) : Option Uuid := v.asText?.bind Uuid.parse?

/-- The point in time that a value holds. -/
def Timestamp.ofJson? (v : Json) : Option Timestamp := v.asText?.bind Timestamp.parse?

namespace Artifact

/-- An artifact as an object. -/
def toJson (a : Artifact) : Except Json.WriteError Json := do
  return Json.ofFields [("path", ← a.path.toJson)]

/-- The artifact that a value holds. -/
def ofJson? : Json → Option Artifact
  | .object ms => do
    if !Json.keysAreText ms then none
    let path ← (← Json.required? ms "path") |> Path.ofJson?
    return ⟨path⟩
  | .array [path] => (Path.ofJson? path).map Artifact.mk
  | _ => none

/-- The artifact that a text spells. -/
def parse? (s : String) : Option Artifact := (Json.parse? s).bind ofJson?

end Artifact

namespace Run

/-- A value that may be absent, `null` if it is. -/
def optionToJson {α : Type} (f : α → Except Json.WriteError Json) :
    Option α → Except Json.WriteError Json
  | none => .ok .null
  | some a => f a

/-- A run record as an object. -/
def toJson (r : Run) : Except Json.WriteError Json := do
  return Json.ofFields [
    ("id", .text r.id.render),
    ("state", r.state.toJson),
    ("started_at", .text r.startedAt.render),
    ("completed_at", .ofOption (r.completedAt.map fun t => .text t.render)),
    ("workdir", ← optionToJson Path.toJson r.workdir),
    ("artifact", ← optionToJson Artifact.toJson r.artifact),
    ("error", .ofOption (r.error.map .text))]

/-- A run record as JSON text. -/
def render (r : Run) : Except Json.WriteError String := r.toJson.map Json.render

/-- The run record with the given values; `none` for one that is absent. -/
def ofFields? (id state startedAt : Json)
    (completedAt workdir artifact error : Option Json) : Option Run := do
  return {
    id := ← Uuid.ofJson? id
    state := ← RunState.ofJson? state
    startedAt := ← Timestamp.ofJson? startedAt
    completedAt := ← Json.optional? Timestamp.ofJson? completedAt
    workdir := ← Json.optional? Path.ofJson? workdir
    artifact := ← Json.optional? Artifact.ofJson? artifact
    error := ← Json.optional? Json.asText? error }

/-- The run record that a value holds. Other members are ignored. -/
def ofJson? : Json → Option Run
  | .object ms => do
    if !Json.keysAreText ms then none
    ofFields? (← Json.required? ms "id") (← Json.required? ms "state")
      (← Json.required? ms "started_at") (← Json.field? ms "completed_at")
      (← Json.field? ms "workdir") (← Json.field? ms "artifact") (← Json.field? ms "error")
  | .array [id, state, startedAt, completedAt, workdir, artifact, error] =>
    ofFields? id state startedAt (some completedAt) (some workdir) (some artifact) (some error)
  | _ => none

/-- The run record that a text spells. -/
def parse? (s : String) : Option Run := (Json.parse? s).bind ofJson?

end Run

end ScenePreview

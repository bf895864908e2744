import ScenePreview.Event
import ScenePreview.Json.Number
import ScenePreview.Json.Reader
import ScenePreview.Json.Writer

/-!
# Events and notices as JSON

An event is an object whose member `type` names it, beside the members that belong to it; a
notice is an object with a level and a message. Both are also read from arrays that hold the
same values in order.

## Main definitions

* `Event.toJson`, `Event.ofJson?` — events.
* `Notice.toJson`, `Notice.ofJson?` — notices.

## References

The reader and the writer that the reference derives for `DisplayEvent` and `Notification`.
-/

namespace ScenePreview

namespace Event

/-- The word for an event. -/
def tag : Event → String
  | .loading => "showLoading"
  | .log _ => "addLog"
  | .logCleared => "clearLog"
  | .artifactReady _ => "updateVideo"

/-- The members of an event beside its `type`. -/
def payload : Event → List (String × String)
  | .loading => []
  | .log text => [("message", text)]
  | .logCleared => []
  | .artifactReady uri => [("uri", uri)]

/-- An event as an object. -/
def toJson (e : Event) : Json :=
  Json.ofFields (("type", .text e.tag) :: e.payload.map fun (k, v) => (k, .text v))

/-- An event as JSON text. -/
def render (e : Event) : String := e.toJson.render

/-- How deep what is read for an event may nest. -/
def maxDepth : Nat := 127

/-- The event with a tag and the members of an object. Members that do not belong to it are
ignored. -/
def ofMembers? (tag : String) (ms : Json.Members) : Option Event :=
  if tag = "showLoading" then some .loading
  else if tag = "clearLog" then some .logCleared
  else if tag = "addLog" then ((Json.required? ms "message").bind Json.asText?).map .log
  else if tag = "updateVideo" then ((Json.required? ms "uri").bind Json.asText?).map .artifactReady
  else none

/-- The event with a tag and exactly the given values. -/
def ofItems? (tag : String) (items : List Json) : Option Event :=
  match items with
  | [] =>
    if tag = "showLoading" then some .loading
    else if tag = "clearLog" then some .logCleared
    else none
  | [v] =>
    if tag = "addLog" then v.asText?.map .log
    else if tag = "updateVideo" then v.asText?.map .artifactReady
    else none
  | _ => none

/-- The event that a value holds. The whole value must be text and numbers in range. -/
def ofJson? (v : Json) : Option Event :=
  if !v.isWhole || maxDepth < v.depth then none
  else match v with
    | .object ms => ((Json.required? ms "type").bind Json.asText?).bind fun tag => ofMembers? tag ms
    | .array (first :: rest) => first.asText?.bind fun tag => ofItems? tag rest
    | _ => none

/-- The event that a text spells. -/
def parse? (s : String) : Option Event := (Json.parse? s).bind ofJson?

end Event

/-- The level that a value holds. -/
def Level.ofJson? (v : Json) : Option Level := v.asWord?.bind Level.ofTag?

namespace Notice

/-- A notice as an object. -/
def toJson (n : Notice) : Json :=
  Json.ofFields [("level", .text n.level.tag), ("message", .text n.text)]

/-- A notice as JSON text. -/
def render (n : Notice) : String := n.toJson.render

/-- The notice that a value holds. Other members are ignored. -/
def ofJson? : Json → Option Notice
  | .object ms => do
    if !Json.keysAreText ms then none
    let level ← (← Json.required? ms "level") |> Level.ofJson?
    let text ← (← Json.required? ms "message").asText?
    return ⟨level, text⟩
  | .array [level, text] => do
    let level ← Level.ofJson? level
    let text ← text.asText?
    return ⟨level, text⟩
  | _ => none

/-- The notice that a text spells. -/
def parse? (s : String) : Option Notice := (Json.parse? s).bind ofJson?

end Notice

end ScenePreview

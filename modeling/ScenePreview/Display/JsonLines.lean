import ScenePreview.Event.Json
import ScenePreview.Text.Utf8
import ScenePreview.Warning

/-!
# A display for other programs

Writes each message as a JSON object on a line of its own, its members in alphabetical
order. A notice carries the type `notification`.

## Main definitions

* `JsonLines.line` — the line of a message.
* `JsonLines`, `JsonLines.receive` — the display, on a writer that may be full.

## References

The reference's `JsonLinesSink` and `write_json_line`.
-/

namespace ScenePreview

/-- A display that writes a line for each message. -/
structure JsonLines where
  /-- The bytes written so far. -/
  written : List UInt8 := []
  /-- How many more bytes the writer takes; no bound if absent. -/
  room : Option Nat := none
  deriving Repr, DecidableEq

namespace JsonLines

/-- The members of an event in alphabetical order. -/
def eventFields : Event → List (String × Json)
  | .loading => [("type", .text "showLoading")]
  | .log text => [("message", .text text), ("type", .text "addLog")]
  | .logCleared => [("type", .text "clearLog")]
  | .artifactReady uri => [("type", .text "updateVideo"), ("uri", .text uri)]

/-- The object of a message. -/
def toJson : Message → Json
  | .event e => Json.ofFields (eventFields e)
  | .notice n => Json.ofFields
      [("level", .text n.level.tag), ("message", .text n.text), ("type", .text "notification")]

/-- The line of a message, without its end. -/
def line (m : Message) : String := (toJson m).render

/-- The bytes of a message's line, with its end. -/
def lineBytes (m : Message) : List UInt8 := Text.Utf8.encode (line m) ++ [10]

/-- What a full writer says. -/
def fullError : String := "disk full"

/-- The display after one more message, and the warning if the line does not fit. What fits
of it is written. -/
def receive (d : JsonLines) (m : Message) : JsonLines × List Warning :=
  let bytes := lineBytes m
  match d.room with
  | none => ({ d with written := d.written ++ bytes }, [])
  | some n =>
    (⟨d.written ++ bytes.take n, some (n - bytes.length)⟩,
      if bytes.length ≤ n then [] else [.displayWrite fullError])

/-- What all messages write if nothing stops them. -/
def renderAll (ms : List Message) : String :=
  String.join (ms.map fun m => line m ++ "\n")

end JsonLines

end ScenePreview

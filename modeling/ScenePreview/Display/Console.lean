import ScenePreview.Event

/-!
# A display on a terminal

The log and the notices go to standard error, the locator of a video to standard output.

## References

The reference's `ConsoleSink`.
-/

namespace ScenePreview

/-- What was written to a terminal. -/
structure Console where
  /-- Standard output. -/
  stdout : String := ""
  /-- Standard error. -/
  stderr : String := ""
  deriving Repr, DecidableEq

namespace Console

/-- What a message writes to standard output. -/
def outText : Message → String
  | .event (.artifactReady uri) => uri ++ "\n"
  | _ => ""

/-- What a message writes to standard error. Nothing that was written can be cleared. -/
def errText : Message → String
  | .event .loading => "Rendering...\n"
  | .event (.log text) => text
  | .event _ => ""
  | .notice n => n.level.tag ++ ": " ++ n.text ++ "\n"

/-- The terminal after one more message. -/
def receive (c : Console) (m : Message) : Console :=
  ⟨c.stdout ++ outText m, c.stderr ++ errText m⟩

/-- The terminal after a list of messages. -/
def ofMessages (ms : List Message) : Console := ms.foldl receive {}

end Console

end ScenePreview

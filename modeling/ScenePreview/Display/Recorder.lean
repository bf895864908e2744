import ScenePreview.Event

/-!
# A display that remembers

Keeps every event and every notice in the order of arrival.

## References

The reference's `MemorySink`.
-/

namespace ScenePreview

/-- The events and notices received so far. -/
structure Recorder where
  /-- The events, oldest first. -/
  events : List Event := []
  /-- The notices, oldest first. -/
  notices : List Notice := []
  deriving Repr, DecidableEq

namespace Recorder

/-- The recorder after one more message. -/
def receive (r : Recorder) : Message → Recorder
  | .event e => { r with events := r.events ++ [e] }
  | .notice n => { r with notices := r.notices ++ [n] }

/-- The recorder after a list of messages. -/
def ofMessages (ms : List Message) : Recorder := ms.foldl receive {}

/-- The texts of the notices of errors. -/
def errors (r : Recorder) : List String :=
  (r.notices.filter (·.level = .error)).map Notice.text

/-- The text that an event adds to the log, if any. -/
def logged? : Event → Option String
  | .log text => some text
  | _ => none

/-- The locator that an event shows, if any. -/
def shown? : Event → Option String
  | .artifactReady uri => some uri
  | _ => none

/-- Everything that was added to the log. -/
def logText (r : Recorder) : String := String.join (r.events.filterMap logged?)

/-- The locators that were shown. -/
def artifacts (r : Recorder) : List String := r.events.filterMap shown?

end Recorder

end ScenePreview

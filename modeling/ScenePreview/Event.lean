/-!
# Events and notices

What a run tells its display: events for the preview panel and one-line notices beside it.

## Main definitions

* `Event` — what changes in the panel.
* `Notice` — a one-line text outside it.
* `Message` — either of the two.

## References

The reference's `DisplayEvent` and `Notification`, and the methods of `DisplaySink` that take them.
-/

namespace ScenePreview

/-- A change in the preview panel. -/
inductive Event where
  /-- A run started: the previous video goes, a spinner comes. -/
  | loading
  /-- Text is added to the log. -/
  | log (text : String)
  /-- The log is emptied. -/
  | logCleared
  /-- The video at a locator is ready. -/
  | artifactReady (uri : String)
  deriving Repr, DecidableEq

/-- How serious a notice is. -/
inductive Level where
  | info
  | error
  deriving Repr, DecidableEq

/-- The word for a level in records. -/
def Level.tag : Level → String
  | .info => "info"
  | .error => "error"

/-- The level that a word of a record stands for. -/
def Level.ofTag? (s : String) : Option Level := [Level.info, .error].find? (·.tag == s)

/-- A one-line text outside the panel. -/
structure Notice where
  /-- How serious it is. -/
  level : Level
  /-- The text. -/
  text : String
  deriving Repr, DecidableEq

/-- What a display receives. -/
inductive Message where
  /-- A change in the panel. -/
  | event (e : Event)
  /-- A text outside it. -/
  | notice (n : Notice)
  deriving Repr, DecidableEq

namespace Message

/-- A run started. -/
def loading : Message := .event .loading

/-- Text for the log. -/
def log (text : String) : Message := .event (.log text)

/-- The log is emptied. -/
def logCleared : Message := .event .logCleared

/-- The video is ready. -/
def artifactReady (uri : String) : Message := .event (.artifactReady uri)

/-- A notice for information. -/
def info (text : String) : Message := .notice ⟨.info, text⟩

/-- A notice of an error. -/
def error (text : String) : Message := .notice ⟨.error, text⟩

end Message

end ScenePreview

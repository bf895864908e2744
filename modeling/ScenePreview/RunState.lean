/-!
# Run states

The states that a run goes through, and the changes of state that are expected.

## References

The reference's `RunState`, with `can_advance_to` and `is_terminal`.
-/

namespace ScenePreview

/-- How far a run has come. -/
inductive RunState where
  /-- Nothing has started. -/
  | idle
  /-- The slice is being cut. -/
  | slicing
  /-- The renderer is at work. -/
  | rendering
  /-- The video was found and shown. -/
  | succeeded
  /-- One of the stages failed. -/
  | failed
  deriving Repr, DecidableEq, Inhabited

namespace RunState

/-- Whether the change from one state to another is expected. A run that ended is left
only by a fresh start. -/
def leadsTo : RunState → RunState → Bool
  | .idle, .slicing => true
  | .succeeded, .slicing => true
  | .failed, .slicing => true
  | .slicing, .rendering => true
  | .slicing, .failed => true
  | .rendering, .failed => true
  | .rendering, .succeeded => true
  | _, _ => false

/-- Whether a run in this state has ended. -/
def isFinal : RunState → Bool
  | .succeeded => true
  | .failed => true
  | _ => false

/-- All states, in the order of a run. -/
def all : List RunState := [.idle, .slicing, .rendering, .succeeded, .failed]

/-- The word for a state in records. -/
def tag : RunState → String
  | .idle => "idle"
  | .slicing => "slicing"
  | .rendering => "rendering"
  | .succeeded => "succeeded"
  | .failed => "failed"

/-- The word for a state in warnings. -/
def title : RunState → String
  | .idle => "Idle"
  | .slicing => "Slicing"
  | .rendering => "Rendering"
  | .succeeded => "Succeeded"
  | .failed => "Failed"

/-- The state that a word of a record stands for. -/
def ofTag? (s : String) : Option RunState := all.find? (·.tag == s)

end RunState

end ScenePreview

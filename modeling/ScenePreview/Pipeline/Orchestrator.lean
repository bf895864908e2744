import ScenePreview.Artifact.Search
import ScenePreview.Event
import ScenePreview.Run
import ScenePreview.WorkDir

/-!
# Orchestrators

An orchestrator runs one job at a time. It keeps its settings, the state of its latest run and
whether a run is under way. What happens during a run is written to a journal.

## Main definitions

* `Orchestrator` — settings, state, and whether it is busy.
* `Happening` — a line of the journal: a process started, a warning, a message to the display.
* `Scope` — an orchestrator on a host, with the journal.
* `Chance` — what a run takes from its surroundings without being able to foresee it.

## References

The reference's `Orchestrator`, its `InFlightGuard` and its `advance`.
-/

namespace ScenePreview

/-- Runs one job at a time. -/
structure Orchestrator where
  /-- The tools and the place of files. -/
  settings : Settings := {}
  /-- The state of the latest run. -/
  state : RunState := .idle
  /-- Whether a run is under way. -/
  busy : Bool := false
  deriving Repr, DecidableEq

/-- What the journal records. -/
inductive Happening where
  /-- A process was started in a state of the orchestrator. -/
  | call (c : Call) (state : RunState)
  /-- A warning. -/
  | warning (w : Warning)
  /-- A message to the display. -/
  | message (m : Message)
  deriving Repr, DecidableEq

/-- An identifier, points in time and ends of names: what a run cannot foresee. -/
structure Chance where
  /-- The identifier of the run. -/
  id : Uuid := Uuid.nil
  /-- When the run starts. -/
  startedAt : Timestamp := Timestamp.epoch
  /-- When the run ends. -/
  completedAt : Timestamp := Timestamp.epoch
  /-- The ends of names to try for the working directory. -/
  suffixes : Nat → String

/-- An orchestrator on a host, with the journal. -/
structure Scope where
  /-- The orchestrator. -/
  orchestrator : Orchestrator
  /-- The host. -/
  host : Host
  /-- What has happened, oldest first. -/
  journal : List Happening := []
  deriving Repr, DecidableEq

namespace Scope

/-- One more line in the journal. -/
def record (s : Scope) (h : Happening) : Scope := { s with journal := s.journal ++ [h] }

/-- A message to the display. -/
def say (s : Scope) (m : Message) : Scope := s.record (.message m)

/-- Warnings in the journal. -/
def warn (s : Scope) (ws : List Warning) : Scope :=
  { s with journal := s.journal ++ ws.map .warning }

/-- A process is started. -/
def start (s : Scope) (c : Call) : Scope := s.record (.call c s.orchestrator.state)

/-- The orchestrator takes a state, with a warning if that is not expected. -/
def advance (s : Scope) (next : RunState) : Scope :=
  let source := s.orchestrator.state
  let s := if source.leadsTo next then s else s.warn [.transition source next]
  { s with orchestrator := { s.orchestrator with state := next } }

/-- The orchestrator is taken by a run. -/
def acquire (s : Scope) : Scope := { s with orchestrator := { s.orchestrator with busy := true } }

/-- The orchestrator is free again. -/
def release (s : Scope) : Scope := { s with orchestrator := { s.orchestrator with busy := false } }

/-- A failure is shown: a notice, and the diagnostic text in the log if there is any. -/
def report (s : Scope) (f : Failure) : Scope :=
  let s := (s.advance .failed).say (.error f.message)
  match f.stderr? with
  | some stderr => if stderr = "" then s else s.say (.log stderr)
  | none => s

end Scope

end ScenePreview

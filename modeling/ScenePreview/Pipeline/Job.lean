import ScenePreview.Pipeline.Orchestrator
import ScenePreview.Process.Output
import ScenePreview.Render

/-!
# Jobs

A job is a run under way. Between two of its actions it waits: for the transformer, for the
look at the scene file, for the renderer, for the look for the video. What it waits for comes
as a signal. A job can be dropped at any time while it waits.

## Main definitions

* `Job`, `Job.Phase` — a run under way and what it waits for.
* `Signal` — what a job waits for.
* `Progress` — a job after an action: still under way, or ended.
* `Job.begin`, `Job.step`, `Job.drop` — the actions.

## References

`run`, `execute` and `fail` of the reference's `Orchestrator`, cut where they wait.
-/

namespace ScenePreview

/-- What a job waits for. -/
inductive Job.Phase where
  /-- The end of the transformer. -/
  | slicing
  /-- The look at the scene file, after a transformer that left a diagnostic text. -/
  | confirming (stderr : String)
  /-- The end of the renderer. -/
  | rendering
  /-- The look for the video, after a renderer that left a diagnostic text. -/
  | searching (stderr : String)
  deriving Repr, DecidableEq

/-- A run under way. -/
structure Job where
  /-- What was asked for. -/
  request : Request
  /-- The record of the run. -/
  run : Run
  /-- The working directory. -/
  dir : Path
  /-- When the run will end. -/
  completedAt : Timestamp
  /-- What the job waits for. -/
  phase : Job.Phase := .slicing
  deriving Repr, DecidableEq

/-- What a job can be told. -/
inductive Signal where
  /-- The process wrote something. -/
  | output (c : Chunk)
  /-- The process ended, or could not be run. -/
  | exited (r : Except ProcessError ProcessResult)
  /-- A look at the files can be taken. -/
  | resumed

/-- How a run ends. -/
abbrev Outcome := Except Failure Run

/-- A job after an action. -/
inductive Progress where
  /-- It goes on. -/
  | running (j : Job)
  /-- It ended. -/
  | ended (o : Outcome)

namespace Job

/-- The process that a job waits for, or that it waited for last. -/
def call (j : Job) (settings : Settings) : Call :=
  let scene := WorkDir.scenePath j.dir
  match j.phase with
  | .slicing | .confirming _ => Slice.call settings j.request scene
  | .rendering | .searching _ => Render.call settings scene j.dir j.request.environment

/-- What the user is told before the transformer runs. -/
def announcement (i : Invocation) : String := "Running command: " ++ i.display

/-- A run starts, unless another is under way. -/
def begin (chance : Chance) (request : Request) (s : Scope) : Progress × Scope :=
  if s.orchestrator.busy then (.ended (.error .runInFlight), s)
  else
    let s := (s.acquire.advance .slicing).say .loading
    let settings := s.orchestrator.settings
    match WorkDir.create s.host settings.workdirPrefix settings.tempRoot chance.suffixes with
    | .error e =>
      let f := Failure.workingDirectory e
      (.ended (.error f), (s.report f).release)
    | .ok (dir, tree) =>
      let s := { s with host := { s.host with tree } }
      let call := Slice.call settings request (WorkDir.scenePath dir)
      let run : Run :=
        { id := chance.id, state := .slicing, startedAt := chance.startedAt, workdir := some dir }
      let job : Job := { request, run, dir, completedAt := chance.completedAt }
      (.running job, (s.say (.info (announcement call.invocation))).start call)

/-- The job ends with a failure. Its directory goes unless failed runs keep theirs. -/
def fail (j : Job) (f : Failure) (s : Scope) : Progress × Scope :=
  let s := s.report f
  let s := if s.orchestrator.settings.keepFailedWorkdir then s
    else { s with host := WorkDir.remove s.host j.dir }
  (.ended (.error f), s.release)

/-- The job ends with a video. Its directory stays. -/
def succeed (j : Job) (a : Artifact) (s : Scope) : Progress × Scope :=
  let s := ((s.advance .succeeded).say (.artifactReady a.locator)).say .logCleared
  (.ended (.ok (j.run.succeed a j.completedAt)), s.release)

/-- The scene is there: the renderer is started. -/
def render (j : Job) (scene : Path) (s : Scope) : Progress × Scope :=
  let s := s.advance .rendering
  let call := Render.call s.orchestrator.settings scene j.dir j.request.environment
  (.running { j with phase := .rendering, run := { j.run with state := .rendering } },
    s.start call)

/-- The job is told something. What it does not wait for changes nothing. -/
def step (j : Job) (signal : Signal) (s : Scope) : Progress × Scope :=
  match j.phase, signal with
  | .slicing, .exited r =>
    match Slice.settle r with
    | .error f => j.fail f s
    | .ok stderr => (.running { j with phase := .confirming stderr }, s)
  | .confirming stderr, .resumed =>
    let scene := WorkDir.scenePath j.dir
    match Slice.confirm (s.host.exists scene) stderr scene with
    | .error f => j.fail f s
    | .ok scene => j.render scene s
  | .rendering, .output c => (.running j, s.say (.log c.text))
  | .rendering, .exited r =>
    match Render.settle r with
    | .error f => j.fail f s
    | .ok stderr => (.running { j with phase := .searching stderr }, s)
  | .searching stderr, .resumed =>
    let dir := Render.artifactDir j.dir (WorkDir.scenePath j.dir)
    match Artifact.find s.host dir stderr with
    | (.error f, ws) => j.fail f (s.warn ws)
    | (.ok a, ws) => j.succeed a (s.warn ws)
  | _, _ => (.running j, s)

/-- The job is given up: its directory goes and the orchestrator is free, but keeps its
state. -/
def drop (j : Job) (s : Scope) : Scope :=
  { s with host := WorkDir.remove s.host j.dir }.release

end Job

end ScenePreview

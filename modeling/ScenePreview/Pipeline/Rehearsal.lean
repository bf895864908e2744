import ScenePreview.Pipeline.Job

/-!
# Rehearsals

A rehearsal plays runs against scripted processes instead of real ones. Several orchestrators
share the host, the display and the scripts; each process that is started takes the next
script, and one that does nothing when none is left. A scripted process may itself start a run
and wait for it, and it may never end, in which case the run that waits for it is dropped.

## Main definitions

* `Script` — what a process does.
* `Script.playSlice`, `Script.playRender` — one stage on its own.
* `Rehearsal`, `Rehearsal.perform` — whole runs.
-/

namespace ScenePreview

/-- A run that a scripted process starts. -/
structure NestedRun where
  /-- The orchestrator to run it. -/
  orchestrator : Nat := 0
  /-- What asks for it. -/
  trigger : Trigger
  deriving Repr, DecidableEq

/-- What a scripted process does, in this order. -/
structure Script where
  /-- What it writes. -/
  chunks : List Chunk := []
  /-- How it changes files. -/
  edits : List FileTree.Edit := []
  /-- The run that it starts and waits for. -/
  nested : Option NestedRun := none
  /-- Whether it never ends. -/
  hangs : Bool := false
  /-- Why it could not be started. -/
  launchError : Option IoError := none
  /-- Why its end could not be read. -/
  ioError : Option IoError := none
  /-- Its exit code. -/
  exitCode : Int := 0
  /-- Its standard output, if that differs from what it wrote. -/
  stdout : Option String := none
  /-- Its standard error, if that differs from what it wrote. -/
  stderr : Option String := none
  deriving Repr, DecidableEq

namespace Script

/-- How the process ends. -/
def result (s : Script) (i : Invocation) : Except ProcessError ProcessResult :=
  match s.launchError, s.ioError with
  | some e, _ => .error (.launch i.display e)
  | none, some e => .error (.io i.display e)
  | none, none => .ok {
      exitCode := s.exitCode
      stdout := s.stdout.getD (Chunk.textOf .stdout s.chunks)
      stderr := s.stderr.getD (Chunk.textOf .stderr s.chunks) }

/-- The changes of files with their paths below a directory. -/
def editsIn (s : Script) (base : Path) : List FileTree.Edit :=
  s.edits.map fun
    | .dir p => .dir (base.join p)
    | .write p c => .write (base.join p) c
    | .program p c => .program (base.join p) c
    | .link p target => .link (base.join p) target
    | .remove p => .remove (base.join p)

/-- The first stage on its own: the scene or the failure, and the process that was started. -/
def playSlice (s : Script) (h : Host) (settings : Settings) (r : Request) (scene : Path) :
    Except Failure Path × Call :=
  let call := Slice.call settings r scene
  let h := h.edits (s.editsIn h.cwdPath)
  (Slice.settle (s.result call.invocation) >>= fun stderr =>
    Slice.confirm (h.exists scene) stderr scene, call)

/-- The second stage on its own: the video or the failure, the process that was started, and
the warnings. -/
def playRender (s : Script) (h : Host) (settings : Settings) (scene workdir : Path)
    (environment : Option String) : Except Failure Artifact × Call × List Warning :=
  let call := Render.call settings scene workdir environment
  let h := h.edits (s.editsIn h.cwdPath)
  match Render.settle (s.result call.invocation) with
  | .error f => (.error f, call, [])
  | .ok stderr =>
    let (result, ws) := Artifact.find h (Render.artifactDir workdir scene) stderr
    (result, call, ws)

end Script

/-! ### Whole runs -/

/-- How an attempt to run ends. -/
inductive Verdict where
  /-- The trigger was turned down. -/
  | rejected (r : Request.Rejection)
  /-- The run ended. -/
  | ended (o : Outcome)

/-- What the journal of a rehearsal records. -/
inductive Mark where
  /-- What a run records. -/
  | happening (h : Happening)
  /-- A scripted process starts a run. -/
  | nestedStart (orchestrator : Nat)
  /-- A run that a scripted process started has ended. -/
  | nestedEnd (v : Verdict) (state : RunState)

/-- Orchestrators that share a host, a journal and scripts. -/
structure Rehearsal where
  /-- The orchestrators. -/
  orchestrators : List Orchestrator
  /-- The host. -/
  host : Host
  /-- The scripts that are left. -/
  scripts : List Script := []
  /-- What has happened, oldest first. -/
  journal : List Mark := []
  /-- The working directories that a process was started for, in order. -/
  visited : List Path := []
  /-- The ends of names to try for working directories. -/
  suffixes : Nat → String
  /-- How many of them were tried. -/
  drawn : Nat := 0

/-- Goes on with a rehearsal, unless a process never ends. -/
abbrev Play := OptionT (StateM Rehearsal)

namespace Rehearsal

/-- The orchestrator with a number. -/
def orchestrator (r : Rehearsal) (k : Nat) : Orchestrator := r.orchestrators.getD k {}

/-- An action of one orchestrator. -/
def act {α : Type} (k : Nat) (f : Scope → α × Scope) : Play α := do
  let r ← get
  let (a, s) := f { orchestrator := r.orchestrator k, host := r.host }
  set { r with
    orchestrators := r.orchestrators.set k s.orchestrator
    host := s.host
    journal := r.journal ++ s.journal.map Mark.happening }
  return a

/-- One more line in the journal. -/
def note (m : Mark) : Play Unit := modify fun r => { r with journal := r.journal ++ [m] }

/-- The next script. -/
def nextScript : Play Script := do
  let r ← get
  set { r with scripts := r.scripts.drop 1 }
  return r.scripts.headD {}

/-- A working directory has had a process started for it. -/
def visit (dir : Path) : Play Unit := modify fun r =>
  if r.visited.contains dir then r else { r with visited := r.visited ++ [dir] }

/-- Tells a job something. -/
def tell (k : Nat) (signal : Signal) : Progress → Play Progress
  | .running j => act k (j.step signal)
  | .ended o => return .ended o

/-- Gives a job up, and the rehearsal of its run with it. -/
def abandon {α : Type} (k : Nat) (j : Job) : Play α := do
  act k fun s => ((), j.drop s)
  failure

/-- Starts and awaits the run of a scripted process; a run that never ends takes the job with
it. -/
def nest (k : Nat) (j : Job) (runNested : Nat → Trigger → Play Verdict) (n : NestedRun) :
    Play Unit := do
  note (.nestedStart n.orchestrator)
  match ← OptionT.lift (runNested n.orchestrator n.trigger).run with
  | some v => note (.nestedEnd v ((← get).orchestrator n.orchestrator).state)
  | none => abandon k j

/-- Plays the process that a job waits for. -/
def playProcess (k : Nat) (runNested : Nat → Trigger → Play Verdict) : Progress → Play Progress
  | .ended o => return .ended o
  | .running j => do
    visit j.dir
    let script ← nextScript
    for c in script.chunks do
      let _ ← tell k (.output c) (.running j)
    modify fun r => { r with host := r.host.edits (script.editsIn j.dir) }
    match script.nested with
    | some n => nest k j runNested n
    | none => pure ()
    if script.hangs then abandon k j
    let call := j.call ((← get).orchestrator k).settings
    tell k (.exited (script.result call.invocation)) (.running j)

/-- Plays a run from its beginning to its end. -/
def playRun (k : Nat) (runNested : Nat → Trigger → Play Verdict) (request : Request) :
    Play Outcome := do
  let r ← get
  let chance : Chance := { suffixes := fun n => r.suffixes (r.drawn + n) }
  if !(r.orchestrator k).busy then set { r with drawn := r.drawn + 1 }
  let p ← act k (Job.begin chance request)
  let p ← playProcess k runNested p
  let p ← tell k .resumed p
  let p ← playProcess k runNested p
  match ← tell k .resumed p with
  | .ended o => return o
  | .running j => abandon k j

/-- Performs a run, where scripted processes may start runs inside of each other up to a given
depth. -/
def performNested : Nat → Nat → Trigger → Play Verdict
  | depth, k, trigger =>
    match Request.ofTrigger trigger with
    | .error e => return .rejected e
    | .ok request => do
      let inner := match depth with
        | 0 => fun _ _ => failure
        | depth + 1 => performNested depth
      return .ended (← playRun k inner request)

/-- Performs a run: how it ends, or nothing if it had to be dropped. Each nested run takes a
script, so their number bounds the depth. -/
def perform (r : Rehearsal) (k : Nat) (trigger : Trigger) : Option Verdict × Rehearsal :=
  ((performNested r.scripts.length k trigger).run).run r

/-- The messages to the display. -/
def messages (r : Rehearsal) : List Message :=
  r.journal.filterMap fun
    | .happening (.message m) => some m
    | _ => none

end Rehearsal

end ScenePreview

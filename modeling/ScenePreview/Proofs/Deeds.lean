import ScenePreview.Proofs.Conduct

/-!
# Runs deed by deed

`Job.begin`, `Job.step` and `Job.drop` say what a run does between two of its waits as one
action.  To everybody else it is many: each change of state, each message, each process and
each change of files is seen on its own.  Here a run follows a plan, which is a list of such
deeds and a turn that the run takes after them.  Doing all of a plan at once is what the job
does.

## Main definitions

* `Deed`, `Deed.perform` — what a run does at once.
* `Turn`, `Plan` — the deeds that a run has before it, and what it does after them.
* `Plan.opening`, `Plan.afterCreate`, `Job.react`, `Job.dropping` — the plans of a run.

## Main results

* `Job.begin_eq_plan`, `Job.step_eq_plan`, `Job.drop_eq_plan` — a plan that is done at once is
  what the job does.
-/

namespace ScenePreview

/-- What a run does at once: nobody sees half of it. -/
inductive Deed where
  /-- The orchestrator takes a state. -/
  | advance (next : RunState)
  /-- A message to the display. -/
  | say (m : Message)
  /-- Warnings in the log. -/
  | warn (ws : List Warning)
  /-- A process is started. -/
  | start (c : Call)
  /-- The working directory goes. -/
  | discard (dir : Path)

/-- What a run does when it has no deeds left. -/
inductive Turn where
  /-- It makes its working directory. -/
  | create (chance : Chance) (request : Request)
  /-- It waits. -/
  | wait (j : Job)
  /-- It lets the orchestrator go and returns. -/
  | finish (o : Outcome)
  /-- It was dropped: it lets the orchestrator go and returns nothing. -/
  | vanish

/-- What a run has before it. -/
structure Plan where
  /-- What it does first, in order. -/
  deeds : List Deed := []
  /-- What it does then. -/
  turn : Turn

/-! ### Deeds -/

namespace Deed

/-- A deed is done. -/
def perform (s : Scope) : Deed → Scope
  | .advance next => s.advance next
  | .say m => s.say m
  | .warn ws => s.warn ws
  | .start c => s.start c
  | .discard dir => { s with host := WorkDir.remove s.host dir }

/-- One deed after the other is done. -/
def performAll (s : Scope) (ds : List Deed) : Scope := ds.foldl perform s

@[simp] theorem performAll_nil (s : Scope) : performAll s [] = s := rfl

@[simp] theorem performAll_cons (s : Scope) (d : Deed) (ds : List Deed) :
    performAll s (d :: ds) = performAll (d.perform s) ds := rfl

@[simp] theorem performAll_append (s : Scope) (ds ds' : List Deed) :
    performAll s (ds ++ ds') = performAll (performAll s ds) ds' := by
  rw [performAll, List.foldl_append]
  rfl

theorem performAll_say (s : Scope) (ms : List Message) :
    performAll s (ms.map .say) = s.sayAll ms := by
  induction ms generalizing s with
  | nil => simp
  | cons m ms ih => rw [List.map_cons, performAll_cons, ih, perform, Scope.sayAll_cons]

/-- No deed takes the orchestrator or lets it go. -/
@[simp] theorem busy_perform (s : Scope) (d : Deed) :
    (d.perform s).orchestrator.busy = s.orchestrator.busy := by
  cases d with
  | advance next => rw [perform, Scope.advance_eq]
  | say m => rfl
  | warn ws => rfl
  | start c => rfl
  | discard dir => rfl

end Deed

/-- The deeds that show a failure. -/
def Failure.deeds (f : Failure) : List Deed := .advance .failed :: f.messages.map .say

theorem Failure.performAll_deeds (f : Failure) (s : Scope) :
    Deed.performAll s f.deeds = s.report f := by
  rw [deeds, Deed.performAll_cons, Deed.performAll_say, Deed.perform, Scope.report_eq]

/-! ### Plans -/

namespace Plan

/-- What an accepted run does before it makes its working directory. -/
def opening (chance : Chance) (request : Request) : Plan :=
  { deeds := [.advance .slicing, .say .loading], turn := .create chance request }

/-- A run makes its working directory, and what it does then. -/
def afterCreate (chance : Chance) (request : Request) (s : Scope) : Scope × Plan :=
  let settings := s.orchestrator.settings
  match WorkDir.create s.host settings.workdirPrefix settings.tempRoot chance.suffixes with
  | .error e =>
    let f := Failure.workingDirectory e
    (s, { deeds := f.deeds, turn := .finish (.error f) })
  | .ok (dir, tree) =>
    let call := Slice.call settings request (WorkDir.scenePath dir)
    ({ s with host := { s.host with tree } },
      { deeds := [.say (.info (Job.announcement call.invocation)), .start call]
        turn := .wait (Orchestrator.firstJob chance request dir) })

theorem afterCreate_of_ok {chance : Chance} {request : Request} {s : Scope} {dir : Path}
    {tree : FileTree} (h : WorkDir.create s.host s.orchestrator.settings.workdirPrefix
      s.orchestrator.settings.tempRoot chance.suffixes = .ok (dir, tree)) :
    let call := Slice.call s.orchestrator.settings request (WorkDir.scenePath dir)
    afterCreate chance request s = ({ s with host := { s.host with tree } },
      { deeds := [.say (.info (Job.announcement call.invocation)), .start call]
        turn := .wait (Orchestrator.firstJob chance request dir) }) := by
  simp only [afterCreate, h]

@[simp] theorem orchestrator_afterCreate (chance : Chance) (request : Request) (s : Scope) :
    (afterCreate chance request s).1.orchestrator = s.orchestrator := by
  dsimp only [afterCreate]
  split <;> rfl

theorem journal_afterCreate (chance : Chance) (request : Request) (s : Scope) :
    (afterCreate chance request s).1.journal = s.journal := by
  dsimp only [afterCreate]
  split <;> rfl

/-- A plan is done at once: where its run stands then, if it waits or has returned. -/
def close (p : Plan) (s : Scope) : Option (Progress × Scope) :=
  let s := Deed.performAll s p.deeds
  match p.turn with
  | .wait j => some (.running j, s)
  | .finish o => some (.ended o, s.release)
  | .create .. | .vanish => none

/-- A plan that ends in a wait or in a result is not that of a run that was dropped. -/
theorem turn_ne_vanish {p : Plan} {s : Scope} {r : Progress × Scope} (h : p.close s = some r) :
    p.turn ≠ .vanish := by
  intro hp
  rw [close, hp] at h
  cases h

/-- A run that has tried to make its working directory will wait or return. -/
theorem exists_close_afterCreate (chance : Chance) (request : Request) (s : Scope) :
    ∃ r, (afterCreate chance request s).2.close (afterCreate chance request s).1 = some r := by
  dsimp only [afterCreate]
  split <;> exact ⟨_, rfl⟩

end Plan

namespace Job

/-- The plan of a job that fails. -/
def failing (j : Job) (f : Failure) (settings : Settings) : Plan :=
  { deeds := f.deeds ++ if settings.keepFailedWorkdir then [] else [.discard j.dir]
    turn := .finish (.error f) }

/-- The plan of a job that has found its video. -/
def succeeding (j : Job) (a : Artifact) : Plan :=
  { deeds := [.advance .succeeded, .say (.artifactReady a.locator), .say .logCleared]
    turn := .finish (.ok (j.run.succeed a j.completedAt)) }

/-- The plan of a job whose scene is there. -/
def handingOver (j : Job) (scene : Path) (settings : Settings) : Plan :=
  { deeds := [.advance .rendering,
      .start (Render.call settings scene j.dir j.request.environment)]
    turn := .wait { j with phase := .rendering, run := { j.run with state := .rendering } } }

/-- The plan of a job that is told something. -/
def react (j : Job) (signal : Signal) (s : Scope) : Plan :=
  let settings := s.orchestrator.settings
  match j.phase, signal with
  | .slicing, .exited r =>
    match Slice.settle r with
    | .error f => j.failing f settings
    | .ok stderr => { turn := .wait { j with phase := .confirming stderr } }
  | .confirming stderr, .resumed =>
    let scene := WorkDir.scenePath j.dir
    match Slice.confirm (s.host.exists scene) stderr scene with
    | .error f => j.failing f settings
    | .ok scene => j.handingOver scene settings
  | .rendering, .output c => { deeds := [.say (.log c.text)], turn := .wait j }
  | .rendering, .exited r =>
    match Render.settle r with
    | .error f => j.failing f settings
    | .ok stderr => { turn := .wait { j with phase := .searching stderr } }
  | .searching stderr, .resumed =>
    let dir := Render.artifactDir j.dir (WorkDir.scenePath j.dir)
    match Artifact.find s.host dir stderr with
    | (.error f, ws) =>
      { j.failing f settings with deeds := .warn ws :: (j.failing f settings).deeds }
    | (.ok a, ws) => { j.succeeding a with deeds := .warn ws :: (j.succeeding a).deeds }
  | _, _ => { turn := .wait j }

/-- The plan of a job that is given up. -/
def dropping (j : Job) : Plan := { deeds := [.discard j.dir], turn := .vanish }

theorem close_failing (j : Job) (f : Failure) (s : Scope) :
    (j.failing f s.orchestrator.settings).close s = some (j.fail f s) := by
  have hsettings : (s.report f).orchestrator.settings = s.orchestrator.settings := by
    rw [Scope.report_eq, Scope.advance_eq]
    rfl
  rw [fail, hsettings]
  by_cases h : s.orchestrator.settings.keepFailedWorkdir <;>
    simp [Plan.close, failing, Failure.performAll_deeds, h, Deed.perform]

theorem close_succeeding (j : Job) (a : Artifact) (s : Scope) :
    (j.succeeding a).close s = some (j.succeed a s) := rfl

theorem close_handingOver (j : Job) (scene : Path) (s : Scope) :
    (j.handingOver scene s.orchestrator.settings).close s = some (j.render scene s) := by
  have hsettings : (s.advance .rendering).orchestrator.settings = s.orchestrator.settings := by
    rw [Scope.advance_eq]
  rw [render, hsettings]
  rfl

end Job

/-! ### Plans and jobs -/

namespace Job

/-- A run that is rejected does nothing. -/
theorem begin_of_busy (chance : Chance) (request : Request) {s : Scope}
    (h : s.orchestrator.busy = true) :
    Job.begin chance request s = (.ended (.error .runInFlight), s) := by
  rw [Job.begin, if_pos h]

/-- A run that nobody disturbs begins as the job does. -/
theorem begin_eq_plan (chance : Chance) (request : Request) {s : Scope}
    (h : s.orchestrator.busy = false) :
    let made := Plan.afterCreate chance request
      (Deed.performAll s.acquire (Plan.opening chance request).deeds)
    made.2.close made.1 = some (Job.begin chance request s) := by
  change (Plan.afterCreate chance request (Orchestrator.opened s)).2.close
    (Plan.afterCreate chance request (Orchestrator.opened s)).1 = _
  cases hdir : WorkDir.create s.host s.orchestrator.settings.workdirPrefix
      s.orchestrator.settings.tempRoot chance.suffixes with
  | error e =>
    simp [Plan.afterCreate, Orchestrator.begin_of_error h hdir, hdir, Plan.close,
      Failure.performAll_deeds]
  | ok made =>
    obtain ⟨dir, tree⟩ := made
    simp [Plan.afterCreate, Orchestrator.begin_of_ok h hdir, hdir, Plan.close, Deed.perform,
      Orchestrator.announced]

/-- A run that nobody disturbs answers as the job does. -/
theorem step_eq_plan (j : Job) (signal : Signal) (s : Scope) :
    (j.react signal s).close s = some (j.step signal s) := by
  -- what a job does not wait for changes nothing on either side
  obtain ⟨request, run, dir, completedAt, phase⟩ := j
  cases phase with
  | slicing =>
    cases signal with
    | exited r =>
      unfold react step
      dsimp only
      cases Slice.settle r with
      | error f => exact close_failing _ f s
      | ok stderr => rfl
    | output c => rfl
    | resumed => rfl
  | confirming stderr =>
    cases signal with
    | resumed =>
      unfold react step
      dsimp only
      cases Slice.confirm (s.host.exists (WorkDir.scenePath dir)) stderr
        (WorkDir.scenePath dir) with
      | error f => exact close_failing _ f s
      | ok scene => exact close_handingOver _ scene s
    | output c => rfl
    | exited r => rfl
  | rendering =>
    cases signal with
    | exited r =>
      unfold react step
      dsimp only
      cases Render.settle r with
      | error f => exact close_failing _ f s
      | ok stderr => rfl
    | output c => rfl
    | resumed => rfl
  | searching stderr =>
    cases signal with
    | resumed =>
      unfold react step
      dsimp only
      rcases Artifact.find s.host (Render.artifactDir dir (WorkDir.scenePath dir)) stderr with
        ⟨f | a, ws⟩
      · exact close_failing _ f (s.warn ws)
      · exact close_succeeding _ a (s.warn ws)
    | output c => rfl
    | exited r => rfl

/-- A run that nobody disturbs is given up as the job is. -/
theorem drop_eq_plan (j : Job) (s : Scope) :
    (Deed.performAll s j.dropping.deeds).release = j.drop s := rfl

end Job

end ScenePreview

import Mathlib
import ScenePreview.Pipeline.Conduct

/-!
# What a run tells its display

A run is conducted signal by signal.  Here it is said stage by stage: what a process leaves
decides whether its stage has failed, and that decides everything the display is told.

## Main definitions

* `Slice.outcome`, `Render.outcome` — what comes of a stage whose process has ended.
* `Failure.messages` — what the display is told of a failure.

## Main results

* `Job.play_of_slicing`, `Job.play_of_rendering` — a stage, from its process to its outcome.
* `Orchestrator.conduct_messages` — **all messages of a run, in order.**
-/

namespace ScenePreview

/-! ### Stages -/

/-- The scene that a transformer left, or why there is none. -/
def Slice.outcome (ran : Ran) (scene : Path) : Except Failure Path :=
  match Slice.settle ran.result with
  | .error f => .error f
  | .ok stderr => Slice.confirm (ran.host.exists scene) stderr scene

theorem Slice.eq_of_outcome {ran : Ran} {scene scene' : Path}
    (h : Slice.outcome ran scene = .ok scene') : scene' = scene := by
  unfold Slice.outcome Slice.confirm at h
  split at h
  · cases h
  · split at h
    · exact (Except.ok.inj h).symm
    · cases h

/-- The video that a renderer left, or why there is none, and the warnings on the way. -/
def Render.outcome (ran : Ran) (workdir scene : Path) : Except Failure Artifact × List Warning :=
  match Render.settle ran.result with
  | .error f => (.error f, [])
  | .ok stderr => Artifact.find ran.host (Render.artifactDir workdir scene) stderr

/-- What the display is told of a failure: a notice, and the diagnostic text if there is any. -/
def Failure.messages (f : Failure) : List Message :=
  .error f.message :: match f.stderr? with
    | some stderr => if stderr = "" then [] else [.log stderr]
    | none => []

/-- What the display is told of the output of a renderer, one message for each chunk. -/
def Ran.logs (ran : Ran) : List Message := ran.chunks.map fun c => .log c.text

/-! ### Messages -/

/-- Whether a video is shown by one of the messages. -/
def ShowsVideo (ms : List Message) : Prop := ∃ uri, .artifactReady uri ∈ ms

@[simp] theorem showsVideo_append (ms ms' : List Message) :
    ShowsVideo (ms ++ ms') ↔ ShowsVideo ms ∨ ShowsVideo ms' := by
  simp [ShowsVideo, exists_or]

@[simp] theorem showsVideo_nil : ¬ ShowsVideo [] := by
  simp [ShowsVideo]

@[simp] theorem showsVideo_loading (ms : List Message) :
    ShowsVideo (.loading :: ms) ↔ ShowsVideo ms := by
  simp [ShowsVideo, Message.artifactReady, Message.loading]

@[simp] theorem showsVideo_notice (n : Notice) (ms : List Message) :
    ShowsVideo (.notice n :: ms) ↔ ShowsVideo ms := by
  simp [ShowsVideo, Message.artifactReady]

@[simp] theorem showsVideo_artifactReady (uri : String) (ms : List Message) :
    ShowsVideo (.artifactReady uri :: ms) :=
  ⟨uri, List.mem_cons_self⟩

@[simp] theorem showsVideo_failure (f : Failure) : ¬ ShowsVideo f.messages := by
  unfold Failure.messages
  split
  · split <;> simp [Message.error, ShowsVideo, Message.artifactReady, Message.log]
  · simp [Message.error]

@[simp] theorem showsVideo_logs (ran : Ran) : ¬ ShowsVideo ran.logs := by
  simp [ShowsVideo, Ran.logs, Message.artifactReady, Message.log]

namespace Scope

/-- Several messages to the display. -/
def sayAll (s : Scope) (ms : List Message) : Scope :=
  { s with journal := s.journal ++ ms.map .message }

theorem sayAll_cons (s : Scope) (m : Message) (ms : List Message) :
    s.sayAll (m :: ms) = (s.say m).sayAll ms := by
  simp [sayAll, say, record]

@[simp] theorem sayAll_nil (s : Scope) : s.sayAll [] = s := by
  simp [sayAll]

@[simp] theorem warn_nil (s : Scope) : s.warn [] = s := by
  simp [warn]

/-- A change of state touches the state and the journal only. -/
theorem advance_eq (s : Scope) (next : RunState) :
    s.advance next =
      { s with
        orchestrator := { s.orchestrator with state := next }
        journal := s.journal ++ if s.orchestrator.state.leadsTo next then []
          else [.warning (.transition s.orchestrator.state next)] } := by
  by_cases h : s.orchestrator.state.leadsTo next <;> simp [advance, warn, h]

theorem report_eq (s : Scope) (f : Failure) :
    s.report f = (s.advance .failed).sayAll f.messages := by
  simp only [report, Failure.messages, sayAll_cons]
  cases f.stderr? with
  | none => simp
  | some stderr => by_cases h : stderr = "" <;> simp [h, sayAll_cons]

@[simp] theorem messages_sayAll (s : Scope) (ms : List Message) :
    (s.sayAll ms).messages = s.messages ++ ms := by
  simp only [messages, sayAll, List.filterMap_append, List.filterMap_map]
  exact congrArg _ List.filterMap_some

@[simp] theorem messages_say (s : Scope) (m : Message) :
    (s.say m).messages = s.messages ++ [m] := by
  simp [messages, say, record]

@[simp] theorem messages_warn (s : Scope) (ws : List Warning) :
    (s.warn ws).messages = s.messages := by
  simp [messages, warn, List.filterMap_map]

@[simp] theorem messages_start (s : Scope) (c : Call) : (s.start c).messages = s.messages := by
  simp [messages, start, record]

@[simp] theorem messages_advance (s : Scope) (next : RunState) :
    (s.advance next).messages = s.messages := by
  rw [advance_eq]
  by_cases h : s.orchestrator.state.leadsTo next <;> simp [messages, h]

@[simp] theorem messages_report (s : Scope) (f : Failure) :
    (s.report f).messages = s.messages ++ f.messages := by
  rw [report_eq, messages_sayAll, messages_advance]

end Scope

/-! ### The steps of a job -/

namespace Job

variable {j : Job} (s : Scope)

theorem step_slicing_output (h : j.phase = .slicing) (c : Chunk) :
    j.step (.output c) s = (.running j, s) := by
  unfold step
  simp only [h]

theorem step_slicing_exited (h : j.phase = .slicing) (r : Except ProcessError ProcessResult) :
    j.step (.exited r) s = match Slice.settle r with
      | .error f => j.fail f s
      | .ok stderr => (.running { j with phase := .confirming stderr }, s) := by
  obtain ⟨request, run, dir, completedAt, phase⟩ := j
  obtain rfl : phase = _ := h
  rfl

theorem step_confirming_resumed {stderr : String} (h : j.phase = .confirming stderr) :
    j.step .resumed s = match Slice.confirm (s.host.exists (WorkDir.scenePath j.dir)) stderr
        (WorkDir.scenePath j.dir) with
      | .error f => j.fail f s
      | .ok scene => j.render scene s := by
  obtain ⟨request, run, dir, completedAt, phase⟩ := j
  obtain rfl : phase = _ := h
  rfl

theorem step_rendering_output (h : j.phase = .rendering) (c : Chunk) :
    j.step (.output c) s = (.running j, s.say (.log c.text)) := by
  unfold step
  simp only [h]

theorem step_rendering_exited (h : j.phase = .rendering)
    (r : Except ProcessError ProcessResult) :
    j.step (.exited r) s = match Render.settle r with
      | .error f => j.fail f s
      | .ok stderr => (.running { j with phase := .searching stderr }, s) := by
  obtain ⟨request, run, dir, completedAt, phase⟩ := j
  obtain rfl : phase = _ := h
  rfl

theorem step_searching_resumed {stderr : String} (h : j.phase = .searching stderr) :
    j.step .resumed s =
      match Artifact.find s.host (Render.artifactDir j.dir (WorkDir.scenePath j.dir)) stderr with
      | (.error f, ws) => j.fail f (s.warn ws)
      | (.ok a, ws) => j.succeed a (s.warn ws) := by
  obtain ⟨request, run, dir, completedAt, phase⟩ := j
  obtain rfl : phase = _ := h
  rfl

/-- What a transformer writes changes nothing. -/
theorem foldl_output_slicing (h : j.phase = .slicing) (cs : List Chunk) :
    cs.foldl (fun s c => (j.step (.output c) s).2) s = s := by
  induction cs with
  | nil => rfl
  | cons c cs ih => rw [List.foldl_cons, step_slicing_output _ h, ih]

/-- What a renderer writes goes to the log, piece by piece. -/
theorem foldl_output_rendering (h : j.phase = .rendering) (cs : List Chunk) :
    cs.foldl (fun s c => (j.step (.output c) s).2) s = s.sayAll (cs.map fun c => .log c.text) := by
  induction cs generalizing s with
  | nil => simp
  | cons c cs ih =>
    rw [List.foldl_cons, step_rendering_output _ h, ih, List.map_cons, Scope.sayAll_cons]

/-- The first stage: the transformer runs, and what it left decides how the run goes on. -/
theorem play_of_slicing (runner : Runner) (h : j.phase = .slicing) :
    j.play runner s =
      let scene := WorkDir.scenePath j.dir
      let ran := runner s.host (Slice.call s.orchestrator.settings j.request scene)
      match Slice.outcome ran scene with
      | .error f => j.fail f { s with host := ran.host }
      | .ok scene => j.render scene { s with host := ran.host } := by
  have hcall : j.call s.orchestrator.settings
      = Slice.call s.orchestrator.settings j.request (WorkDir.scenePath j.dir) := by
    simp only [call, h]
  simp only [play, hcall, foldl_output_slicing _ h, step_slicing_exited _ h, Slice.outcome]
  generalize runner s.host _ = ran
  cases Slice.settle ran.result with
  | error f => rfl
  | ok stderr => exact step_confirming_resumed _ rfl

/-- The second stage: the renderer runs, and what it left decides how the run ends. -/
theorem play_of_rendering (runner : Runner) (h : j.phase = .rendering) :
    j.play runner s =
      let scene := WorkDir.scenePath j.dir
      let ran := runner s.host
        (Render.call s.orchestrator.settings scene j.dir j.request.environment)
      let s := { s with host := ran.host }.sayAll ran.logs
      match Render.outcome ran j.dir scene with
      | (.error f, ws) => j.fail f (s.warn ws)
      | (.ok a, ws) => j.succeed a (s.warn ws) := by
  have hcall : j.call s.orchestrator.settings = Render.call s.orchestrator.settings
      (WorkDir.scenePath j.dir) j.dir j.request.environment := by
    simp only [call, h]
  simp only [play, hcall, foldl_output_rendering _ h, step_rendering_exited _ h, Render.outcome,
    Ran.logs]
  generalize runner s.host _ = ran
  cases Render.settle ran.result with
  | error f =>
    simp only [Scope.warn_nil]
    rfl
  | ok stderr => exact step_searching_resumed _ rfl

@[simp] theorem messages_fail (f : Failure) :
    (j.fail f s).2.messages = s.messages ++ f.messages := by
  by_cases h : (s.report f).orchestrator.settings.keepFailedWorkdir <;>
    simp only [fail, h, if_true] <;>
    exact Scope.messages_report s f

@[simp] theorem messages_succeed (a : Artifact) :
    (j.succeed a s).2.messages = s.messages ++ [.artifactReady a.locator, .logCleared] := by
  calc (j.succeed a s).2.messages
    _ = (((s.advance .succeeded).say (.artifactReady a.locator)).say .logCleared).messages := rfl
    _ = s.messages ++ [.artifactReady a.locator, .logCleared] := by simp

end Job

/-! ### Whole runs -/

namespace Orchestrator

/-- The scope of an accepted run before it makes its working directory. -/
def opened (s : Scope) : Scope := (s.acquire.advance .slicing).say .loading

@[simp] theorem settings_opened (s : Scope) :
    (opened s).orchestrator.settings = s.orchestrator.settings := by
  simp [opened, Scope.advance_eq, Scope.say, Scope.record, Scope.acquire]

@[simp] theorem host_opened (s : Scope) : (opened s).host = s.host := by
  simp [opened, Scope.advance_eq, Scope.say, Scope.record, Scope.acquire]

@[simp] theorem messages_opened (s : Scope) : (opened s).messages = s.messages ++ [.loading] := by
  rw [opened, Scope.messages_say, Scope.messages_advance]
  rfl

/-- The job of an accepted run in its working directory. -/
def firstJob (chance : Chance) (request : Request) (dir : Path) : Job :=
  { request
    run :=
      { id := chance.id, state := .slicing, startedAt := chance.startedAt, workdir := some dir }
    dir
    completedAt := chance.completedAt }

/-- The same job when its renderer runs. -/
def secondJob (chance : Chance) (request : Request) (dir : Path) : Job :=
  { firstJob chance request dir with
    phase := .rendering
    run := { (firstJob chance request dir).run with state := .rendering } }

section Stages

variable (runner : Runner) (chance : Chance) (request : Request) (s : Scope) (dir : Path)
  (tree : FileTree)

/-- The scope of an accepted run when its transformer starts. -/
def announced : Scope :=
  let call := Slice.call s.orchestrator.settings request (WorkDir.scenePath dir)
  ({ opened s with host := { s.host with tree } }.say
    (.info (Job.announcement call.invocation))).start call

@[simp] theorem settings_announced :
    (announced request s dir tree).orchestrator.settings = s.orchestrator.settings :=
  settings_opened s

@[simp] theorem messages_announced :
    (announced request s dir tree).messages = s.messages ++ [.loading,
      .info ("Running command: " ++ " ".intercalate
        (Slice.invocation s.orchestrator.settings request (WorkDir.scenePath dir)).argv)] := by
  rw [announced, Scope.messages_start, Scope.messages_say]
  change (opened s).messages ++ _ = _
  rw [messages_opened, List.append_assoc]
  rfl

/-- What the transformer of an accepted run leaves. -/
def sliced : Ran :=
  runner { s.host with tree }
    (Slice.call s.orchestrator.settings request (WorkDir.scenePath dir))

/-- What the renderer of an accepted run leaves. -/
def rendered : Ran :=
  runner (sliced runner request s dir tree).host (Render.call s.orchestrator.settings
    (WorkDir.scenePath dir) dir request.environment)

/-- The scope of an accepted run when its renderer starts. -/
def handedOver : Scope :=
  ({ announced request s dir tree with host := (sliced runner request s dir tree).host }.advance
    .rendering).start (Render.call s.orchestrator.settings (WorkDir.scenePath dir) dir
      request.environment)

@[simp] theorem settings_handedOver :
    (handedOver runner request s dir tree).orchestrator.settings = s.orchestrator.settings := by
  rw [handedOver, Scope.advance_eq]
  exact settings_announced request s dir tree

@[simp] theorem host_handedOver :
    (handedOver runner request s dir tree).host = (sliced runner request s dir tree).host := by
  rw [handedOver, Scope.advance_eq]
  rfl

@[simp] theorem messages_handedOver :
    (handedOver runner request s dir tree).messages = (announced request s dir tree).messages := by
  rw [handedOver, Scope.messages_start, Scope.messages_advance]
  rfl

/-- The scope of an accepted run when its renderer has ended. -/
def finished : Scope :=
  let ran := rendered runner request s dir tree
  { handedOver runner request s dir tree with host := ran.host }.sayAll ran.logs

@[simp] theorem messages_finished :
    (finished runner request s dir tree).messages
      = (announced request s dir tree).messages ++ (rendered runner request s dir tree).logs := by
  rw [finished, Scope.messages_sayAll, ← messages_handedOver]
  rfl

theorem play_firstJob :
    (firstJob chance request dir).play runner (announced request s dir tree) =
      match Slice.outcome (sliced runner request s dir tree) (WorkDir.scenePath dir) with
      | .error f => (firstJob chance request dir).fail f
          { announced request s dir tree with host := (sliced runner request s dir tree).host }
      | .ok scene => (firstJob chance request dir).render scene
          { announced request s dir tree with
            host := (sliced runner request s dir tree).host } := by
  have h := Job.play_of_slicing (j := firstJob chance request dir)
    (announced request s dir tree) runner rfl
  rw [settings_announced] at h
  exact h

theorem render_firstJob :
    (firstJob chance request dir).render (WorkDir.scenePath dir)
        { announced request s dir tree with host := (sliced runner request s dir tree).host } =
      (.running (secondJob chance request dir), handedOver runner request s dir tree) := by
  simp only [Job.render, Scope.advance_eq, settings_announced, handedOver]
  rfl

theorem play_secondJob :
    (secondJob chance request dir).play runner (handedOver runner request s dir tree) =
      match Render.outcome (rendered runner request s dir tree) dir (WorkDir.scenePath dir) with
      | (.error f, ws) => (secondJob chance request dir).fail f
          ((finished runner request s dir tree).warn ws)
      | (.ok a, ws) => (secondJob chance request dir).succeed a
          ((finished runner request s dir tree).warn ws) := by
  have h := Job.play_of_rendering (j := secondJob chance request dir)
    (handedOver runner request s dir tree) runner rfl
  rw [settings_handedOver, host_handedOver] at h
  exact h

variable {runner s request dir tree}

/-- What the display is told by a second stage that fails. -/
theorem messages_secondJob_of_error {f : Failure}
    (h : (Render.outcome (rendered runner request s dir tree) dir (WorkDir.scenePath dir)).1
      = .error f) :
    let result := (secondJob chance request dir).play runner (handedOver runner request s dir tree)
    result.1 = .ended (.error f) ∧
      result.2.messages = (announced request s dir tree).messages
        ++ ((rendered runner request s dir tree).logs ++ f.messages) := by
  rw [play_secondJob]
  rcases ho : Render.outcome (rendered runner request s dir tree) dir (WorkDir.scenePath dir)
    with ⟨f' | a, ws⟩ <;> rw [ho] at h <;> cases h
  exact ⟨rfl, by simp⟩

/-- What the display is told by a second stage that finds a video. -/
theorem messages_secondJob_of_ok {a : Artifact}
    (h : (Render.outcome (rendered runner request s dir tree) dir (WorkDir.scenePath dir)).1
      = .ok a) :
    let result := (secondJob chance request dir).play runner (handedOver runner request s dir tree)
    (∃ run, result.1 = .ended (.ok run) ∧ run.artifact = some a) ∧
      result.2.messages = (announced request s dir tree).messages
        ++ ((rendered runner request s dir tree).logs
          ++ [.artifactReady a.locator, .logCleared]) := by
  rw [play_secondJob]
  rcases ho : Render.outcome (rendered runner request s dir tree) dir (WorkDir.scenePath dir)
    with ⟨f | a', ws⟩ <;> rw [ho] at h <;> cases h
  exact ⟨⟨_, rfl, rfl⟩, by simp⟩

end Stages

section Equations

variable {chance : Chance} {request : Request} {s : Scope}
  (hfree : s.orchestrator.busy = false)
include hfree

theorem begin_of_error {e : IoError}
    (he : WorkDir.create s.host s.orchestrator.settings.workdirPrefix
      s.orchestrator.settings.tempRoot chance.suffixes = .error e) :
    Job.begin chance request s = (.ended (.error (.workingDirectory e)),
      ((opened s).report (.workingDirectory e)).release) := by
  rw [Job.begin, if_neg (by simp [hfree]), ← opened]
  simp only [settings_opened, host_opened, he]

theorem begin_of_ok {dir : Path} {tree : FileTree}
    (hdir : WorkDir.create s.host s.orchestrator.settings.workdirPrefix
      s.orchestrator.settings.tempRoot chance.suffixes = .ok (dir, tree)) :
    Job.begin chance request s =
      (.running (firstJob chance request dir), announced request s dir tree) := by
  rw [Job.begin, if_neg (by simp [hfree]), ← opened]
  simp only [settings_opened, host_opened, hdir, firstJob, announced]

variable (runner : Runner)

theorem conduct_of_error {e : IoError}
    (he : WorkDir.create s.host s.orchestrator.settings.workdirPrefix
      s.orchestrator.settings.tempRoot chance.suffixes = .error e) :
    conduct runner chance request s = (.ended (.error (.workingDirectory e)),
      ((opened s).report (.workingDirectory e)).release) := by
  rw [conduct, begin_of_error hfree he]

theorem conduct_of_unsliced {dir : Path} {tree : FileTree} {f : Failure}
    (hdir : WorkDir.create s.host s.orchestrator.settings.workdirPrefix
      s.orchestrator.settings.tempRoot chance.suffixes = .ok (dir, tree))
    (hs : Slice.outcome (sliced runner request s dir tree) (WorkDir.scenePath dir) = .error f) :
    conduct runner chance request s = (firstJob chance request dir).fail f
      { announced request s dir tree with host := (sliced runner request s dir tree).host } := by
  simp only [conduct, begin_of_ok hfree hdir, play_firstJob, hs]
  rfl

theorem conduct_of_sliced {dir scene : Path} {tree : FileTree}
    (hdir : WorkDir.create s.host s.orchestrator.settings.workdirPrefix
      s.orchestrator.settings.tempRoot chance.suffixes = .ok (dir, tree))
    (hs : Slice.outcome (sliced runner request s dir tree) (WorkDir.scenePath dir) = .ok scene) :
    conduct runner chance request s =
      (secondJob chance request dir).play runner (handedOver runner request s dir tree) := by
  obtain rfl := Slice.eq_of_outcome hs
  simp only [conduct, begin_of_ok hfree hdir, play_firstJob, hs, render_firstJob]

end Equations

/-- **All messages of a run, in order.**  A run that is accepted first shows that it loads.
Without a working directory it reports that failure and nothing else.  Otherwise it announces
the transformer; a failure of the slice is reported next, and what the transformer wrote never
shows.  Then each chunk of the renderer's output is one message, and at the end there is either
the video and a log that is emptied, or the report of the failure that the run returns.  So a
video is shown exactly by the runs that end with one. -/
theorem conduct_messages (runner : Runner) (chance : Chance) (request : Request) {s : Scope}
    (hfree : s.orchestrator.busy = false) :
    let settings := s.orchestrator.settings
    let result := conduct runner chance request s
    ∃ told : List Message, result.2.messages = s.messages ++ told ∧
      (ShowsVideo told ↔ ∃ run, result.1 = .ended (.ok run)) ∧
      match WorkDir.create s.host settings.workdirPrefix settings.tempRoot chance.suffixes with
      | .error e =>
        result.1 = .ended (.error (.workingDirectory e)) ∧
          told = [.loading, .error (Failure.workingDirectory e).message]
      | .ok (dir, tree) =>
        let scene := WorkDir.scenePath dir
        let opening : List Message := [.loading, .info ("Running command: " ++
          " ".intercalate (Slice.invocation settings request scene).argv)]
        let sliced := runner { s.host with tree } (Slice.call settings request scene)
        match Slice.outcome sliced scene with
        | .error f => result.1 = .ended (.error f) ∧ told = opening ++ f.messages
        | .ok scene =>
          let rendered := runner sliced.host
            (Render.call settings scene dir request.environment)
          match (Render.outcome rendered dir scene).1 with
          | .error f =>
            result.1 = .ended (.error f) ∧ told = opening ++ (rendered.logs ++ f.messages)
          | .ok a =>
            (∃ run, result.1 = .ended (.ok run) ∧ run.artifact = some a) ∧
              told = opening ++ (rendered.logs ++ [.artifactReady a.locator, .logCleared]) := by
  intro settings result
  cases hdir : WorkDir.create s.host settings.workdirPrefix settings.tempRoot chance.suffixes with
  | error e =>
    have hrun : result = _ := conduct_of_error hfree runner hdir
    rw [hrun]
    refine ⟨_, ?_, ?_, rfl, rfl⟩
    · change ((opened s).report _).messages = _
      rw [Scope.messages_report, messages_opened, List.append_assoc]
      rfl
    · simp [Message.error]
  | ok made =>
    obtain ⟨dir, tree⟩ := made
    -- the processes of the statement are those of the equations
    change ∃ told, _ ∧ _ ∧
      match Slice.outcome (sliced runner request s dir tree) (WorkDir.scenePath dir) with
      | .error f => _
      | .ok scene => _
    cases hs : Slice.outcome (sliced runner request s dir tree) (WorkDir.scenePath dir) with
    | error f =>
      have hrun : result = _ := conduct_of_unsliced hfree runner hdir hs
      have hend : result.1 = .ended (.error f) := by
        rw [hrun]
        rfl
      refine ⟨_, ?_, by simp [hend, Message.info], hend, rfl⟩
      rw [hrun, Job.messages_fail, ← List.append_assoc, ← messages_announced]
      rfl
    | ok scene =>
      have hrun : result = _ := conduct_of_sliced hfree runner hdir hs
      obtain rfl := Slice.eq_of_outcome hs
      change ∃ told, _ ∧ _ ∧ match (Render.outcome (rendered runner request s dir tree) dir
        (WorkDir.scenePath dir)).1 with
        | .error f => _
        | .ok scene => _
      cases ho : (Render.outcome (rendered runner request s dir tree) dir
        (WorkDir.scenePath dir)).1 with
      | error f =>
        obtain ⟨hend, htold⟩ := messages_secondJob_of_error chance ho
        rw [← hrun] at hend htold
        refine ⟨_, ?_, by simp [hend, Message.info], hend, rfl⟩
        rw [htold, messages_announced, List.append_assoc]
        rfl
      | ok a =>
        obtain ⟨⟨run, hend, ha⟩, htold⟩ := messages_secondJob_of_ok chance ho
        rw [← hrun] at hend htold
        refine ⟨_, ?_, ?_, ⟨run, hend, ha⟩, rfl⟩
        · rw [htold, messages_announced, List.append_assoc]
          rfl
        · simp [hend, Message.info]

/-- A transformer that writes something and does not find its line. -/
def lostRunner : Runner := fun h _ =>
  { chunks := [⟨.stdout, "reading"⟩]
    result := .ok { exitCode := 1, stderr := "Traceback\nno such line\n" }
    host := h }

/-- A run whose transformer fails: its output does not show, its diagnostic text does. -/
theorem conduct_messages_lostRunner :
    let s : Scope :=
      { orchestrator := { settings :=
          { tempRoot := some (Path.ofString "/"), workdirPrefix := "" } }
        host := {} }
    s.orchestrator.busy = false ∧
      (conduct lostRunner { suffixes := fun _ => "1" } ⟨"", 3, none, by decide⟩ s).2.messages =
        [.loading, .info "Running command: python transformer.py /1/temp_scene.py 3",
          .error "Slice extraction failed: no such line", .log "Traceback\nno such line\n"] := by
  intro s
  obtain ⟨told, htold, -, hcase⟩ := conduct_messages lostRunner { suffixes := fun _ => "1" }
    ⟨"", 3, none, by decide⟩ (s := s) rfl
  have hdir : WorkDir.create s.host s.orchestrator.settings.workdirPrefix
      s.orchestrator.settings.tempRoot (fun _ => "1") = .ok (Path.ofString "/1",
        ⟨[([Text.Utf8.encode "1"], .directory)]⟩) := by cbv
  have hs : ∀ h c scene, Slice.outcome (lostRunner h c) scene
      = .error (.sliceExtraction "Traceback\nno such line\n") := fun _ _ _ => rfl
  have hargv : (Slice.invocation s.orchestrator.settings ⟨"", 3, none, by decide⟩
      (WorkDir.scenePath (Path.ofString "/1"))).argv
        = ["python", "transformer.py", "/1/temp_scene.py", "3"] := by cbv
  have hsum : summary "Traceback\nno such line\n" = "no such line" := by cbv
  have hfail : (Failure.sliceExtraction "Traceback\nno such line\n").messages =
      [.error ("Slice extraction failed: " ++ summary "Traceback\nno such line\n"),
        .log "Traceback\nno such line\n"] := rfl
  simp only [hdir, hs, hargv, hfail, hsum] at hcase
  refine ⟨rfl, ?_⟩
  rw [htold, hcase.2]
  rfl

end Orchestrator

end ScenePreview

import ScenePreview.Proofs.Conduct
import ScenePreview.Proofs.Path

/-!
# The processes of a run

A run starts no process, one, or two, and which they are is settled before it begins: they
depend on the settings, the request and the working directory.  What a process leaves decides
only whether another one follows.

## Main definitions

* `Scope.calls` — the processes that were started.
* `Invocation.leading` — what stands before a tool that runs in an environment.
* `Ran.EndedWell` — a process that ended with exit code zero.

## Main results

* `Slice.argv_invocation`, `Render.argv_invocation` — the command lines.
* `Slice.exists_outcome_iff` — when the scene is there.
* `Orchestrator.conduct_congr` — a run asks its runner for nothing but its own processes.
* `Orchestrator.conduct_calls` — **all processes of a run, in order.**
-/

namespace ScenePreview

/-! ### Command lines -/

namespace Invocation

/-- What stands before a tool that runs in an environment; nothing if there is none. -/
def leading (environment : Option String) (launcher : String) : List String :=
  match environment with
  | some name => [launcher, "run", "-n", name]
  | none => []

theorem argv_ofTool (tool : String) (environment : Option String) (launcher : String) :
    (ofTool tool environment launcher).argv = leading environment launcher ++ [tool] := by
  cases environment <;> rfl

@[simp] theorem argv_addArgs (i : Invocation) (as : List String) :
    (i.addArgs as).argv = i.argv ++ as := rfl

end Invocation

theorem Text.decimal_eq_toString (n : Nat) : Text.decimal n = toString n := rfl

theorem Slice.argv_invocation (settings : Settings) (request : Request) (scene : Path) :
    (Slice.invocation settings request scene).argv =
      Invocation.leading request.environment settings.launcher ++
        [settings.interpreter, settings.transformer.display, scene.display,
          toString request.targetLine.toNat] := by
  rw [Slice.invocation, Invocation.argv_addArgs, Invocation.argv_ofTool, List.append_assoc,
    Text.decimal_eq_toString]
  rfl

theorem Render.argv_invocation_name (settings : Settings) (scene : Path)
    (environment : Option String) :
    (Render.invocation settings scene environment).argv =
      Invocation.leading environment settings.launcher ++
        [settings.renderer, "-pql", Render.sceneName scene] := by
  rw [Render.invocation, Invocation.argv_addArgs, Invocation.argv_ofTool, List.append_assoc]
  rfl

theorem Render.argv_invocation (settings : Settings) (dir : Path) (environment : Option String) :
    (Render.invocation settings (WorkDir.scenePath dir) environment).argv =
      Invocation.leading environment settings.launcher ++
        [settings.renderer, "-pql", "temp_scene.py"] := by
  rw [argv_invocation_name, sceneName_scenePath]

/-! ### Calls in the journal -/

/-- The processes that were started, oldest first. -/
def Scope.calls (s : Scope) : List Call :=
  s.journal.filterMap fun
    | .call c _ => some c
    | _ => none

namespace Scope

@[simp] theorem calls_say (s : Scope) (m : Message) : (s.say m).calls = s.calls := by
  simp [calls, say, record]

@[simp] theorem calls_sayAll (s : Scope) (ms : List Message) : (s.sayAll ms).calls = s.calls := by
  simp [calls, sayAll, List.filterMap_map]

@[simp] theorem calls_warn (s : Scope) (ws : List Warning) : (s.warn ws).calls = s.calls := by
  simp [calls, warn, List.filterMap_map]

@[simp] theorem calls_start (s : Scope) (c : Call) : (s.start c).calls = s.calls ++ [c] := by
  simp [calls, start, record]

@[simp] theorem calls_advance (s : Scope) (next : RunState) :
    (s.advance next).calls = s.calls := by
  rw [advance_eq]
  by_cases h : s.orchestrator.state.leadsTo next <;> simp [calls, h]

@[simp] theorem calls_report (s : Scope) (f : Failure) : (s.report f).calls = s.calls := by
  rw [report_eq, calls_sayAll, calls_advance]

end Scope

namespace Job

variable (j : Job) (s : Scope)

@[simp] theorem calls_fail (f : Failure) : (j.fail f s).2.calls = s.calls := by
  by_cases h : (s.report f).orchestrator.settings.keepFailedWorkdir <;>
    simp only [fail, h, if_true] <;>
    exact Scope.calls_report s f

@[simp] theorem calls_succeed (a : Artifact) : (j.succeed a s).2.calls = s.calls := by
  calc (j.succeed a s).2.calls
    _ = (((s.advance .succeeded).say (.artifactReady a.locator)).say .logCleared).calls := rfl
    _ = s.calls := by simp

end Job

/-! ### The end of a process -/

/-- A process that could be run and ended with exit code zero. -/
def Ran.EndedWell (ran : Ran) : Prop := ∃ r, ran.result = .ok r ∧ r.exitCode = 0

theorem ProcessResult.success_iff (r : ProcessResult) : r.success = true ↔ r.exitCode = 0 := by
  rw [success, beq_iff_eq]

namespace Slice

variable {ran : Ran} {r : ProcessResult}

theorem outcome_of_error {e : ProcessError} (h : ran.result = .error e) (scene : Path) :
    Slice.outcome ran scene = .error (.ofRunner .slice e) := by
  rw [outcome, h, settle]

theorem outcome_of_nonzero (h : ran.result = .ok r) (hcode : r.exitCode ≠ 0) (scene : Path) :
    Slice.outcome ran scene = .error (.sliceExtraction r.stderr) := by
  rw [outcome, h, settle, if_neg fun hr => hcode (r.success_iff.1 hr)]

theorem outcome_of_zero (h : ran.result = .ok r) (hcode : r.exitCode = 0) (scene : Path) :
    Slice.outcome ran scene = Slice.confirm (ran.host.exists scene) r.stderr scene := by
  rw [outcome, h, settle, if_pos (r.success_iff.2 hcode)]

/-- The scene is there exactly after a transformer that ended well and left it. -/
theorem exists_outcome_iff (ran : Ran) (scene : Path) :
    (∃ scene', Slice.outcome ran scene = .ok scene') ↔
      ran.EndedWell ∧ ran.host.exists scene = true := by
  cases hresult : ran.result with
  | error e =>
    rw [outcome_of_error hresult]
    simp [Ran.EndedWell, hresult]
  | ok r =>
    by_cases hcode : r.exitCode = 0
    · rw [outcome_of_zero hresult hcode, confirm]
      cases hscene : ran.host.exists scene <;> simp [Ran.EndedWell, hresult, hcode]
    · rw [outcome_of_nonzero hresult hcode]
      simp [Ran.EndedWell, hresult, hcode]

end Slice

/-! ### Whole runs -/

namespace Orchestrator

section Stages

variable (runner : Runner) (request : Request) (s : Scope) (dir : Path) (tree : FileTree)

@[simp] theorem calls_opened : (opened s).calls = s.calls := by
  rw [opened, Scope.calls_say, Scope.calls_advance]
  rfl

@[simp] theorem calls_announced :
    (announced request s dir tree).calls = s.calls ++
      [Slice.call s.orchestrator.settings request (WorkDir.scenePath dir)] := by
  rw [announced, Scope.calls_start, Scope.calls_say]
  exact congrArg (· ++ _) (calls_opened s)

@[simp] theorem calls_handedOver :
    (handedOver runner request s dir tree).calls = (announced request s dir tree).calls ++
      [Render.call s.orchestrator.settings (WorkDir.scenePath dir) dir request.environment] := by
  rw [handedOver, Scope.calls_start, Scope.calls_advance]
  rfl

@[simp] theorem calls_finished :
    (finished runner request s dir tree).calls = (handedOver runner request s dir tree).calls := by
  rw [finished, Scope.calls_sayAll]
  rfl

theorem calls_secondJob (chance : Chance) :
    ((secondJob chance request dir).play runner (handedOver runner request s dir tree)).2.calls =
      (handedOver runner request s dir tree).calls := by
  rw [play_secondJob]
  split <;> simp

end Stages

variable {runner runner' : Runner} {chance : Chance} {request : Request} {s : Scope} {dir : Path}
  {tree : FileTree}

/-- The calls of a run that has no working directory. -/
theorem calls_of_error (hfree : s.orchestrator.busy = false) {e : IoError}
    (he : WorkDir.create s.host s.orchestrator.settings.workdirPrefix
      s.orchestrator.settings.tempRoot chance.suffixes = .error e) :
    (conduct runner chance request s).2.calls = s.calls := by
  rw [conduct_of_error hfree runner he]
  exact (Scope.calls_report ..).trans (calls_opened s)

/-- The calls of a run whose transformer left no scene. -/
theorem calls_of_unsliced (hfree : s.orchestrator.busy = false) {f : Failure}
    (hdir : WorkDir.create s.host s.orchestrator.settings.workdirPrefix
      s.orchestrator.settings.tempRoot chance.suffixes = .ok (dir, tree))
    (hs : Slice.outcome (sliced runner request s dir tree) (WorkDir.scenePath dir) = .error f) :
    (conduct runner chance request s).2.calls = s.calls ++
      [Slice.call s.orchestrator.settings request (WorkDir.scenePath dir)] := by
  rw [conduct_of_unsliced hfree runner hdir hs, Job.calls_fail]
  exact calls_announced request s dir tree

/-- The calls of a run whose transformer left a scene. -/
theorem calls_of_sliced (hfree : s.orchestrator.busy = false) {scene : Path}
    (hdir : WorkDir.create s.host s.orchestrator.settings.workdirPrefix
      s.orchestrator.settings.tempRoot chance.suffixes = .ok (dir, tree))
    (hs : Slice.outcome (sliced runner request s dir tree) (WorkDir.scenePath dir) = .ok scene) :
    (conduct runner chance request s).2.calls = s.calls ++
      [Slice.call s.orchestrator.settings request (WorkDir.scenePath dir),
        Render.call s.orchestrator.settings (WorkDir.scenePath dir) dir request.environment] := by
  rw [conduct_of_sliced hfree runner hdir hs, calls_secondJob, calls_handedOver, calls_announced,
    List.append_assoc]
  rfl

/-- A run asks its runner for nothing but its own processes: another runner that answers
these alike conducts the same run. -/
theorem conduct_congr (hfree : s.orchestrator.busy = false)
    (hdir : WorkDir.create s.host s.orchestrator.settings.workdirPrefix
      s.orchestrator.settings.tempRoot chance.suffixes = .ok (dir, tree))
    (hsliced : sliced runner' request s dir tree = sliced runner request s dir tree)
    (hrendered : ∀ scene,
      Slice.outcome (sliced runner request s dir tree) (WorkDir.scenePath dir) = .ok scene →
        rendered runner' request s dir tree = rendered runner request s dir tree) :
    conduct runner' chance request s = conduct runner chance request s := by
  cases hs : Slice.outcome (sliced runner request s dir tree) (WorkDir.scenePath dir) with
  | error f =>
    have hs' := hs
    rw [← hsliced] at hs'
    rw [conduct_of_unsliced hfree runner hdir hs, conduct_of_unsliced hfree runner' hdir hs',
      hsliced]
  | ok scene =>
    have hs' := hs
    rw [← hsliced] at hs'
    have hhanded :
        handedOver runner' request s dir tree = handedOver runner request s dir tree := by
      rw [handedOver, hsliced]
      rfl
    have hfinished : finished runner' request s dir tree = finished runner request s dir tree := by
      rw [finished, hrendered scene hs, hhanded]
      rfl
    rw [conduct_of_sliced hfree runner hdir hs, conduct_of_sliced hfree runner' hdir hs',
      play_secondJob, play_secondJob, hrendered scene hs, hfinished]

/-- **All processes of a run, in order.**  A run without a working directory starts none.  Any
other starts the transformer, on the path of the scene and the target line, with the whole
document on its standard input and in no directory of its own.  The renderer follows exactly if
the transformer ended with exit code zero and the scene is there: in the working directory, on
the plain name of the scene, and with no standard input.  Both run directly, or both in the
environment of the request.  The run asks its runner for nothing else. -/
theorem conduct_calls (runner : Runner) (chance : Chance) (request : Request) {s : Scope}
    (hfree : s.orchestrator.busy = false) :
    let settings := s.orchestrator.settings
    let result := conduct runner chance request s
    let leading := Invocation.leading request.environment settings.launcher
    match WorkDir.create s.host settings.workdirPrefix settings.tempRoot chance.suffixes with
    | .error _ =>
      result.2.calls = s.calls ∧ ∀ runner', conduct runner' chance request s = result
    | .ok (dir, tree) =>
      let host := { s.host with tree }
      let scene := dir.child "temp_scene.py"
      ∃ slice render : Call,
        slice.invocation.argv = leading ++ [settings.interpreter, settings.transformer.display,
          scene.display, toString request.targetLine.toNat] ∧
        slice.input = some request.sourceText ∧ slice.cwd = none ∧
        render.invocation.argv = leading ++ [settings.renderer, "-pql", "temp_scene.py"] ∧
        render.input = none ∧ render.cwd = some dir ∧
        let sliced := runner host slice
        let ready := sliced.EndedWell ∧ sliced.host.exists scene = true
        (ready → result.2.calls = s.calls ++ [slice, render]) ∧
        (¬ ready → result.2.calls = s.calls ++ [slice]) ∧
        ∀ runner' : Runner, runner' host slice = sliced →
          (ready → runner' sliced.host render = runner sliced.host render) →
          conduct runner' chance request s = result := by
  intro settings result leading
  cases hdir : WorkDir.create s.host settings.workdirPrefix settings.tempRoot chance.suffixes with
  | error e =>
    refine ⟨calls_of_error hfree hdir, fun runner' => ?_⟩
    exact (conduct_of_error hfree runner' hdir).trans (conduct_of_error hfree runner hdir).symm
  | ok made =>
    obtain ⟨dir, tree⟩ := made
    have hready := Slice.exists_outcome_iff (sliced runner request s dir tree)
      (WorkDir.scenePath dir)
    refine ⟨Slice.call settings request (WorkDir.scenePath dir),
      Render.call settings (WorkDir.scenePath dir) dir request.environment,
      Slice.argv_invocation .., rfl, rfl, Render.argv_invocation .., rfl, rfl,
      fun h => ?_, fun h => ?_, fun runner' hsliced hrendered => ?_⟩
    · obtain ⟨scene, hs⟩ := hready.2 h
      exact calls_of_sliced hfree hdir hs
    · cases hs : Slice.outcome (sliced runner request s dir tree) (WorkDir.scenePath dir) with
      | error f => exact calls_of_unsliced hfree hdir hs
      | ok scene => exact absurd (hready.1 ⟨scene, hs⟩) h
    · have hsliced' : sliced runner' request s dir tree = sliced runner request s dir tree :=
        hsliced
      refine conduct_congr hfree hdir hsliced' fun scene hs => ?_
      rw [rendered, hsliced']
      exact hrendered (hready.1 ⟨scene, hs⟩)

/-- A transformer that leaves a scene, and a renderer that fails. -/
def sceneRunner : Runner := fun h c =>
  match c.cwd with
  | none =>
    let scene : Place := [Text.Utf8.encode "1", Text.Utf8.encode "temp_scene.py"]
    { result := .ok {}, host := { h with tree := h.tree.insert scene (.file [] false) } }
  | some _ => { result := .ok { exitCode := 3, stderr := "no such font\n" }, host := h }

/-- A run in an environment whose renderer fails has started both processes. -/
theorem conduct_calls_sceneRunner :
    let s : Scope :=
      { orchestrator := { settings :=
          { tempRoot := some (Path.ofString "/"), workdirPrefix := "" } }
        host := {} }
    let request : Request := ⟨"text", 12, some "envA", by decide⟩
    s.orchestrator.busy = false ∧
      (conduct sceneRunner { suffixes := fun _ => "1" } request s).2.calls.map
          (fun c => (c.invocation.argv, c.cwd, c.input)) =
        [(["conda", "run", "-n", "envA", "python", "transformer.py", "/1/temp_scene.py", "12"],
            none, some "text"),
          (["conda", "run", "-n", "envA", "manim", "-pql", "temp_scene.py"],
            some (Path.ofString "/1"), none)] := by
  intro s request
  have h := conduct_calls sceneRunner { suffixes := fun _ => "1" } request (s := s) rfl
  have hdir : WorkDir.create s.host s.orchestrator.settings.workdirPrefix
      s.orchestrator.settings.tempRoot (fun _ => "1") = .ok (Path.ofString "/1",
        ⟨[([Text.Utf8.encode "1"], .directory)]⟩) := by cbv
  simp only [hdir] at h
  obtain ⟨slice, render, hargv, hinput, hcwd, hargv', hinput', hcwd', hcalls, -⟩ := h
  have hended : (sceneRunner { tree := ⟨[([Text.Utf8.encode "1"], .directory)]⟩ }
      slice).EndedWell := by
    refine ⟨{}, ?_, rfl⟩
    rw [sceneRunner, hcwd]
  have hscene : (sceneRunner { tree := ⟨[([Text.Utf8.encode "1"], .directory)]⟩ }
      slice).host.exists ((Path.ofString "/1").child "temp_scene.py") = true := by
    rw [sceneRunner, hcwd]
    cbv
  have htransformer : s.orchestrator.settings.transformer.display = "transformer.py" := by cbv
  have hpath : ((Path.ofString "/1").child "temp_scene.py").display = "/1/temp_scene.py" := by cbv
  have hline : toString request.targetLine.toNat = "12" := by cbv
  have hnone : s.calls = [] := rfl
  refine ⟨rfl, ?_⟩
  rw [hcalls ⟨hended, hscene⟩, hnone, List.nil_append, List.map_cons, List.map_singleton, hargv,
    hargv', hinput, hinput', hcwd, hcwd', htransformer, hpath, hline]
  rfl

end Orchestrator

end ScenePreview

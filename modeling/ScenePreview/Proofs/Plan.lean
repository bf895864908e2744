import ScenePreview.Proofs.Calls
import ScenePreview.Proofs.Prepare

/-!
# Plans and runs

A plan shows the two processes that rendering would start, without a document and in a working
directory that is not there.  Rendering comes to its processes on a way of its own.  Here it is
said that the plan tells the truth: a command that is turned down for its line is turned down by
both, and any other starts the processes that were shown, one argument apart.

## Main results

* `Slice.exists_argv_eq_set` — command lines of the transformer differ in the path of the scene.
* `Orchestrator.calls_of_created` — the processes of a run that has a working directory.
* `RenderCommand.runs_as_planned` — **rendering starts what the plan shows.**
-/

namespace ScenePreview

open Text.Utf8

/-! ### Command lines that differ in one argument -/

/-- For one line in one environment the command lines of the transformer differ at most in the
path of the scene, the last argument but one. -/
theorem Slice.exists_argv_eq_set (settings : Settings) {r r' : Request}
    (henvironment : r'.environment = r.environment) (hline : r'.targetLine = r.targetLine)
    (scene scene' : Path) :
    ∃ i, (Slice.invocation settings r scene).argv.length = i + 2 ∧
      (Slice.invocation settings r scene).argv[i]? = some scene.display ∧
      (Slice.invocation settings r' scene').argv =
        (Slice.invocation settings r scene).argv.set i scene'.display := by
  rw [Slice.argv_invocation, Slice.argv_invocation, henvironment, hline]
  generalize Invocation.leading r.environment settings.launcher = leading
  refine ⟨leading.length + 2, by simp, ?_, ?_⟩
  · rw [List.getElem?_append_right (by omega), Nat.add_sub_cancel_left]
    rfl
  · rw [List.set_append_right _ _ (by omega), Nat.add_sub_cancel_left]
    rfl

/-- The command line of the renderer is the same in all working directories. -/
theorem Render.argv_scenePath (settings : Settings) (dir dir' : Path)
    (environment : Option String) :
    (Render.invocation settings (WorkDir.scenePath dir') environment).argv =
      (Render.invocation settings (WorkDir.scenePath dir) environment).argv := by
  rw [Render.argv_invocation, Render.argv_invocation]

/-! ### The processes of a run -/

/-- A run that has a working directory starts the transformer, and the renderer exactly after a
transformer that ended well and left the scene. -/
theorem Orchestrator.calls_of_created {runner : Runner} {chance : Chance} {request : Request}
    {s : Scope} {dir : Path} {tree : FileTree} (hfree : s.orchestrator.busy = false)
    (hdir : WorkDir.create s.host s.orchestrator.settings.workdirPrefix
      s.orchestrator.settings.tempRoot chance.suffixes = .ok (dir, tree)) :
    let settings := s.orchestrator.settings
    let scene := WorkDir.scenePath dir
    let slice := Slice.call settings request scene
    let sliced := runner { s.host with tree } slice
    let ready := sliced.EndedWell ∧ sliced.host.exists scene = true
    let result := conduct runner chance request s
    (ready → result.2.calls = s.calls ++
      [slice, Render.call settings scene dir request.environment]) ∧
    (¬ ready → result.2.calls = s.calls ++ [slice]) := by
  intro settings scene slice sliced ready result
  have hready : (∃ scene', Slice.outcome sliced scene = .ok scene') ↔ ready :=
    Slice.exists_outcome_iff sliced scene
  constructor
  · intro h
    obtain ⟨scene', hs⟩ := hready.2 h
    exact calls_of_sliced hfree hdir hs
  · intro h
    cases hs : Slice.outcome sliced scene with
    | error f => exact calls_of_unsliced hfree hdir hs
    | ok scene' => exact absurd (hready.1 ⟨scene', hs⟩) h

/-! ### Plans -/

theorem display_planDir : planDir.display = "<workdir>" := by decide +kernel

theorem display_scenePath_planDir :
    (WorkDir.scenePath planDir).display = "<workdir>/temp_scene.py" := by decide +kernel

namespace RenderCommand

/-- What rendering leaves on the machine is what its run leaves. -/
theorem host_execute {c : RenderCommand} {w : Surroundings} {settings : Settings}
    {request : Request} (h : c.prepare w = .ok (settings, request)) :
    (c.execute w).host = (Orchestrator.conduct w.runner w.chance request
      { orchestrator := { settings }, host := w.host }).2.host := by
  unfold execute
  rw [h]
  dsimp only
  cases c.format <;> split <;> rfl

/-- **Rendering starts what the plan shows.**  The configuration is the same for both, and the
script is one that rendering accepts; all else about the two machines may differ.  If the line is
zero then both are turned down for it.  Otherwise the plan prints the words of two command lines
with a space between each two, and rendering conducts a run.  A run without a working directory
starts nothing.  Any other starts the transformer with the command line of the plan, except that
`<workdir>/temp_scene.py`, the last argument but one, is the path of the scene in the working
directory.  If the transformer ends well and leaves the scene, the run starts the renderer in the
working directory, with exactly the command line of the plan, and nothing after it. -/
theorem runs_as_planned (c : RenderCommand) {w w' : Surroundings} {config : Configuration}
    {text : String} (hload : Configuration.load w.host w.vars = .ok config)
    (hload' : Configuration.load w'.host w'.vars = .ok config)
    (htext : c.readScript w' = .ok text) (hlanguage : c.languageOf = "python") :
    (c.line = 0 →
      (Command.plan c.line c.tools).execute w =
        Finished.ofError { host := w.host } (.rejected .invalidLine) ∧
      (Command.render c).execute w' =
        Finished.ofError { host := w'.host } (.rejected .invalidLine)) ∧
    (c.line ≠ 0 → ∃ (slicePlan renderPlan : Invocation) (settings : Settings) (request : Request),
      (Command.plan c.line c.tools).execute w =
        { stdout := "slice:  " ++ " ".intercalate slicePlan.argv ++ "\n" ++
            "render: " ++ " ".intercalate renderPlan.argv ++ "  (cwd: " ++ "<workdir>" ++ ")\n"
          host := w.host } ∧
      c.prepare w' = .ok (settings, request) ∧
      let run := Orchestrator.conduct w'.runner w'.chance request
        { orchestrator := { settings }, host := w'.host }
      ((Command.render c).execute w').host = run.2.host ∧
      match WorkDir.create w'.host settings.workdirPrefix settings.tempRoot
        w'.chance.suffixes with
      | .error _ => run.2.calls = []
      | .ok (dir, tree) =>
        let scene := dir.child "temp_scene.py"
        ∃ (slice render : Call) (i : Nat),
          slicePlan.argv.length = i + 2 ∧
          slicePlan.argv[i]? = some "<workdir>/temp_scene.py" ∧
          slice.invocation.argv = slicePlan.argv.set i scene.display ∧
          render.invocation.argv = renderPlan.argv ∧ render.cwd = some dir ∧
          let sliced := w'.runner { w'.host with tree } slice
          let ready := sliced.EndedWell ∧ sliced.host.exists scene = true
          (ready → run.2.calls = [slice, render]) ∧ (¬ ready → run.2.calls = [slice])) := by
  let settings := (c.tools.apply config).1
  let trigger := c.trigger config text
  let planned : Trigger := { line := c.line, environment := (c.tools.apply config).2 }
  constructor
  · intro hzero
    have hplan : Request.ofTrigger planned = .error .invalidLine :=
      Request.ofTrigger_of_zero rfl hzero
    have hrender : Request.ofTrigger trigger = .error .invalidLine :=
      Request.ofTrigger_of_zero hlanguage hzero
    constructor
    · rw [Command.execute, ToolOptions.plan_of_ok hload, hplan]
      rfl
    · rw [Command.execute, execute, prepare_of_ok hload' htext, hrender]
  · intro hline
    obtain ⟨plan, hplan⟩ := Request.exists_ofTrigger (t := planned) rfl hline
    obtain ⟨request, hrequest⟩ := Request.exists_ofTrigger (t := trigger) hlanguage hline
    obtain ⟨-, -, -, hplanLine, hplanEnvironment⟩ := Request.ofTrigger_eq_ok_iff.1 hplan
    obtain ⟨-, -, -, hrequestLine, hrequestEnvironment⟩ := Request.ofTrigger_eq_ok_iff.1 hrequest
    -- the two triggers differ in the document alone
    have henvironment : request.environment = plan.environment :=
      hrequestEnvironment.trans hplanEnvironment.symm
    have htarget : request.targetLine = plan.targetLine := hrequestLine.trans hplanLine.symm
    have hprepare : c.prepare w' = .ok (settings, request) :=
      prepare_eq_ok_iff.2 ⟨config, text, hload', htext, rfl, hrequest⟩
    refine ⟨Slice.invocation settings plan (WorkDir.scenePath planDir),
      Render.invocation settings (WorkDir.scenePath planDir) plan.environment, settings, request,
      ?_, hprepare, host_execute hprepare, ?_⟩
    · rw [Command.execute, ToolOptions.plan_of_ok hload, hplan, ← display_planDir]
      rfl
    · let scope : Scope := { orchestrator := { settings }, host := w'.host }
      cases hdir : WorkDir.create w'.host settings.workdirPrefix settings.tempRoot
        w'.chance.suffixes with
      | error e => exact Orchestrator.calls_of_error (s := scope) rfl hdir
      | ok made =>
        obtain ⟨dir, tree⟩ := made
        obtain ⟨i, hlength, harg, hargv⟩ := Slice.exists_argv_eq_set settings henvironment htarget
          (WorkDir.scenePath planDir) (WorkDir.scenePath dir)
        rw [display_scenePath_planDir] at harg
        refine ⟨Slice.call settings request (WorkDir.scenePath dir),
          Render.call settings (WorkDir.scenePath dir) dir request.environment, i, hlength, harg,
          hargv, ?_, rfl, Orchestrator.calls_of_created (s := scope) rfl hdir⟩
        rw [← henvironment]
        exact Render.argv_scenePath settings planDir dir request.environment

/-- A machine with a document on standard input, on which every process leaves the scene in the
working directory. -/
def stage : Surroundings where
  host := { tempDir := Path.ofString "/" }
  input := encode "text"
  runner := fun h _ =>
    let scene : Place := [encode "manim-preview-1", encode "temp_scene.py"]
    { result := .ok {}, host := { h with tree := h.tree.insert scene (.file [] false) } }
  chance := { suffixes := fun _ => "1" }

/-- In an environment, with a transformer that leaves the scene, both processes are started as
planned. -/
theorem runs_as_planned_stage :
    let c : RenderCommand :=
      { line := 12, language := some "python", tools := { environment := some "envA" } }
    let config : Configuration := { environment := none, settings := {}, configFile := none }
    Configuration.load stage.host stage.vars = .ok config ∧ c.readScript stage = .ok "text" ∧
      c.languageOf = "python" ∧
      ∃ (slicePlan renderPlan : Invocation) (settings : Settings) (request : Request)
        (slice render : Call) (i : Nat),
        (Command.plan 12 c.tools).execute stage =
          { stdout := "slice:  " ++ " ".intercalate slicePlan.argv ++ "\n" ++
              "render: " ++ " ".intercalate renderPlan.argv ++ "  (cwd: " ++ "<workdir>" ++ ")\n"
            host := stage.host } ∧
        c.prepare stage = .ok (settings, request) ∧
        (Orchestrator.conduct stage.runner stage.chance request
          { orchestrator := { settings }, host := stage.host }).2.calls = [slice, render] ∧
        slicePlan.argv[i]? = some "<workdir>/temp_scene.py" ∧
        slice.invocation.argv = slicePlan.argv.set i "/manim-preview-1/temp_scene.py" ∧
        render.invocation.argv = renderPlan.argv ∧
        render.cwd = some (Path.ofString "/manim-preview-1") := by
  intro c config
  have hload : Configuration.load stage.host stage.vars = .ok config := by cbv
  have htext : c.readScript stage = .ok "text" := by cbv
  obtain ⟨slicePlan, renderPlan, settings, request, hplan, hprepare, -, hcalls⟩ :=
    (runs_as_planned c hload hload htext rfl).2 (by decide)
  have hsettings : settings = config.settings := by
    obtain ⟨config', text', hload', -, rfl, -⟩ := prepare_eq_ok_iff.1 hprepare
    rw [← Except.ok.inj (hload.symm.trans hload')]
    rfl
  have hdir : WorkDir.create stage.host settings.workdirPrefix settings.tempRoot
      stage.chance.suffixes = .ok (Path.ofString "/manim-preview-1",
        ⟨[([encode "manim-preview-1"], .directory)]⟩) := by
    rw [hsettings]
    cbv
  have hscene : ((Path.ofString "/manim-preview-1").child "temp_scene.py").display
      = "/manim-preview-1/temp_scene.py" := by decide +kernel
  have hleft : (FileTree.insert ⟨[([encode "manim-preview-1"], .directory)]⟩
      [encode "manim-preview-1", encode "temp_scene.py"] (.file [] false)).exists []
      ((Path.ofString "/manim-preview-1").child "temp_scene.py") = true := by cbv
  simp only [hdir] at hcalls
  obtain ⟨slice, render, i, -, harg, hslice, hrender, hcwd, hready, -⟩ := hcalls
  rw [hscene] at hslice
  exact ⟨hload, htext, rfl, slicePlan, renderPlan, settings, request, slice, render, i, hplan,
    hprepare, hready ⟨⟨{}, rfl, rfl⟩, hleft⟩, harg, hslice, hrender, hcwd⟩

end RenderCommand

end ScenePreview

import ScenePreview.Proofs.Calls

/-!
# How a run ends

A run ends with a video or with a failure.  What a failure says was found out at different
places: by the one who makes the working directory, by the runner, by the look at the scene or
by the look for the video.  Here it is said from the outside what a run ends with, and that the
failure is that of the last process, told as the process or its runner told it.

## Main definitions

* `Artifact.IsVideo` — the entries of a directory that are videos.
* `Slice.Blames`, `Render.Blames` — what a failure says of a process.

## Main results

* `Artifact.exists_find_iff` — a video is found exactly if there is one.
* `Slice.blames_of_outcome`, `Render.blames_of_outcome` — the failure of a stage says what
  happened to its process.
* `Orchestrator.conduct_outcome` — **when a run succeeds, and what its failure says.**
-/

namespace ScenePreview

open Text.Utf8

/-! ### Videos -/

namespace Artifact

/-- An entry of a directory that is a video: its name is text and ends in `.mp4`, and it is a
file or a link to one. -/
structure IsVideo (h : Host) (dir : Path) (n : Name) : Prop where
  /-- The directory can be read and has the name. -/
  listed : ∃ names, h.tree.readDir h.cwd dir = .ok names ∧ n ∈ names
  /-- The name is text. -/
  text : ∃ s, decode? n = some s
  /-- The name ends like that of a video. -/
  ending : ∃ stem, n = stem ++ encode ".mp4"
  /-- The entry is a file, or leads to one. -/
  file : h.isFile (dir.join ⟨n⟩) = true

theorem isVideoName_iff (n : Name) :
    isVideoName n = true ↔ (∃ s, decode? n = some s) ∧ ∃ stem, n = stem ++ encode ".mp4" := by
  rw [isVideoName, Bool.and_eq_true, Option.isSome_iff_exists, List.isSuffixOf_iff_suffix]
  refine and_congr_right fun _ => ⟨?_, ?_⟩
  · rintro ⟨stem, hstem⟩
    exact ⟨stem, hstem.symm⟩
  · rintro ⟨stem, hstem⟩
    exact ⟨stem, hstem.symm⟩

theorem mem_candidates_iff {h : Host} {dir : Path} {names : List Name}
    (hnames : h.tree.readDir h.cwd dir = .ok names) (n : Name) :
    n ∈ candidates h dir names ↔ IsVideo h dir n := by
  rw [candidates, List.mem_filter, Bool.and_eq_true, isVideoName_iff]
  constructor
  · rintro ⟨hmem, hfile, htext, hending⟩
    exact ⟨⟨names, hnames, hmem⟩, htext, hending, hfile⟩
  · rintro ⟨⟨names', hnames', hmem⟩, htext, hending, hfile⟩
    rw [hnames] at hnames'
    rw [← Except.ok.inj hnames'] at hmem
    exact ⟨hmem, hfile, htext, hending⟩

theorem sorted_eq_nil_iff (names : List Name) : sorted names = [] ↔ names = [] := by
  rw [← List.length_eq_zero_iff, sorted, FileTree.sortBytes, List.length_mergeSort,
    List.length_eq_zero_iff]

theorem exists_choose_iff (dir : Path) (names : List Name) :
    (∃ a, (choose dir names).1 = .ok a) ↔ names ≠ [] := by
  rw [ne_eq, ← sorted_eq_nil_iff, choose]
  split
  · next hnil => simp [hnil]
  · next n hone => simp [hone]
  · next n ns _ hmany => simp [hmany]

/-- A look for the video finds one exactly if there is one. -/
theorem exists_find_iff (h : Host) (dir : Path) (stderr : String) :
    (∃ a, (find h dir stderr).1 = .ok a) ↔ ∃ n, IsVideo h dir n := by
  have hfind : (∃ a, (find h dir stderr).1 = .ok a) ↔ ∃ a, (search h dir).1 = .ok a := by
    rw [find]
    split
    · next hsearch => simp [hsearch]
    · next hsearch => simp [hsearch]
  rw [hfind, search]
  cases hnames : h.tree.readDir h.cwd dir with
  | error e =>
    have hnone : ¬ ∃ n, IsVideo h dir n := by
      rintro ⟨n, ⟨names, hnames', -⟩, -⟩
      rw [hnames] at hnames'
      cases hnames'
    simp [hnone]
  | ok names =>
    rw [exists_choose_iff, ne_eq, List.eq_nil_iff_forall_not_mem, not_forall_not]
    exact exists_congr fun n => mem_candidates_iff hnames n

/-- A look for the video that finds none names the directory and keeps the diagnostic text. -/
theorem eq_of_find_error {h : Host} {dir : Path} {stderr : String} {f : Failure}
    (hfind : (find h dir stderr).1 = .error f) :
    (∀ n, ¬ IsVideo h dir n) ∧ ∃ reason, f = .artifactNotFound dir reason stderr := by
  constructor
  · intro n hn
    obtain ⟨a, ha⟩ := (exists_find_iff h dir stderr).2 ⟨n, hn⟩
    rw [hfind] at ha
    cases ha
  · rw [find] at hfind
    split at hfind
    · cases hfind
    · next reason _ _ => exact ⟨reason, (Except.error.inj hfind).symm⟩

end Artifact

/-! ### What a failure says of a process -/

/-- What a failure says of a transformer: why it could not be run, or what it left on its
standard error.  One that ended with exit code zero left no scene. -/
def Slice.Blames (ran : Ran) (scene : Path) (f : Failure) : Prop :=
  match ran.result with
  | .error (.launch command cause) => f = .launch .slice command cause.message
  | .error (.io command cause) => f = .sliceExtraction (ProcessError.io command cause).message
  | .ok r =>
    if r.exitCode = 0 then
      ran.host.exists scene = false ∧
        f = .sliceExtraction (Slice.withMissingScene r.stderr scene)
    else f = .sliceExtraction r.stderr

/-- What a failure says of a renderer: why it could not be run, or its exit code and what it
left on its standard error.  One that ended with exit code zero left no video. -/
def Render.Blames (ran : Ran) (dir : Path) (f : Failure) : Prop :=
  match ran.result with
  | .error (.launch command cause) => f = .launch .render command cause.message
  | .error (.io command cause) => f = .render (-1) (ProcessError.io command cause).message
  | .ok r =>
    if r.exitCode = 0 then
      (∀ n, ¬ Artifact.IsVideo ran.host dir n) ∧ ∃ reason, f = .artifactNotFound dir reason r.stderr
    else f = .render r.exitCode r.stderr

/-- The failure of the first stage says what happened to the transformer. -/
theorem Slice.blames_of_outcome {ran : Ran} {scene : Path} {f : Failure}
    (h : Slice.outcome ran scene = .error f) : Slice.Blames ran scene f := by
  unfold Slice.Blames
  cases hresult : ran.result with
  | error e =>
    rw [Slice.outcome_of_error hresult] at h
    cases e <;> exact (Except.error.inj h).symm
  | ok r =>
    dsimp only
    by_cases hcode : r.exitCode = 0
    · rw [Slice.outcome_of_zero hresult hcode, Slice.confirm] at h
      rw [if_pos hcode]
      cases hscene : ran.host.exists scene with
      | true =>
        rw [hscene, if_pos rfl] at h
        cases h
      | false =>
        rw [hscene, if_neg Bool.false_ne_true] at h
        exact ⟨rfl, (Except.error.inj h).symm⟩
    · rw [Slice.outcome_of_nonzero hresult hcode] at h
      rw [if_neg hcode]
      exact (Except.error.inj h).symm

namespace Render

variable {ran : Ran} {r : ProcessResult}

theorem outcome_of_error {e : ProcessError} (h : ran.result = .error e) (workdir scene : Path) :
    Render.outcome ran workdir scene = (.error (.ofRunner .render e), []) := by
  rw [outcome, h, settle]

theorem outcome_of_nonzero (h : ran.result = .ok r) (hcode : r.exitCode ≠ 0)
    (workdir scene : Path) :
    Render.outcome ran workdir scene = (.error (.render r.exitCode r.stderr), []) := by
  rw [outcome, h, settle, if_neg fun hr => hcode (r.success_iff.1 hr)]

theorem outcome_of_zero (h : ran.result = .ok r) (hcode : r.exitCode = 0) (workdir scene : Path) :
    Render.outcome ran workdir scene =
      Artifact.find ran.host (Render.artifactDir workdir scene) r.stderr := by
  rw [outcome, h, settle, if_pos (r.success_iff.2 hcode)]

/-- The video is there exactly after a renderer that ended well and left one. -/
theorem exists_outcome_iff (ran : Ran) (workdir scene : Path) :
    (∃ a, (Render.outcome ran workdir scene).1 = .ok a) ↔
      ran.EndedWell ∧ ∃ n, Artifact.IsVideo ran.host (Render.artifactDir workdir scene) n := by
  cases hresult : ran.result with
  | error e =>
    rw [outcome_of_error hresult]
    simp [Ran.EndedWell, hresult]
  | ok r =>
    by_cases hcode : r.exitCode = 0
    · rw [outcome_of_zero hresult hcode, Artifact.exists_find_iff]
      exact (and_iff_right ⟨r, hresult, hcode⟩).symm
    · rw [outcome_of_nonzero hresult hcode]
      simp [Ran.EndedWell, hresult, hcode]

/-- The failure of the second stage says what happened to the renderer. -/
theorem blames_of_outcome {workdir scene : Path} {f : Failure}
    (h : (Render.outcome ran workdir scene).1 = .error f) :
    Render.Blames ran (Render.artifactDir workdir scene) f := by
  unfold Render.Blames
  cases hresult : ran.result with
  | error e =>
    rw [outcome_of_error hresult] at h
    cases e <;> exact (Except.error.inj h).symm
  | ok r =>
    dsimp only
    by_cases hcode : r.exitCode = 0
    · rw [outcome_of_zero hresult hcode] at h
      rw [if_pos hcode]
      exact Artifact.eq_of_find_error h
    · rw [outcome_of_nonzero hresult hcode] at h
      rw [if_neg hcode]
      exact (Except.error.inj h).symm

end Render

theorem Slice.Blames.stage?_eq {ran : Ran} {scene : Path} {f : Failure}
    (h : Slice.Blames ran scene f) : f.stage? = some .slice := by
  unfold Slice.Blames at h
  split at h
  · rw [h]
    rfl
  · rw [h]
    rfl
  · split at h
    · rw [h.2]
      rfl
    · rw [h]
      rfl

theorem Render.Blames.stage?_eq {ran : Ran} {dir : Path} {f : Failure}
    (h : Render.Blames ran dir f) : f.stage? = some .render := by
  unfold Render.Blames at h
  split at h
  · rw [h]
    rfl
  · rw [h]
    rfl
  · split at h
    · obtain ⟨-, reason, rfl⟩ := h
      rfl
    · rw [h]
      rfl

/-! ### Whole runs -/

namespace Orchestrator

variable {runner : Runner} {chance : Chance} {request : Request} {s : Scope} {dir : Path}
  {tree : FileTree}

theorem ended_of_error (hfree : s.orchestrator.busy = false) {e : IoError}
    (he : WorkDir.create s.host s.orchestrator.settings.workdirPrefix
      s.orchestrator.settings.tempRoot chance.suffixes = .error e) :
    (conduct runner chance request s).1 = .ended (.error (.workingDirectory e)) := by
  rw [conduct_of_error hfree runner he]

theorem ended_of_unsliced (hfree : s.orchestrator.busy = false) {f : Failure}
    (hdir : WorkDir.create s.host s.orchestrator.settings.workdirPrefix
      s.orchestrator.settings.tempRoot chance.suffixes = .ok (dir, tree))
    (hs : Slice.outcome (sliced runner request s dir tree) (WorkDir.scenePath dir) = .error f) :
    (conduct runner chance request s).1 = .ended (.error f) := by
  rw [conduct_of_unsliced hfree runner hdir hs]
  rfl

theorem ended_of_unrendered (hfree : s.orchestrator.busy = false) {scene : Path} {f : Failure}
    (hdir : WorkDir.create s.host s.orchestrator.settings.workdirPrefix
      s.orchestrator.settings.tempRoot chance.suffixes = .ok (dir, tree))
    (hs : Slice.outcome (sliced runner request s dir tree) (WorkDir.scenePath dir) = .ok scene)
    (ho : (Render.outcome (rendered runner request s dir tree) dir (WorkDir.scenePath dir)).1
      = .error f) :
    (conduct runner chance request s).1 = .ended (.error f) := by
  rw [conduct_of_sliced hfree runner hdir hs]
  exact (messages_secondJob_of_error chance ho).1

theorem ended_of_rendered (hfree : s.orchestrator.busy = false) {scene : Path} {a : Artifact}
    (hdir : WorkDir.create s.host s.orchestrator.settings.workdirPrefix
      s.orchestrator.settings.tempRoot chance.suffixes = .ok (dir, tree))
    (hs : Slice.outcome (sliced runner request s dir tree) (WorkDir.scenePath dir) = .ok scene)
    (ho : (Render.outcome (rendered runner request s dir tree) dir (WorkDir.scenePath dir)).1
      = .ok a) :
    ∃ run, (conduct runner chance request s).1 = .ended (.ok run) ∧ run.artifact = some a := by
  rw [conduct_of_sliced hfree runner hdir hs]
  exact (messages_secondJob_of_ok chance ho).1

/-- A run with a working directory succeeds exactly if both of its stages do. -/
theorem exists_ok_iff (hfree : s.orchestrator.busy = false)
    (hdir : WorkDir.create s.host s.orchestrator.settings.workdirPrefix
      s.orchestrator.settings.tempRoot chance.suffixes = .ok (dir, tree)) :
    (∃ run, (conduct runner chance request s).1 = .ended (.ok run)) ↔
      (∃ scene, Slice.outcome (sliced runner request s dir tree) (WorkDir.scenePath dir)
        = .ok scene) ∧
      ∃ a, (Render.outcome (rendered runner request s dir tree) dir (WorkDir.scenePath dir)).1
        = .ok a := by
  cases hs : Slice.outcome (sliced runner request s dir tree) (WorkDir.scenePath dir) with
  | error f =>
    rw [ended_of_unsliced hfree hdir hs]
    simp
  | ok scene =>
    cases ho : (Render.outcome (rendered runner request s dir tree) dir
      (WorkDir.scenePath dir)).1 with
    | error f =>
      rw [ended_of_unrendered hfree hdir hs ho]
      simp
    | ok a =>
      obtain ⟨run, hrun, -⟩ := ended_of_rendered hfree hdir hs ho
      exact iff_of_true ⟨run, hrun⟩ ⟨⟨scene, rfl⟩, a, rfl⟩

/-- The failure of a run with a working directory says what happened to its last process. -/
theorem blames_of_failed (hfree : s.orchestrator.busy = false)
    (hdir : WorkDir.create s.host s.orchestrator.settings.workdirPrefix
      s.orchestrator.settings.tempRoot chance.suffixes = .ok (dir, tree)) {f : Failure}
    (hf : (conduct runner chance request s).1 = .ended (.error f)) :
    let slice := Slice.call s.orchestrator.settings request (WorkDir.scenePath dir)
    let render := Render.call s.orchestrator.settings (WorkDir.scenePath dir) dir
      request.environment
    (conduct runner chance request s).2.calls = s.calls ++ [slice] ∧
        Slice.Blames (sliced runner request s dir tree) (WorkDir.scenePath dir) f ∨
      (conduct runner chance request s).2.calls = s.calls ++ [slice, render] ∧
        Render.Blames (rendered runner request s dir tree)
          (Render.artifactDir dir (WorkDir.scenePath dir)) f := by
  intro slice render
  cases hs : Slice.outcome (sliced runner request s dir tree) (WorkDir.scenePath dir) with
  | error f' =>
    have hend := ended_of_unsliced hfree hdir hs
    rw [hf] at hend
    cases hend
    exact .inl ⟨calls_of_unsliced hfree hdir hs, Slice.blames_of_outcome hs⟩
  | ok scene =>
    cases ho : (Render.outcome (rendered runner request s dir tree) dir
      (WorkDir.scenePath dir)).1 with
    | error f' =>
      have hend := ended_of_unrendered hfree hdir hs ho
      rw [hf] at hend
      cases hend
      exact .inr ⟨calls_of_sliced hfree hdir hs, Render.blames_of_outcome ho⟩
    | ok a =>
      obtain ⟨run, hrun, -⟩ := ended_of_rendered hfree hdir hs ho
      rw [hf] at hrun
      cases hrun

/-- **When a run succeeds, and what its failure says.**  A run ends, and it ends with a video
exactly if there is a working directory, the transformer ends with exit code zero, the scene is
there, the renderer ends with exit code zero, and the directory that it writes to then has a
video.  A failure belongs to no stage exactly if no process was started, and else to the stage
of the last one.  It says of that process what is to be said: the exit code and the diagnostic
text that it left, the command and the reason why it could not be started, or the runner's own
words if its output could not be read.  A missing video is told with the directory and with
the diagnostic text of the renderer. -/
theorem conduct_outcome (runner : Runner) (chance : Chance) (request : Request) {s : Scope}
    (hfree : s.orchestrator.busy = false) :
    let settings := s.orchestrator.settings
    let result := conduct runner chance request s
    let made := WorkDir.create s.host settings.workdirPrefix settings.tempRoot chance.suffixes
    let scene (dir : Path) := dir.child "temp_scene.py"
    let videos (dir : Path) :=
      (((dir.child "media").child "videos").child "temp_scene").child "480p15"
    let slice (dir : Path) := Slice.call settings request (scene dir)
    let render (dir : Path) := Render.call settings (scene dir) dir request.environment
    let sliced (dir : Path) (tree : FileTree) := runner { s.host with tree } (slice dir)
    let rendered (dir : Path) (tree : FileTree) := runner (sliced dir tree).host (render dir)
    (∃ o, result.1 = .ended o) ∧
    ((∃ run, result.1 = .ended (.ok run)) ↔ ∃ dir tree, made = .ok (dir, tree) ∧
      (sliced dir tree).EndedWell ∧ (sliced dir tree).host.exists (scene dir) = true ∧
      (rendered dir tree).EndedWell ∧
      ∃ n, Artifact.IsVideo (rendered dir tree).host (videos dir) n) ∧
    ∀ f, result.1 = .ended (.error f) →
      (f.stage? = none ↔ result.2.calls = s.calls) ∧
      ((∃ e, made = .error e ∧ result.2.calls = s.calls ∧ f = .workingDirectory e) ∨
        ∃ dir tree, made = .ok (dir, tree) ∧
          (result.2.calls = s.calls ++ [slice dir] ∧ f.stage? = some .slice ∧
              Slice.Blames (sliced dir tree) (scene dir) f ∨
            result.2.calls = s.calls ++ [slice dir, render dir] ∧ f.stage? = some .render ∧
              Render.Blames (rendered dir tree) (videos dir) f)) := by
  intro settings result made scene videos slice render sliced rendered
  have hends : ∃ o, result.1 = .ended o := by
    obtain ⟨o, s', h⟩ := conduct_ends runner chance request s
    exact ⟨o, congrArg Prod.fst h⟩
  cases hdir : made with
  | error e =>
    have hend : result.1 = .ended (.error (.workingDirectory e)) := ended_of_error hfree hdir
    have hcalls : result.2.calls = s.calls := calls_of_error hfree hdir
    refine ⟨hends, iff_of_false ?_ ?_, fun f hf => ?_⟩
    · rintro ⟨run, hrun⟩
      rw [hend] at hrun
      cases hrun
    · rintro ⟨dir, tree, hmade, -⟩
      cases hmade
    · rw [hend] at hf
      cases hf
      exact ⟨iff_of_true rfl hcalls, .inl ⟨e, rfl, hcalls, rfl⟩⟩
  | ok dirTree =>
    obtain ⟨dir, tree⟩ := dirTree
    have hvideos : Render.artifactDir dir (WorkDir.scenePath dir) = videos dir :=
      Render.artifactDir_scenePath dir
    refine ⟨hends, ?_, fun f hf => ?_⟩
    · have hiff : (∃ run, result.1 = .ended (.ok run)) ↔ _ := exists_ok_iff hfree hdir
      rw [Slice.exists_outcome_iff, Render.exists_outcome_iff, hvideos, and_assoc] at hiff
      refine hiff.trans ⟨fun h => ⟨dir, tree, rfl, h⟩, ?_⟩
      rintro ⟨dir', tree', hmade, h⟩
      cases hmade
      exact h
    · have hblames := blames_of_failed hfree hdir hf
      rw [hvideos] at hblames
      -- either way a process was started, and the failure has a stage
      refine ⟨iff_of_false ?_ ?_, .inr ⟨dir, tree, rfl, ?_⟩⟩
      · rcases hblames with ⟨-, h⟩ | ⟨-, h⟩
        · rw [h.stage?_eq]
          exact Option.some_ne_none _
        · rw [h.stage?_eq]
          exact Option.some_ne_none _
      · rcases hblames with ⟨h, -⟩ | ⟨h, -⟩
        · rw [h]
          simp
        · rw [h]
          simp
      · rcases hblames with ⟨hcalls, h⟩ | ⟨hcalls, h⟩
        · exact .inl ⟨hcalls, h.stage?_eq, h⟩
        · exact .inr ⟨hcalls, h.stage?_eq, h⟩

/-- A run whose renderer fails says so with its exit code and its diagnostic text. -/
theorem conduct_outcome_sceneRunner :
    let s : Scope :=
      { orchestrator := { settings :=
          { tempRoot := some (Path.ofString "/"), workdirPrefix := "" } }
        host := {} }
    let request : Request := ⟨"text", 12, some "envA", by decide⟩
    s.orchestrator.busy = false ∧
      (conduct sceneRunner { suffixes := fun _ => "1" } request s).1 =
        .ended (.error (.render 3 "no such font\n")) := by
  intro s request
  have hdir : WorkDir.create s.host s.orchestrator.settings.workdirPrefix
      s.orchestrator.settings.tempRoot (fun _ => "1") = .ok (Path.ofString "/1",
        ⟨[([Text.Utf8.encode "1"], .directory)]⟩) := by cbv
  have hscene : (sceneRunner { tree := ⟨[([Text.Utf8.encode "1"], .directory)]⟩ }
      (Slice.call s.orchestrator.settings request ((Path.ofString "/1").child
        "temp_scene.py"))).host.exists ((Path.ofString "/1").child "temp_scene.py") = true := by
    rw [sceneRunner, Slice.call]
    cbv
  obtain ⟨⟨o, hend⟩, hok, hfailed⟩ := conduct_outcome sceneRunner { suffixes := fun _ => "1" }
    request (s := s) rfl
  simp only [hdir] at hok hfailed
  refine ⟨rfl, ?_⟩
  cases o with
  | ok run =>
    -- the renderer does not end well
    obtain ⟨dir, tree, -, -, -, ⟨r, hr, hcode⟩, -⟩ := hok.1 ⟨run, hend⟩
    cases hr
    cases hcode
  | error f =>
    rcases (hfailed f hend).2 with ⟨e, he, -⟩ | ⟨dir, tree, hmade, ⟨-, -, h⟩ | ⟨-, -, h⟩⟩
    · cases he
    · cases hmade
      have hmissing : _ = false := h.1
      rw [hscene] at hmissing
      cases hmissing
    · have hf : f = .render 3 "no such font\n" := h
      rw [hend, hf]

end Orchestrator

end ScenePreview

import ScenePreview.Proofs.Display
import ScenePreview.Proofs.Locator
import ScenePreview.Proofs.Rounds

/-!
# The video of a run

A run that ends with a video tells of it three times: in the record that it returns, in the files
that it leaves, and by the locator that the display is told.  The locator is made before the
record is complete and before the directory is kept.  Here it is said that all three speak of one
and the same file.

## Main results

* `Orchestrator.exists_succeed` — how a run with a video comes to its end.
* `Orchestrator.conduct_video` — **the record, the files and the display agree on the video.**
-/

namespace ScenePreview

open Text.Utf8

/-- The output of a renderer shows no video. -/
theorem Ran.shown_logs (ran : Ran) :
    ran.logs.filterMap (fun m => m.event?.bind Recorder.shown?) = [] := by
  rw [logs, List.filterMap_map, List.filterMap_eq_nil_iff]
  intro c _
  rfl

/-! ### Paths of videos -/

/-- The directory in which the video of a run is looked for has four names below the working
directory. -/
theorem Render.components_artifactDir {dir : Path} (h : dir.isAbsolute = true) :
    (Render.artifactDir dir (WorkDir.scenePath dir)).components = dir.components ++
      ["media", "videos", "temp_scene", "480p15"].map fun n => .name (encode n) := by
  have hchild : ∀ (p : Path) (n : String), p.isAbsolute = true → Path.IsName (encode n) →
      (p.child n).components = p.components ++ [.name (encode n)] :=
    fun p n hp hn => Path.components_join hp hn
  have hmedia : (dir.child "media").isAbsolute = true := Path.isAbsolute_join h _
  have hvideos : ((dir.child "media").child "videos").isAbsolute = true :=
    Path.isAbsolute_join hmedia _
  have hscene : (((dir.child "media").child "videos").child "temp_scene").isAbsolute = true :=
    Path.isAbsolute_join hvideos _
  rw [Render.artifactDir_scenePath, hchild _ _ hscene (by decide +kernel),
    hchild _ _ hvideos (by decide +kernel), hchild _ _ hmedia (by decide +kernel),
    hchild _ _ h (by decide +kernel)]
  simp

/-- A name that ends like that of a video and has no slash is a component. -/
theorem Artifact.IsVideo.isName {h : Host} {dir : Path} {n : Name} (hn : IsVideo h dir n)
    (hslash : Path.slash ∉ n) : Path.IsName n := by
  obtain ⟨stem, hstem⟩ := hn.ending
  have hlength : 4 ≤ n.length := by
    rw [hstem, List.length_append]
    exact Nat.le_add_left 4 _
  refine ⟨?_, ?_, ?_, hslash⟩ <;> rintro rfl <;> revert hlength <;> decide

/-! ### Runs that end with a video -/

namespace Orchestrator

variable {runner : Runner} {chance : Chance} {request : Request} {s : Scope} {run : Run}

/-- A run that ends with a video was accepted, has a working directory, and its second job
succeeds with what the renderer left. -/
theorem exists_succeed (hrun : (conduct runner chance request s).1 = .ended (.ok run)) :
    ∃ dir tree a ws,
      (∃ suffix, dir = WorkDir.candidate s.host s.orchestrator.settings.workdirPrefix
        s.orchestrator.settings.tempRoot suffix) ∧
      Render.outcome (rendered runner request s dir tree) dir (WorkDir.scenePath dir)
        = (.ok a, ws) ∧
      conduct runner chance request s = (secondJob chance request dir).succeed a
        ((finished runner request s dir tree).warn ws) := by
  -- every branch but the last ends with an error
  cases hfree : s.orchestrator.busy with
  | true =>
    rw [conduct, Job.begin, if_pos hfree] at hrun
    cases hrun
  | false =>
    cases hdir : WorkDir.create s.host s.orchestrator.settings.workdirPrefix
        s.orchestrator.settings.tempRoot chance.suffixes with
    | error e =>
      rw [ended_of_error hfree hdir] at hrun
      cases hrun
    | ok made =>
      obtain ⟨dir, tree⟩ := made
      cases hs : Slice.outcome (sliced runner request s dir tree) (WorkDir.scenePath dir) with
      | error f =>
        rw [ended_of_unsliced hfree hdir hs] at hrun
        cases hrun
      | ok scene =>
        have hplay := conduct_of_sliced hfree runner hdir hs
        rw [play_secondJob] at hplay
        rcases ho : Render.outcome (rendered runner request s dir tree) dir
          (WorkDir.scenePath dir) with ⟨f | a, ws⟩ <;> rw [ho] at hplay
        · rw [hplay] at hrun
          cases hrun
        · obtain ⟨k, hk⟩ := (WorkDir.makeDir_of_createFrom hdir).1
          exact ⟨dir, tree, a, ws, ⟨_, hk⟩, ho, hplay⟩

/-- What the display was told by a run that ends with a video. -/
theorem messages_succeed_secondJob (chance : Chance) (request : Request) (s : Scope) (dir : Path)
    (tree : FileTree) (runner : Runner) (a : Artifact) (ws : List Warning) :
    ∃ text, ((secondJob chance request dir).succeed a
        ((finished runner request s dir tree).warn ws)).2.messages =
      s.messages ++ ([.loading, .info text] ++
        ((rendered runner request s dir tree).logs ++
          [.artifactReady a.locator, .logCleared])) := by
  rw [Job.messages_succeed, Scope.messages_warn, messages_finished, messages_announced,
    List.append_assoc, List.append_assoc]
  exact ⟨_, rfl⟩

/-- **The record, the files and the display agree on the video.**  The record of a run that ends
with a video says that the run succeeded and when, and tells of no error.  It names the working
directory, and a video in the directory in it that the renderer writes to, with a name that ends
like that of a video.  When the run returns, the path of that video leads to a file, links
followed.  The display was shown one video, by its locator, which starts with three slashes and
leads through the names of the path. -/
theorem conduct_video (runner : Runner) (chance : Chance) (request : Request) (s : Scope)
    {run : Run} (hrun : (conduct runner chance request s).1 = .ended (.ok run)) :
    let after := (conduct runner chance request s).2
    run.state = .succeeded ∧ run.completedAt = some chance.completedAt ∧ run.error = none ∧
    ∃ (w : Path) (a : Artifact) (n : Name),
      run.workdir = some w ∧ run.artifact = some a ∧
      a.path = ((((w.child "media").child "videos").child "temp_scene").child "480p15").join ⟨n⟩ ∧
      (∃ stem, n = stem ++ encode ".mp4") ∧
      (Path.slash ∉ n → a.path.components = w.components ++
        (["media", "videos", "temp_scene", "480p15"].map fun d => .name (encode d)) ++
          [.name n]) ∧
      (∃ place content executable,
        after.host.tree.stat after.host.cwd a.path = .ok (place, .file content executable)) ∧
      (∃ told, after.messages = s.messages ++ told ∧
        (Recorder.ofMessages told).artifacts = [a.locator]) ∧
      "file:///".toList <+: a.locator.toList ∧
      Locator.names? a.locator = some a.path.names := by
  intro after
  obtain ⟨dir, tree, a, ws, ⟨suffix, hdir⟩, ho, hend⟩ := exists_succeed hrun
  obtain ⟨n, hn, hpath⟩ := Render.exists_isVideo_of_outcome (congrArg Prod.fst ho)
  have habsolute : dir.isAbsolute = true := by
    rw [hdir]
    exact WorkDir.isAbsolute_candidate ..
  have hvideos := Render.isAbsolute_artifactDir habsolute (WorkDir.scenePath dir)
  have hlocator := Artifact.locator_of_isAbsolute (a := a) (hpath ▸ Path.isAbsolute_join hvideos _)
  -- a run that succeeds leaves the files as the renderer left them
  have hhost : after.host = (rendered runner request s dir tree).host := by
    rw [show after = _ from congrArg Prod.snd hend, Job.host_succeed]
    rfl
  obtain ⟨text, htold⟩ := messages_succeed_secondJob chance request s dir tree runner a ws
  rw [← hend] at htold
  rw [hend] at hrun
  cases hrun
  refine ⟨rfl, rfl, rfl, dir, a, n, rfl, rfl, ?_, hn.ending, ?_, ?_, ?_, ?_⟩
  · rw [hpath, Render.artifactDir_scenePath]
  · intro hslash
    rw [hpath, Path.components_join hvideos (hn.isName hslash),
      Render.components_artifactDir habsolute]
  · obtain ⟨place, content, executable, hstat⟩ := FileTree.exists_file_of_isFile hn.file
    exact ⟨place, content, executable, by rw [hhost, hpath, hstat]⟩
  · refine ⟨_, htold, ?_⟩
    rw [Recorder.artifacts_ofMessages, List.filterMap_append, List.filterMap_append,
      Ran.shown_logs]
    rfl
  · rw [hlocator]
    exact Locator.names?_ofAbsolute a.path

/-- A run whose renderer leaves a video shows that one. -/
theorem conduct_video_intro :
    let s : Scope :=
      { orchestrator := { settings :=
          { tempRoot := some (Path.ofString "/"), workdirPrefix := "" } }
        host := {} }
    let result := conduct videoRunner { suffixes := fun _ => "1" } ⟨"", 3, none, by decide⟩ s
    ∃ run, result.1 = .ended (.ok run) ∧ run.state = .succeeded ∧
      (Recorder.ofMessages result.2.messages).artifacts
        = ["file:///1/media/videos/temp_scene/480p15/Intro.mp4"] := by
  intro s result
  let video : Artifact := ⟨Path.ofString "/1/media/videos/temp_scene/480p15/Intro.mp4"⟩
  let tree : FileTree := ⟨[([encode "1"], .directory)]⟩
  let chance : Chance := { suffixes := fun _ => "1" }
  have hdir : WorkDir.create s.host s.orchestrator.settings.workdirPrefix
      s.orchestrator.settings.tempRoot chance.suffixes = .ok (Path.ofString "/1", tree) := by
    cbv
  have hs : Slice.outcome (sliced videoRunner ⟨"", 3, none, by decide⟩ s (Path.ofString "/1") tree)
      (WorkDir.scenePath (Path.ofString "/1")) = .ok (WorkDir.scenePath (Path.ofString "/1")) := by
    cbv
  have ho : (Render.outcome (rendered videoRunner ⟨"", 3, none, by decide⟩ s (Path.ofString "/1")
      tree) (Path.ofString "/1") (WorkDir.scenePath (Path.ofString "/1"))).1 = .ok video := by cbv
  have hlocator : video.locator = "file:///1/media/videos/temp_scene/480p15/Intro.mp4" := by
    decide +kernel
  obtain ⟨run, hrun, hvideo⟩ := ended_of_rendered rfl hdir hs ho
  obtain ⟨hstate, -, -, w, a, n, -, ha, -, -, -, -, ⟨told, htold, hshown⟩, -⟩ :=
    conduct_video videoRunner chance ⟨"", 3, none, by decide⟩ s hrun
  rw [hvideo] at ha
  cases ha
  refine ⟨run, hrun, hstate, ?_⟩
  rw [show result.2.messages = told from htold, hshown, hlocator]

end Orchestrator

end ScenePreview

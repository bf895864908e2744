import ScenePreview.Display.Console
import ScenePreview.Proofs.Video

/-!
# What a run prints on a terminal

Other programs read the place of the video from standard output.  A run tells its display many
things, and most of them are words of the tools that it starts.  Here it is said that none of
these reach standard output: a run prints one line, and that line is the locator of its video, or
it prints nothing.  A name of the video that has line breaks in it makes no second line.

## Main definitions

* `Progress.video?` — the video that a run ends with.
* `Console.lineOf` — the line that tells of a video.

## Main results

* `Console.stdout_append` — standard output grows message by message.
* `Locator.newline_notMem_ofAbsolute` — a locator has one line.
* `Orchestrator.exists_told` — what a run tells prints the line of its video.
* `Orchestrator.conduct_stdout` — **standard output is the locator of the video, whatever the
  tools write.**
-/

namespace ScenePreview

open Text.Utf8

/-! ### Standard output, message by message -/

namespace Console

theorem stdout_foldl_receive (c : Console) (ms : List Message) :
    (ms.foldl receive c).stdout = c.stdout ++ (ofMessages ms).stdout := by
  -- the terminal before the messages is arbitrary, since the fold goes on from each new one
  induction ms generalizing c with
  | nil => exact (String.append_empty).symm
  | cons m ms ih =>
    rw [ofMessages, List.foldl_cons, List.foldl_cons, ih (receive c m), ih (receive {} m)]
    simp only [receive, String.empty_append, String.append_assoc]

@[simp] theorem stdout_nil : (ofMessages []).stdout = "" := rfl

@[simp] theorem stdout_cons (m : Message) (ms : List Message) :
    (ofMessages (m :: ms)).stdout = outText m ++ (ofMessages ms).stdout := by
  rw [ofMessages, List.foldl_cons, stdout_foldl_receive]
  simp only [receive, String.empty_append]

@[simp] theorem stdout_append (ms ms' : List Message) :
    (ofMessages (ms ++ ms')).stdout = (ofMessages ms).stdout ++ (ofMessages ms').stdout := by
  rw [ofMessages, List.foldl_append, stdout_foldl_receive]
  rfl

/-- Only a video that is shown is printed. -/
theorem stdout_of_not_showsVideo {ms : List Message} (h : ¬ ShowsVideo ms) :
    (ofMessages ms).stdout = "" := by
  induction ms with
  | nil => rfl
  | cons m ms ih =>
    have hrest : ¬ ShowsVideo ms := fun ⟨uri, huri⟩ => h ⟨uri, List.mem_cons_of_mem _ huri⟩
    have hm : outText m = "" := by
      unfold outText
      split
      · next uri => exact absurd ⟨uri, List.mem_cons_self⟩ h
      · rfl
    rw [stdout_cons, hm, ih hrest, String.empty_append]

/-- The line that tells of a video; nothing if there is none. -/
def lineOf : Option Artifact → String
  | some a => a.locator ++ "\n"
  | none => ""

end Console

/-! ### Locators have one line -/

namespace Locator

/-- A locator has no line break in it, whatever the names of the path. -/
theorem newline_notMem_ofAbsolute (p : Path) : '\n' ∉ (ofAbsolute p).toList := by
  intro hmem
  have hvisible := isVisible_of_mem_ofAbsolute hmem
  revert hvisible
  decide

end Locator

/-! ### Whole runs -/

/-- The video that a run ends with. -/
def Progress.video? : Progress → Option Artifact
  | .ended (.ok run) => run.artifact
  | _ => none

namespace Orchestrator

/-- The video of a run has an absolute path. -/
theorem isAbsolute_video {runner : Runner} {chance : Chance} {request : Request} {s : Scope}
    {run : Run} (hrun : (conduct runner chance request s).1 = .ended (.ok run)) :
    ∃ a, run.artifact = some a ∧ a.path.isAbsolute = true := by
  obtain ⟨dir, tree, a, ws, ⟨suffix, hdir⟩, ho, hend⟩ := exists_succeed hrun
  obtain ⟨n, -, hpath⟩ := Render.exists_isVideo_of_outcome (congrArg Prod.fst ho)
  have habsolute : dir.isAbsolute = true := by
    rw [hdir]
    exact WorkDir.isAbsolute_candidate ..
  have hvideos := Render.isAbsolute_artifactDir habsolute (WorkDir.scenePath dir)
  rw [hend] at hrun
  cases hrun
  refine ⟨a, rfl, ?_⟩
  rw [hpath]
  exact Path.isAbsolute_join hvideos _

/-- A run that fails shows no video. -/
theorem exists_told_of_failed {runner : Runner} {chance : Chance} {request : Request} {s : Scope}
    {f : Failure} (hf : (conduct runner chance request s).1 = .ended (.error f)) :
    ∃ told, (conduct runner chance request s).2.messages = s.messages ++ told ∧
      ¬ ShowsVideo told := by
  cases hfree : s.orchestrator.busy with
  | true =>
    rw [conduct, Job.begin, if_pos hfree]
    exact ⟨[], (List.append_nil _).symm, showsVideo_nil⟩
  | false =>
    cases hdir : WorkDir.create s.host s.orchestrator.settings.workdirPrefix
        s.orchestrator.settings.tempRoot chance.suffixes with
    | error e =>
      rw [conduct_of_error hfree runner hdir]
      refine ⟨[.loading] ++ (Failure.workingDirectory e).messages, ?_, by simp⟩
      change ((opened s).report _).messages = _
      rw [Scope.messages_report, messages_opened, List.append_assoc]
    | ok made =>
      obtain ⟨dir, tree⟩ := made
      cases hs : Slice.outcome (sliced runner request s dir tree) (WorkDir.scenePath dir) with
      | error f' =>
        rw [conduct_of_unsliced hfree runner hdir hs, Job.messages_fail]
        change ∃ told, (announced request s dir tree).messages ++ _ = _ ∧ _
        rw [messages_announced, List.append_assoc]
        exact ⟨_, rfl, by simp [Message.info]⟩
      | ok scene =>
        have hrun := conduct_of_sliced hfree runner hdir hs
        cases ho : (Render.outcome (rendered runner request s dir tree) dir
          (WorkDir.scenePath dir)).1 with
        | error f' =>
          have htold := (messages_secondJob_of_error chance ho).2
          rw [hrun, htold, messages_announced, List.append_assoc]
          exact ⟨_, rfl, by simp [Message.info]⟩
        | ok a =>
          obtain ⟨run, hend, -⟩ := ended_of_rendered hfree hdir hs ho
          rw [hf] at hend
          cases hend

/-- What a run tells its display prints the line of the video that it ends with. -/
theorem exists_told (runner : Runner) (chance : Chance) (request : Request) (s : Scope) :
    let result := conduct runner chance request s
    ∃ told, result.2.messages = s.messages ++ told ∧
      (Console.ofMessages told).stdout = Console.lineOf result.1.video? := by
  intro result
  obtain ⟨o, after, hends⟩ := conduct_ends runner chance request s
  have hend : result.1 = .ended o := congrArg Prod.fst hends
  cases o with
  | error f =>
    obtain ⟨told, htold, hsilent⟩ := exists_told_of_failed hend
    refine ⟨told, htold, ?_⟩
    rw [Console.stdout_of_not_showsVideo hsilent, hend]
    rfl
  | ok run =>
    obtain ⟨dir, tree, a, ws, -, -, hsucceed⟩ := exists_succeed hend
    obtain ⟨text, htold⟩ := messages_succeed_secondJob chance request s dir tree runner a ws
    have hvideo : result.1.video? = some a := by
      rw [show result = _ from hsucceed]
      rfl
    have hlogs : (Console.ofMessages (rendered runner request s dir tree).logs).stdout = "" :=
      Console.stdout_of_not_showsVideo (showsVideo_logs _)
    rw [← hsucceed] at htold
    refine ⟨_, htold, ?_⟩
    rw [hvideo, Console.stdout_append, Console.stdout_append, hlogs]
    simp [Console.outText, Console.lineOf, Message.loading, Message.info, Message.artifactReady,
      Message.logCleared]

/-- **Standard output is the locator of the video, whatever the tools write.**  What a run prints
comes after what was printed before it.  A run that returns a record prints the locator of the
video in that record and one line break, which is the only one.  A run that returns a failure
prints nothing.  Whatever else differs between two runs, their tools and all that these write
included: if they end with the same video, or both without one, then they print the same. -/
theorem conduct_stdout (runner : Runner) (chance : Chance) (request : Request) (s : Scope) :
    let result := conduct runner chance request s
    ∃ told, result.2.messages = s.messages ++ told ∧
      (Console.ofMessages result.2.messages).stdout =
        (Console.ofMessages s.messages).stdout ++ (Console.ofMessages told).stdout ∧
      (match result.1 with
        | .ended (.ok run) => ∃ a, run.artifact = some a ∧
            (Console.ofMessages told).stdout = a.locator ++ "\n" ∧ '\n' ∉ a.locator.toList
        | .ended (.error _) => (Console.ofMessages told).stdout = ""
        | .running _ => False) ∧
      ∀ runner' chance' request' s' told',
        (conduct runner' chance' request' s').2.messages = s'.messages ++ told' →
        (conduct runner' chance' request' s').1.video? = result.1.video? →
        (Console.ofMessages told').stdout = (Console.ofMessages told).stdout := by
  intro result
  obtain ⟨told, htold, hline⟩ := exists_told runner chance request s
  obtain ⟨o, after, hends⟩ := conduct_ends runner chance request s
  have hend : result.1 = .ended o := congrArg Prod.fst hends
  refine ⟨told, htold, ?_, ?_, ?_⟩
  · rw [htold, Console.stdout_append]
  · have hline' : (Console.ofMessages told).stdout = Console.lineOf result.1.video? := hline
    rw [hend] at hline' ⊢
    cases o with
    | error f => exact hline'
    | ok run =>
      obtain ⟨a, ha, habsolute⟩ := isAbsolute_video hend
      have hvideo : Progress.video? (.ended (.ok run)) = some a := ha
      rw [hvideo] at hline'
      refine ⟨a, ha, hline', ?_⟩
      rw [Artifact.locator_of_isAbsolute habsolute]
      exact Locator.newline_notMem_ofAbsolute a.path
  · intro runner' chance' request' s' told' htold' hvideo
    obtain ⟨told'', htold'', hline'⟩ := exists_told runner' chance' request' s'
    have hsame : told' = told'' := List.append_cancel_left (htold'.symm.trans htold'')
    rw [hsame, hline', hline, hvideo]

/-- Tools that leave a video and write something. -/
def noisyRunner (chunks : List Chunk) : Runner := fun h c => { videoRunner h c with chunks }

/-- Tools that write the locator of another video have the run print what it prints with tools
that write nothing. -/
theorem conduct_stdout_noisy :
    let s : Scope :=
      { orchestrator := { settings :=
          { tempRoot := some (Path.ofString "/"), workdirPrefix := "" } }
        host := {} }
    let result (chunks : List Chunk) :=
      conduct (noisyRunner chunks) { suffixes := fun _ => "1" } ⟨"", 3, none, by decide⟩ s
    let noise : List Chunk := [⟨.stdout, "file:///1/other.mp4\n"⟩]
    (result noise).1.video? = (result []).1.video? ∧
      (Console.ofMessages (result []).2.messages).stdout
        = "file:///1/media/videos/temp_scene/480p15/Intro.mp4\n" ∧
      (Console.ofMessages (result noise).2.messages).stdout
        = (Console.ofMessages (result []).2.messages).stdout := by
  intro s result noise
  let video : Artifact := ⟨Path.ofString "/1/media/videos/temp_scene/480p15/Intro.mp4"⟩
  let tree : FileTree := ⟨[([encode "1"], .directory)]⟩
  have hdir : WorkDir.create s.host s.orchestrator.settings.workdirPrefix
      s.orchestrator.settings.tempRoot (fun _ => "1") = .ok (Path.ofString "/1", tree) := by cbv
  have hlocator : video.locator = "file:///1/media/videos/temp_scene/480p15/Intro.mp4" := by
    decide +kernel
  have hends : ∀ chunks, ∃ run, (result chunks).1 = .ended (.ok run) ∧
      run.artifact = some video := by
    intro chunks
    have hs : Slice.outcome (sliced (noisyRunner chunks) ⟨"", 3, none, by decide⟩ s
        (Path.ofString "/1") tree) (WorkDir.scenePath (Path.ofString "/1"))
          = .ok (WorkDir.scenePath (Path.ofString "/1")) := by cbv
    have ho : (Render.outcome (rendered (noisyRunner chunks) ⟨"", 3, none, by decide⟩ s
        (Path.ofString "/1") tree) (Path.ofString "/1")
          (WorkDir.scenePath (Path.ofString "/1"))).1 = .ok video := by cbv
    exact ended_of_rendered rfl hdir hs ho
  obtain ⟨run, hrun, hvideo⟩ := hends []
  obtain ⟨run', hrun', hvideo'⟩ := hends noise
  have hsame : (result noise).1.video? = (result []).1.video? := by
    rw [hrun, hrun']
    exact hvideo'.trans hvideo.symm
  obtain ⟨told, htold, hprinted, hline, halike⟩ := conduct_stdout (noisyRunner [])
    { suffixes := fun _ => "1" } ⟨"", 3, none, by decide⟩ s
  obtain ⟨told', htold', hprinted', -⟩ := conduct_stdout (noisyRunner noise)
    { suffixes := fun _ => "1" } ⟨"", 3, none, by decide⟩ s
  have hnone : (Console.ofMessages s.messages).stdout = "" := rfl
  rw [hnone, String.empty_append] at hprinted hprinted'
  have hline' : (Console.ofMessages told).stdout = video.locator ++ "\n" := by
    simp only [show (conduct (noisyRunner []) _ _ s).1 = _ from hrun] at hline
    obtain ⟨a, ha, hline, -⟩ := hline
    rw [hvideo] at ha
    cases ha
    exact hline
  refine ⟨hsame, ?_, ?_⟩
  · rw [hprinted, hline', hlocator]
    decide +kernel
  · rw [hprinted, hprinted']
    exact halike _ _ _ _ _ htold' hsame

end Orchestrator

end ScenePreview

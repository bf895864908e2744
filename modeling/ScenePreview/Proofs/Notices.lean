import ScenePreview.Proofs.Calls
import ScenePreview.Proofs.Deeds
import ScenePreview.Proofs.OneLine

/-!
# Notices are one line

A notice is shown on one line.  Before the transformer runs its command line is announced, and at
the end of a run that failed there is the message of the failure; what the tools write goes to the
log.  So no output of a tool breaks a notice over several lines.

## Main definitions

* `NoticesAreOneLine` — messages whose notices are one line.
* `Incident`, `Progress.meet` — what can come to a run that waits, and how it goes on.
* `Progress.Tidy` — a run that has sent one-line notices only.

## Main results

* `Progress.Tidy.step`, `Progress.Tidy.begin` — every step of a run keeps it tidy.
* `Progress.Tidy.foldl_meet` — however many things come to a run, it stays tidy.
* `Orchestrator.exists_conduct_eq` — a run that is conducted goes on incident by incident.
* `Orchestrator.notices_one_line` — **no notice of a run has a line feed, whatever the tools
  write.**
-/

namespace ScenePreview

open Text

/-! ### Messages -/

/-- Whether all notices among the messages are one line. -/
def NoticesAreOneLine (ms : List Message) : Prop := ∀ n, .notice n ∈ ms → IsOneLine n.text

@[simp] theorem noticesAreOneLine_nil : NoticesAreOneLine [] := by
  simp [NoticesAreOneLine]

@[simp] theorem noticesAreOneLine_append (ms ms' : List Message) :
    NoticesAreOneLine (ms ++ ms') ↔ NoticesAreOneLine ms ∧ NoticesAreOneLine ms' := by
  simp [NoticesAreOneLine, or_imp, forall_and]

@[simp] theorem noticesAreOneLine_event (e : Event) (ms : List Message) :
    NoticesAreOneLine (.event e :: ms) ↔ NoticesAreOneLine ms := by
  simp [NoticesAreOneLine]

@[simp] theorem noticesAreOneLine_notice (n : Notice) (ms : List Message) :
    NoticesAreOneLine (.notice n :: ms) ↔ IsOneLine n.text ∧ NoticesAreOneLine ms := by
  simp [NoticesAreOneLine]

/-- What is told of a failure has one notice, its message; the diagnostic text is none. -/
theorem noticesAreOneLine_failure (f : Failure) : NoticesAreOneLine f.messages ↔ f.IsPlain := by
  rw [← f.isOneLine_message_iff]
  unfold Failure.messages
  split
  · split <;> simp [Message.error, Message.log]
  · simp [Message.error]

/-! ### Failures of a stage -/

/-- What is said of a process that could not be started is one line. -/
def Failure.StartIsPlain : Failure → Prop
  | .launch _ command reason => IsOneLine command ∧ IsOneLine reason
  | _ => True

theorem Failure.isPlain_ofRunner {stage : Stage} {e : ProcessError}
    (h : (ofRunner stage e).StartIsPlain) : (ofRunner stage e).IsPlain := by
  cases e with
  | launch command cause => exact h
  | io command cause => cases stage <;> trivial

theorem Slice.isPlain_of_settle {r : Except ProcessError ProcessResult} {f : Failure}
    (h : Slice.settle r = .error f) (hstart : f.StartIsPlain) : f.IsPlain := by
  unfold settle at h
  split at h
  · cases h
    exact Failure.isPlain_ofRunner hstart
  · split at h
    · cases h
    · cases h
      trivial

theorem Slice.isPlain_of_confirm {found : Bool} {stderr : String} {scene : Path} {f : Failure}
    (h : Slice.confirm found stderr scene = .error f) : f.IsPlain := by
  unfold confirm at h
  split_ifs at h
  cases h
  trivial

theorem Render.isPlain_of_settle {r : Except ProcessError ProcessResult} {f : Failure}
    (h : Render.settle r = .error f) (hstart : f.StartIsPlain) : f.IsPlain := by
  unfold settle at h
  split at h
  · cases h
    exact Failure.isPlain_ofRunner hstart
  · split at h
    · cases h
    · cases h
      trivial

theorem Artifact.isOneLine_of_search {h : Host} {dir : Path} {reason : String}
    {ws : List Warning} (hs : search h dir = (.error reason, ws)) : IsOneLine reason := by
  unfold search at hs
  split at hs
  · next e hread =>
    cases hs
    rw [isOneLine_append]
    exact ⟨by decide, FileTree.isOneLine_of_readDir _ hread⟩
  · unfold choose at hs
    split at hs
    · cases hs
      decide
    · cases hs
    · cases hs

theorem Artifact.isPlain_of_find {h : Host} {dir : Path} {stderr : String} {f : Failure}
    {ws : List Warning} (hdir : IsOneLine dir.display) (hf : find h dir stderr = (.error f, ws)) :
    f.IsPlain := by
  unfold find at hf
  split at hf
  · cases hf
  · next hsearch =>
    cases hf
    exact ⟨hdir, isOneLine_of_search hsearch⟩

/-! ### Command lines -/

theorem Path.isOneLine_display_child {p : Path} (h : IsOneLine p.display) {name : String}
    (hname : StartsPlain name) (hline : IsOneLine name) : IsOneLine (p.child name).display := by
  obtain ⟨gap, hgap, hdisplay⟩ := p.exists_display_child hname
  have hgap : IsOneLine gap := by
    rcases hgap with rfl | rfl <;> decide
  rw [hdisplay, isOneLine_append, isOneLine_append]
  exact ⟨⟨h, hgap⟩, hline⟩

theorem WorkDir.isOneLine_display_scenePath {dir : Path} (h : IsOneLine dir.display) :
    IsOneLine (scenePath dir).display :=
  Path.isOneLine_display_child h ⟨'t', by decide, by decide, by decide⟩ (by decide)

theorem Render.isOneLine_display_artifactDir {dir : Path} (h : IsOneLine dir.display) :
    IsOneLine (artifactDir dir (WorkDir.scenePath dir)).display := by
  rw [artifactDir_scenePath]
  have hmedia : IsOneLine (dir.child "media").display :=
    Path.isOneLine_display_child h ⟨'m', by decide, by decide, by decide⟩ (by decide)
  have hvideos : IsOneLine ((dir.child "media").child "videos").display :=
    Path.isOneLine_display_child hmedia ⟨'v', by decide, by decide, by decide⟩ (by decide)
  have hscene : IsOneLine (((dir.child "media").child "videos").child "temp_scene").display :=
    Path.isOneLine_display_child hvideos ⟨'t', by decide, by decide, by decide⟩ (by decide)
  exact Path.isOneLine_display_child hscene ⟨'4', by decide, by decide, by decide⟩ (by decide)

/-- Settings whose parts are one line, as far as a notice names them. -/
structure Settings.IsPlain (s : Settings) : Prop where
  /-- The launcher of environments. -/
  launcher : IsOneLine s.launcher
  /-- The interpreter of the transformer. -/
  interpreter : IsOneLine s.interpreter
  /-- The path of the transformer. -/
  transformer : IsOneLine s.transformer.display

/-- A request whose environment, if there is one, has a name of one line. -/
def Request.IsPlain (r : Request) : Prop :=
  ∀ name, r.environment = some name → IsOneLine name

theorem Invocation.isOneLine_leading {environment : Option String} {launcher : String}
    (hlauncher : IsOneLine launcher)
    (henvironment : ∀ name, environment = some name → IsOneLine name) :
    ∀ part ∈ leading environment launcher, IsOneLine part := by
  cases environment with
  | none => simp [leading]
  | some name =>
    have hrun : IsOneLine "run" := by decide
    have hflag : IsOneLine "-n" := by decide
    simpa [leading, hrun, hflag] using ⟨hlauncher, henvironment name rfl⟩

/-- The announcement of the transformer is one line. -/
theorem Slice.isOneLine_announcement {settings : Settings} {request : Request} {scene : Path}
    (hsettings : settings.IsPlain) (hrequest : request.IsPlain)
    (hscene : IsOneLine scene.display) :
    IsOneLine (Job.announcement (Slice.invocation settings request scene)) := by
  have hline : IsOneLine (toString request.targetLine.toNat) := isOneLine_decimal _
  unfold Job.announcement Invocation.display
  rw [isOneLine_append]
  refine ⟨by decide, isOneLine_intercalate (by decide) fun part hpart => ?_⟩
  rw [argv_invocation, List.mem_append] at hpart
  rcases hpart with hpart | hpart
  · exact Invocation.isOneLine_leading hsettings.launcher hrequest part hpart
  · simp only [List.mem_cons, List.not_mem_nil, or_false] at hpart
    rcases hpart with rfl | rfl | rfl | rfl
    · exact hsettings.interpreter
    · exact hsettings.transformer
    · exact hscene
    · exact hline

/-! ### Runs step by step -/

/-- What can come to a run that waits. -/
inductive Incident where
  /-- Somebody changes the files, or anything else of the host. -/
  | change (h : Host)
  /-- The job is told something. -/
  | tell (signal : Signal)

/-- How a run goes on.  What comes after its end is nothing to it. -/
def Progress.meet : Progress × Scope → Incident → Progress × Scope
  | (.running j, s), .change h => (.running j, { s with host := h })
  | (.running j, s), .tell signal => j.step signal s
  | (.ended o, s), _ => (.ended o, s)

/-- A job that is told of output goes on as it was. -/
theorem Job.step_output_running (j : Job) (c : Chunk) (s : Scope) :
    (j.step (.output c) s).1 = .running j := by
  obtain ⟨request, run, dir, completedAt, phase⟩ := j
  cases phase <;> rfl

theorem Job.foldl_meet_output (j : Job) (cs : List Chunk) (s : Scope) :
    (cs.map fun c => Incident.tell (.output c)).foldl Progress.meet (.running j, s) =
      (.running j, cs.foldl (fun s c => (j.step (.output c) s).2) s) := by
  induction cs generalizing s with
  | nil => rfl
  | cons c cs ih =>
    have hstep : Progress.meet (.running j, s) (.tell (.output c)) =
        (.running j, (j.step (.output c) s).2) :=
      Prod.ext (j.step_output_running c s) rfl
    rw [List.map_cons, List.foldl_cons, List.foldl_cons, hstep, ih]

/-- A job up to the end of its process goes on incident by incident. -/
theorem Job.exists_play_eq (runner : Runner) (j : Job) (s : Scope) :
    ∃ incidents : List Incident,
      j.play runner s = incidents.foldl Progress.meet (.running j, s) := by
  let ran := runner s.host (j.call s.orchestrator.settings)
  refine ⟨.change ran.host :: (ran.chunks.map fun c => .tell (.output c)) ++
    [.tell (.exited ran.result), .tell .resumed], ?_⟩
  rw [List.cons_append, List.foldl_cons, List.foldl_append, Progress.meet, foldl_meet_output,
    List.foldl_cons, List.foldl_cons, List.foldl_nil, Progress.meet, play]
  rcases j.step (.exited ran.result) _ with ⟨j' | o, s'⟩ <;> rfl

/-- A run that is conducted goes on incident by incident. -/
theorem Orchestrator.exists_conduct_eq (runner : Runner) (chance : Chance) (request : Request)
    (s : Scope) :
    ∃ incidents : List Incident, conduct runner chance request s =
      incidents.foldl Progress.meet (Job.begin chance request s) := by
  unfold conduct
  rcases Job.begin chance request s with ⟨j | o, s₁⟩
  · obtain ⟨first, hfirst⟩ := j.exists_play_eq runner s₁
    dsimp only
    rw [hfirst]
    rcases hplayed : first.foldl Progress.meet (.running j, s₁) with ⟨j' | o, s₂⟩
    · obtain ⟨second, hsecond⟩ := j'.exists_play_eq runner s₂
      exact ⟨first ++ second, by rw [List.foldl_append, hplayed, ← hsecond]⟩
    · exact ⟨first, hplayed.symm⟩
  · exact ⟨[], rfl⟩

/-! ### Tidy runs -/

/-- What the end of a run says of a process that could not be started is one line. -/
def Progress.StartIsPlain : Progress → Prop
  | .ended (.error f) => f.StartIsPlain
  | _ => True

/-- A run that has sent one-line notices only, and can go on so. -/
structure Progress.Tidy (before : List Message) (r : Progress × Scope) : Prop where
  /-- What it has sent. -/
  told : ∃ told, r.2.messages = before ++ told ∧ (r.1.StartIsPlain → NoticesAreOneLine told)
  /-- The path that it may have to name. -/
  dir : ∀ j, r.1 = .running j → IsOneLine j.dir.display

namespace Progress.Tidy

variable {before : List Message} {j : Job} {s : Scope}

/-- A run that says a few things more. -/
theorem more (h : Tidy before (.running j, s)) {r : Progress × Scope} {ms : List Message}
    (hms : r.2.messages = s.messages ++ ms) (hline : r.1.StartIsPlain → NoticesAreOneLine ms)
    (hdir : ∀ j', r.1 = .running j' → j'.dir = j.dir) : Tidy before r := by
  obtain ⟨told, htold, htidy⟩ := h.told
  refine ⟨⟨told ++ ms, ?_, fun hr => ?_⟩, fun j' hj' => ?_⟩
  · rw [hms, ← List.append_assoc]
    exact congrArg (· ++ ms) htold
  · exact (noticesAreOneLine_append told ms).2 ⟨htidy trivial, hline hr⟩
  · rw [hdir j' hj']
    exact h.dir j rfl

theorem fail (h : Tidy before (.running j, s)) {f : Failure} (hf : f.StartIsPlain → f.IsPlain) :
    Tidy before (j.fail f s) := by
  refine h.more (Job.messages_fail s f) (fun hstart => ?_) fun j' hj' => by cases hj'
  exact (noticesAreOneLine_failure f).2 (hf hstart)

theorem succeed (h : Tidy before (.running j, s)) (a : Artifact) :
    Tidy before (j.succeed a s) := by
  refine h.more (Job.messages_succeed s a) (fun _ => ?_) fun j' hj' => by cases hj'
  simp [Message.artifactReady, Message.logCleared]

/-- A run that goes on and says nothing with a line feed in it. -/
theorem goOn (h : Tidy before (.running j, s)) {j' : Job} {s' : Scope} {ms : List Message}
    (hdir : j'.dir = j.dir) (hms : s'.messages = s.messages ++ ms) (hline : NoticesAreOneLine ms) :
    Tidy before (.running j', s') :=
  h.more hms (fun _ => hline) fun j'' hj'' => by cases hj''; exact hdir

/-- What a job is told does not make it send anything but one-line notices. -/
theorem step (h : Tidy before (.running j, s)) (signal : Signal) :
    Tidy before (j.step signal s) := by
  have hsilent : s.messages = s.messages ++ [] := (List.append_nil _).symm
  have hdir : IsOneLine j.dir.display := h.dir j rfl
  obtain ⟨request, run, dir, completedAt, phase⟩ := j
  -- what a job does not wait for changes nothing
  cases phase with
  | slicing =>
    cases signal with
    | exited r =>
      rw [Job.step_slicing_exited s rfl]
      cases hr : Slice.settle r with
      | error f => exact h.fail (Slice.isPlain_of_settle hr)
      | ok stderr => exact h.goOn rfl hsilent noticesAreOneLine_nil
    | output c => exact h
    | resumed => exact h
  | confirming stderr =>
    cases signal with
    | resumed =>
      rw [Job.step_confirming_resumed s rfl]
      cases hr : Slice.confirm (s.host.exists (WorkDir.scenePath dir)) stderr
        (WorkDir.scenePath dir) with
      | error f => exact h.fail fun _ => Slice.isPlain_of_confirm hr
      | ok scene => exact h.goOn rfl (by simp) noticesAreOneLine_nil
    | output c => exact h
    | exited r => exact h
  | rendering =>
    cases signal with
    | output c =>
      rw [Job.step_rendering_output s rfl]
      exact h.goOn rfl (Scope.messages_say s _) (by simp [Message.log])
    | exited r =>
      rw [Job.step_rendering_exited s rfl]
      cases hr : Render.settle r with
      | error f => exact h.fail (Render.isPlain_of_settle hr)
      | ok stderr => exact h.goOn rfl hsilent noticesAreOneLine_nil
    | resumed => exact h
  | searching stderr =>
    cases signal with
    | resumed =>
      rw [Job.step_searching_resumed s rfl]
      rcases hr : Artifact.find s.host (Render.artifactDir dir (WorkDir.scenePath dir)) stderr with
        ⟨found, ws⟩
      have hwarned := h.goOn rfl ((s.messages_warn ws).trans hsilent) noticesAreOneLine_nil
      cases found with
      | error f =>
        exact hwarned.fail fun _ =>
          Artifact.isPlain_of_find (Render.isOneLine_display_artifactDir hdir) hr
      | ok a => exact hwarned.succeed a
    | output c => exact h
    | exited r => exact h

/-- Nothing that comes to a run makes it send anything but one-line notices. -/
theorem meet {r : Progress × Scope} (h : Tidy before r) (i : Incident) :
    Tidy before (Progress.meet r i) := by
  obtain ⟨j | o, s⟩ := r
  · cases i with
    | change host => exact ⟨h.told, h.dir⟩
    | tell signal => exact h.step signal
  · exact h

/-- However many things come to a run, it sends one-line notices only. -/
theorem foldl_meet {r : Progress × Scope} (h : Tidy before r) (incidents : List Incident) :
    Tidy before (incidents.foldl Progress.meet r) := by
  induction incidents generalizing r with
  | nil => exact h
  | cons i is ih => exact ih (h.meet i)

/-- A run begins with one-line notices only. -/
theorem begin {chance : Chance} {request : Request}
    (hsettings : s.orchestrator.settings.IsPlain) (hrequest : request.IsPlain)
    (hdir : ∀ dir tree, WorkDir.create s.host s.orchestrator.settings.workdirPrefix
      s.orchestrator.settings.tempRoot chance.suffixes = .ok (dir, tree) →
        IsOneLine dir.display) :
    Tidy s.messages (Job.begin chance request s) := by
  cases hbusy : s.orchestrator.busy with
  | true =>
    rw [Job.begin_of_busy chance request hbusy]
    exact ⟨⟨[], (List.append_nil _).symm, fun _ => noticesAreOneLine_nil⟩, fun j hj => by cases hj⟩
  | false =>
    cases hmade : WorkDir.create s.host s.orchestrator.settings.workdirPrefix
        s.orchestrator.settings.tempRoot chance.suffixes with
    | error e =>
      rw [Orchestrator.begin_of_error hbusy hmade]
      have hplain : (Failure.workingDirectory e).IsPlain := WorkDir.isOneLine_of_createFrom hmade
      refine ⟨⟨.loading :: (Failure.workingDirectory e).messages, ?_, fun _ => ?_⟩,
        fun j hj => by cases hj⟩
      · change ((Orchestrator.opened s).report (.workingDirectory e)).messages = _
        rw [Scope.messages_report, Orchestrator.messages_opened, List.append_assoc]
        rfl
      · rw [Message.loading, noticesAreOneLine_event, noticesAreOneLine_failure]
        exact hplain
    | ok made =>
      obtain ⟨dir, tree⟩ := made
      rw [Orchestrator.begin_of_ok hbusy hmade]
      have hline : IsOneLine dir.display := hdir dir tree hmade
      refine ⟨⟨_, Orchestrator.messages_announced request s dir tree, fun _ => ?_⟩,
        fun j hj => by cases hj; exact hline⟩
      rw [Message.loading, Message.info, noticesAreOneLine_event, noticesAreOneLine_notice]
      exact ⟨Slice.isOneLine_announcement hsettings hrequest
        (WorkDir.isOneLine_display_scenePath hline), noticesAreOneLine_nil⟩

end Progress.Tidy

namespace Orchestrator

/-- **No notice of a run has a line feed, whatever the tools write.**  The settings, the name of
the environment and the path of the working directory have to be one line, and so have the
command and the reason of a process that could not be started.  Nothing is asked of what the
tools print, of their exit codes, or of the text of an error while a process runs, which stands
for what it printed.  This is said of whole runs, on processes of any runner, and of runs that
are cut off, whatever has come to them until then. -/
theorem notices_one_line (chance : Chance) (request : Request) (s : Scope)
    (hsettings : s.orchestrator.settings.IsPlain)
    (henvironment : ∀ name, request.environment = some name → '\n' ∉ name.toList)
    (hdir : ∀ dir tree, WorkDir.create s.host s.orchestrator.settings.workdirPrefix
      s.orchestrator.settings.tempRoot chance.suffixes = .ok (dir, tree) →
        '\n' ∉ dir.display.toList)
    (result : Progress × Scope)
    (hresult : (∃ runner, result = conduct runner chance request s) ∨
      ∃ incidents : List Incident,
        result = incidents.foldl Progress.meet (Job.begin chance request s))
    (hstart : ∀ stage command reason, result.1 = .ended (.error (.launch stage command reason)) →
      '\n' ∉ command.toList ∧ '\n' ∉ reason.toList) :
    ∃ told, result.2.messages = s.messages ++ told ∧
      ∀ n, .notice n ∈ told → '\n' ∉ n.text.toList := by
  have hbegin : Progress.Tidy s.messages (Job.begin chance request s) :=
    .begin hsettings henvironment hdir
  have htidy : Progress.Tidy s.messages result := by
    rcases hresult with ⟨runner, rfl⟩ | ⟨incidents, rfl⟩
    · obtain ⟨incidents, hconduct⟩ := exists_conduct_eq runner chance request s
      rw [hconduct]
      exact hbegin.foldl_meet incidents
    · exact hbegin.foldl_meet incidents
  have hplain : result.1.StartIsPlain := by
    unfold Progress.StartIsPlain Failure.StartIsPlain
    split
    · split
      · next hended => exact hstart _ _ _ hended
      · trivial
    · trivial
  obtain ⟨told, htold, hline⟩ := htidy.told
  exact ⟨told, htold, hline hplain⟩

/-- Tools whose output cannot be read, with an error of several lines. -/
def brokenRunner : Runner := fun h _ =>
  { chunks := [⟨.stdout, "one\ntwo\n"⟩]
    result := .error (.io "python\n" (.other "broken\r\npipe\n"))
    host := h }

/-- Of an error of several lines one is shown. -/
theorem notices_one_line_broken :
    let s : Scope :=
      { orchestrator := { settings :=
          { tempRoot := some (Path.ofString "/"), workdirPrefix := "" } }
        host := {} }
    let request : Request := ⟨"text\n", 12, some "envA", by decide⟩
    let result := conduct brokenRunner { suffixes := fun _ => "1" } request s
    result.2.messages = [.loading, .info
        "Running command: conda run -n envA python transformer.py /1/temp_scene.py 12",
        .error "Slice extraction failed: pipe",
        .log "I/O error while running \"python\n\": broken\r\npipe\n"] ∧
      ∀ n, .notice n ∈ result.2.messages → '\n' ∉ n.text.toList := by
  intro s request result
  let tree : FileTree := ⟨[([Text.Utf8.encode "1"], .directory)]⟩
  let stderr := "I/O error while running \"python\n\": broken\r\npipe\n"
  have hdir : WorkDir.create s.host s.orchestrator.settings.workdirPrefix
      s.orchestrator.settings.tempRoot (fun _ => "1") = .ok (Path.ofString "/1", tree) := by cbv
  have houtcome : Slice.outcome (sliced brokenRunner request s (Path.ofString "/1") tree)
      (WorkDir.scenePath (Path.ofString "/1")) = .error (.sliceExtraction stderr) := rfl
  have hresult : result = _ := conduct_of_unsliced rfl brokenRunner hdir houtcome
  have hcommand : " ".intercalate (Slice.invocation s.orchestrator.settings request
      (WorkDir.scenePath (Path.ofString "/1"))).argv =
        "conda run -n envA python transformer.py /1/temp_scene.py 12" := by
    cbv
  have hsummary : summary stderr = "pipe" := by cbv
  have htold : (Failure.sliceExtraction stderr).messages =
      [.error ("Slice extraction failed: " ++ summary stderr), .log stderr] := rfl
  have hmessages : result.2.messages = [.loading,
      .info "Running command: conda run -n envA python transformer.py /1/temp_scene.py 12",
      .error "Slice extraction failed: pipe", .log stderr] := by
    rw [hresult, Job.messages_fail, htold, hsummary]
    change (announced request s (Path.ofString "/1") tree).messages ++ _ = _
    rw [messages_announced, hcommand]
    rfl
  have hend : result.1 = .ended (.error (.sliceExtraction stderr)) := by
    rw [hresult]
    rfl
  have hsettings : s.orchestrator.settings.IsPlain :=
    ⟨by decide, by decide, by decide +kernel⟩
  have henvironment : ∀ name, request.environment = some name → '\n' ∉ name.toList := by
    intro name hname
    cases hname
    decide
  have hpath : '\n' ∉ (Path.ofString "/1").display.toList := by decide +kernel
  have hplace : ∀ dir tree, WorkDir.create s.host s.orchestrator.settings.workdirPrefix
      s.orchestrator.settings.tempRoot (fun _ => "1") = .ok (dir, tree) →
        '\n' ∉ dir.display.toList := by
    intro dir tree hmade
    rw [hdir] at hmade
    cases hmade
    exact hpath
  have hstart : ∀ stage command reason,
      result.1 = .ended (.error (.launch stage command reason)) →
        '\n' ∉ command.toList ∧ '\n' ∉ reason.toList := by
    intro stage command reason hlaunch
    rw [hend] at hlaunch
    cases hlaunch
  refine ⟨hmessages, ?_⟩
  obtain ⟨told, htold, hline⟩ := notices_one_line { suffixes := fun _ => "1" } request s hsettings
    henvironment hplace result (.inl ⟨brokenRunner, rfl⟩) hstart
  rw [htold]
  exact hline

end Orchestrator

end ScenePreview

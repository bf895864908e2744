import ScenePreview.Proofs.FileName
import ScenePreview.Proofs.Plan
import ScenePreview.Proofs.Requests

/-!
# What rendering needs to start

Rendering looks at four things before its run: the configuration, the script, its language and the
line.  Here it is said which commands pass, what stops the others, and that a command which is
stopped has done nothing but say why.

## Main definitions

* `RenderCommand.scriptBytes`, `RenderCommand.Speaks` — the script and its language.
* `RenderCommand.Ready`, `RenderCommand.Unmet` — nothing stops a command, or the first thing that
  does.
* `RenderCommand.run?`, `RenderCommand.Starts` — the run of a command, if there is one.
* `RenderCommand.shown` — what a command leaves of its run.

## Main results

* `RenderCommand.readScript_eq` — the script is read if its bytes are those of a text.
* `RenderCommand.speaks_iff` — every script has one language.
* `RenderCommand.prepare_of_unmet`, `RenderCommand.ready_or_unmet` — nothing stops a command, or the
  first thing that does is its error.
* `RenderCommand.starts_exactly` — **which commands start, and what the others leave.**
-/

namespace ScenePreview

open Text.Utf8

/-! ### Loading comes first -/

/-- The first thing that an accepted run tells its display is that it loads. -/
theorem Orchestrator.exists_messages_of_free (runner : Runner) (chance : Chance)
    (request : Request) {s : Scope} (hfree : s.orchestrator.busy = false) :
    ∃ told, (conduct runner chance request s).2.messages = s.messages ++ .loading :: told := by
  cases hdir : WorkDir.create s.host s.orchestrator.settings.workdirPrefix
      s.orchestrator.settings.tempRoot chance.suffixes with
  | error e =>
    rw [conduct_of_error hfree runner hdir]
    show ∃ told, ((opened s).report _).messages = _
    rw [Scope.messages_report, messages_opened, List.append_assoc]
    exact ⟨_, rfl⟩
  | ok made =>
    obtain ⟨dir, tree⟩ := made
    cases hs : Slice.outcome (sliced runner request s dir tree) (WorkDir.scenePath dir) with
    | error f =>
      rw [conduct_of_unsliced hfree runner hdir hs, Job.messages_fail]
      show ∃ told, (announced request s dir tree).messages ++ _ = _
      rw [messages_announced, List.append_assoc]
      exact ⟨_, rfl⟩
    | ok scene =>
      rw [conduct_of_sliced hfree runner hdir hs, play_secondJob]
      split
      · rw [Job.messages_fail, Scope.messages_warn, messages_finished, messages_announced,
          List.append_assoc, List.append_assoc]
        exact ⟨_, rfl⟩
      · rw [Job.messages_succeed, Scope.messages_warn, messages_finished, messages_announced,
          List.append_assoc, List.append_assoc]
        exact ⟨_, rfl⟩

/-- An accepted run that has no working directory ends with that, and starts nothing. -/
theorem Orchestrator.unmade_of_free {runner : Runner} {chance : Chance} {request : Request}
    {s : Scope} (hfree : s.orchestrator.busy = false) {e : IoError}
    (hdir : WorkDir.create s.host s.orchestrator.settings.workdirPrefix
      s.orchestrator.settings.tempRoot chance.suffixes = .error e) :
    (conduct runner chance request s).1 = .ended (.error (.workingDirectory e)) ∧
      (conduct runner chance request s).2.calls = s.calls := by
  refine ⟨?_, calls_of_error hfree hdir⟩
  rw [conduct_of_error hfree runner hdir]

/-- An accepted run that has a working directory starts the transformer first. -/
theorem Orchestrator.exists_calls_of_free {runner : Runner} {chance : Chance} {request : Request}
    {s : Scope} {dir : Path} {tree : FileTree} (hfree : s.orchestrator.busy = false)
    (hdir : WorkDir.create s.host s.orchestrator.settings.workdirPrefix
      s.orchestrator.settings.tempRoot chance.suffixes = .ok (dir, tree)) :
    ∃ rest, (conduct runner chance request s).2.calls =
      s.calls ++ Slice.call s.orchestrator.settings request (WorkDir.scenePath dir) :: rest := by
  obtain ⟨hready, hunready⟩ := @calls_of_created runner chance request s dir tree hfree hdir
  by_cases h : (sliced runner request s dir tree).EndedWell ∧
      (sliced runner request s dir tree).host.exists (WorkDir.scenePath dir) = true
  · exact ⟨_, hready h⟩
  · exact ⟨[], hunready h⟩

/-! ### The endings of file names -/

/-- The file name ends so, after something else. -/
def Path.EndsIn (p : Path) (ending : String) : Prop :=
  ∃ stem, stem ≠ [] ∧ p.fileName? = some (stem ++ encode ending)

theorem Path.endsIn_iff {p : Path} {ending extension : String}
    (hending : encode ending = dot :: encode extension) (hdot : dot ∉ encode extension) :
    p.EndsIn ending ↔ p.extension? = some (encode extension) := by
  rw [extension?_eq_some_iff, EndsIn, hending]
  exact (and_iff_right hdot).symm

namespace RenderCommand

variable {c : RenderCommand} {w : Surroundings}

/-! ### The script -/

/-- The bytes of the script: of the file, or of standard input if there is none or that is asked
for. -/
def scriptBytes (c : RenderCommand) (w : Surroundings) : Except IoError (List UInt8) :=
  match c.file, c.stdin with
  | some path, false => w.host.tree.readFile w.host.cwd path
  | _, _ => .ok w.input

/-- The error of a script that cannot be read. -/
def scriptError (c : RenderCommand) (cause : IoError) : CommandError :=
  match c.file, c.stdin with
  | some path, false => .script path cause
  | _, _ => .scriptInput cause

/-- Both kinds of script are read in the same way: their bytes have to be those of a text. -/
theorem readScript_eq (c : RenderCommand) (w : Surroundings) :
    c.readScript w = match c.scriptBytes w with
      | .error e => .error (c.scriptError e)
      | .ok bytes => match decode? bytes with
        | some text => .ok text
        | none => .error (c.scriptError notTextError) := by
  obtain ⟨file, line, stdin, language, format, tools⟩ := c
  rcases file with _ | path
  · rfl
  cases stdin with
  | true => rfl
  | false =>
    simp only [readScript, scriptBytes, scriptError, Host.readText]
    cases w.host.tree.readFile w.host.cwd path with
    | error e => rfl
    | ok bytes =>
      simp only [bind, Except.bind]
      cases decode? bytes <;> rfl

/-! ### The language -/

/-- The name of the file tells that the script is in the known language. -/
def NamedPython (c : RenderCommand) : Prop :=
  ∃ path, c.file = some path ∧ (path.EndsIn ".py" ∨ path.EndsIn ".pyw")

/-- The language of the script. -/
inductive Speaks (c : RenderCommand) : String → Prop where
  /-- The command says it. -/
  | said {language : String} (h : c.language = some language) : Speaks c language
  /-- The name of the file tells it. -/
  | told (hsilent : c.language = none) (h : c.NamedPython) : Speaks c "python"
  /-- Nothing is known. -/
  | unknown (hsilent : c.language = none) (h : ¬ c.NamedPython) : Speaks c "plaintext"

theorem endsInPython_iff (p : Path) :
    p.EndsIn ".py" ∨ p.EndsIn ".pyw" ↔
      p.extension? = some (encode "py") ∨ p.extension? = some (encode "pyw") :=
  or_congr (Path.endsIn_iff (by decide) (by decide)) (Path.endsIn_iff (by decide) (by decide))

theorem Speaks.languageOf_eq {language : String} (h : c.Speaks language) :
    c.languageOf = language := by
  cases h with
  | said h =>
    rw [languageOf, h]
    rfl
  | told hsilent h =>
    obtain ⟨path, hfile, hends⟩ := h
    have htells : languageOfPath? path = some "python" := if_pos ((endsInPython_iff path).1 hends)
    rw [languageOf, hsilent, hfile, Option.bind_some, htells]
    rfl
  | unknown hsilent h =>
    have hsilentName : c.file.bind languageOfPath? = none := by
      cases hfile : c.file with
      | none => rfl
      | some path =>
        apply if_neg
        intro hextension
        exact h ⟨path, hfile, (endsInPython_iff path).2 hextension⟩
    rw [languageOf, hsilent, hsilentName]
    rfl

/-- Every script has one language. -/
theorem speaks_iff {language : String} : c.Speaks language ↔ c.languageOf = language := by
  constructor
  · exact Speaks.languageOf_eq
  · intro h
    have hspeaks : ∃ language, c.Speaks language := by
      cases hlanguage : c.language with
      | some language => exact ⟨language, .said hlanguage⟩
      | none =>
        by_cases hnamed : c.NamedPython
        · exact ⟨_, .told hlanguage hnamed⟩
        · exact ⟨_, .unknown hlanguage hnamed⟩
    obtain ⟨language', hspeaks⟩ := hspeaks
    rw [← h, hspeaks.languageOf_eq]
    exact hspeaks

/-! ### What stops a command -/

/-- Nothing stops a command. -/
structure Ready (c : RenderCommand) (w : Surroundings) (config : Configuration)
    (text : String) : Prop where
  /-- The configuration can be loaded. -/
  loads : Configuration.load w.host w.vars = .ok config
  /-- The script is a text. -/
  script : c.scriptBytes w = .ok (encode text)
  /-- It is in the known language. -/
  language : c.Speaks "python"
  /-- Lines are counted from one. -/
  line : 1 ≤ c.line

/-- The error of the first thing that stops a command; what comes before it is as it should be. -/
inductive Unmet (c : RenderCommand) (w : Surroundings) : CommandError → Prop where
  /-- The configuration cannot be loaded. -/
  | config {e : ConfigError} (hload : Configuration.load w.host w.vars = .error e) :
      Unmet c w (.config e)
  /-- The script cannot be read. -/
  | unreadable {config : Configuration} {e : IoError}
      (hload : Configuration.load w.host w.vars = .ok config)
      (hscript : c.scriptBytes w = .error e) : Unmet c w (c.scriptError e)
  /-- The script is not a text. -/
  | notText {config : Configuration} {bytes : List UInt8}
      (hload : Configuration.load w.host w.vars = .ok config)
      (hscript : c.scriptBytes w = .ok bytes) (hbytes : ∀ text, bytes ≠ encode text) :
      Unmet c w (c.scriptError notTextError)
  /-- The script is in another language. -/
  | language {config : Configuration} {text language : String}
      (hload : Configuration.load w.host w.vars = .ok config)
      (hscript : c.scriptBytes w = .ok (encode text)) (hspeaks : c.Speaks language)
      (hother : language ≠ "python") : Unmet c w (.rejected (.unsupportedLanguage language))
  /-- The line is zero. -/
  | line {config : Configuration} {text : String}
      (hload : Configuration.load w.host w.vars = .ok config)
      (hscript : c.scriptBytes w = .ok (encode text)) (hspeaks : c.Speaks "python")
      (hzero : c.line = 0) : Unmet c w (.rejected .invalidLine)

theorem readScript_of_text {text : String} (h : c.scriptBytes w = .ok (encode text)) :
    c.readScript w = .ok text := by
  have hdecode : decode? (encode text) = some text := decode?_eq_some_iff.2 rfl
  simp only [readScript_eq, h, hdecode]

theorem readScript_of_notText {bytes : List UInt8} (h : c.scriptBytes w = .ok bytes)
    (hbytes : ∀ text, bytes ≠ encode text) :
    c.readScript w = .error (c.scriptError notTextError) := by
  have hdecode : decode? bytes = none := by
    rw [Option.eq_none_iff_forall_ne_some]
    intro text htext
    exact hbytes text (decode?_eq_some_iff.1 htext)
  simp only [readScript_eq, h, hdecode]

theorem prepare_of_script {config : Configuration} {e : CommandError}
    (hload : Configuration.load w.host w.vars = .ok config) (hscript : c.readScript w = .error e) :
    c.prepare w = .error e := by
  simp only [prepare, hload, hscript]
  rfl

/-- The first thing that stops a command is its error. -/
theorem prepare_of_unmet {e : CommandError} (h : c.Unmet w e) : c.prepare w = .error e := by
  cases h with
  | config hload => simp only [prepare, hload]
  | unreadable hload hscript =>
    apply prepare_of_script hload
    simp only [readScript_eq, hscript]
  | notText hload hscript hbytes =>
    exact prepare_of_script hload (readScript_of_notText hscript hbytes)
  | @language config text language hload hscript hspeaks hother =>
    have hlanguage : (c.trigger config text).language = language := hspeaks.languageOf_eq
    rw [prepare_of_ok hload (readScript_of_text hscript), Request.ofTrigger_of_language
      (hlanguage ▸ hother), hlanguage]
  | @line config text hload hscript hspeaks hzero =>
    have hlanguage : (c.trigger config text).language = "python" := hspeaks.languageOf_eq
    rw [prepare_of_ok hload (readScript_of_text hscript), Request.ofTrigger_of_zero hlanguage hzero]

/-- A command that nothing stops makes a request of its script. -/
theorem Ready.exists_prepare {config : Configuration} {text : String} (h : c.Ready w config text) :
    ∃ request, c.prepare w = .ok ((c.tools.apply config).1, request) ∧
      request.sourceText = text := by
  have hlanguage : (c.trigger config text).language = "python" := h.language.languageOf_eq
  have hline : (c.trigger config text).line ≠ 0 := by
    intro hzero
    have hle := h.line
    rw [show c.line = 0 from hzero] at hle
    exact absurd hle (by decide)
  obtain ⟨request, hrequest⟩ := Request.exists_ofTrigger hlanguage hline
  obtain ⟨-, -, htext, -, -⟩ := Request.ofTrigger_eq_ok_iff.1 hrequest
  refine ⟨request, ?_, htext⟩
  rw [prepare_of_ok h.loads (readScript_of_text h.script), hrequest]

/-- Nothing stops a command, or something is the first to do so. -/
theorem ready_or_unmet (c : RenderCommand) (w : Surroundings) :
    (∃ config text, c.Ready w config text) ∨ ∃ e, c.Unmet w e := by
  cases hload : Configuration.load w.host w.vars with
  | error e => exact .inr ⟨_, .config hload⟩
  | ok config =>
    cases hscript : c.scriptBytes w with
    | error e => exact .inr ⟨_, .unreadable hload hscript⟩
    | ok bytes =>
      by_cases htext : ∃ text, bytes = encode text
      · obtain ⟨text, rfl⟩ := htext
        have hspeaks : c.Speaks c.languageOf := speaks_iff.2 rfl
        by_cases hlanguage : c.languageOf = "python"
        · rw [hlanguage] at hspeaks
          by_cases hline : c.line = 0
          · exact .inr ⟨_, .line hload hscript hspeaks hline⟩
          · refine .inl ⟨config, text, hload, hscript, hspeaks, ?_⟩
            grind
        · exact .inr ⟨_, .language hload hscript hspeaks hlanguage⟩
      · exact .inr ⟨_, .notText hload hscript (not_exists.1 htext)⟩

/-! ### Runs -/

/-- The run that rendering conducts, if nothing stops it. -/
def run? (c : RenderCommand) (w : Surroundings) : Option (Progress × Scope) :=
  match c.prepare w with
  | .error _ => none
  | .ok (settings, request) =>
    some (Orchestrator.conduct w.runner w.chance request
      { orchestrator := { settings }, host := w.host })

/-- There is a run, and it tells the display that it loads. -/
def Starts (c : RenderCommand) (w : Surroundings) : Prop :=
  ∃ run, c.run? w = some run ∧ .loading ∈ run.2.messages

/-- What rendering leaves of its run: what the display has printed, and why it failed if it
did. -/
def shown (c : RenderCommand) (run : Progress × Scope) : Finished :=
  match run.1 with
  | .ended (.error f) => (Finished.display c.format run.2.messages run.2.host).ofError (.failed f)
  | _ => Finished.display c.format run.2.messages run.2.host

theorem execute_of_run? {run : Progress × Scope} (h : c.run? w = some run) :
    c.execute w = c.shown run := by
  cases hprepare : c.prepare w with
  | error e =>
    rw [run?, hprepare] at h
    cases h
  | ok settled =>
    rw [run?, hprepare, Option.some.injEq] at h
    simp only [execute, hprepare, h]
    rfl

/-- A command that is stopped says why, and nothing of its surroundings counts but the machine. -/
theorem execute_of_unmet {e : CommandError} (h : c.Unmet w e) (runner : Runner) (chance : Chance) :
    c.execute { w with runner, chance } =
      { exitCode := 1, stdout := "", stderr := e.report, host := w.host } := by
  have hsame : c.prepare { w with runner, chance } = c.prepare w := rfl
  simp only [execute, hsame, prepare_of_unmet h, Finished.ofError, String.empty_append]

theorem run?_of_unmet {e : CommandError} (h : c.Unmet w e) : c.run? w = none := by
  rw [run?, prepare_of_unmet h]

/-- A command that nothing stops conducts a run.  It loads first, and tries to make a working
directory next; the process that it starts in there is given the script. -/
theorem Ready.exists_run {config : Configuration} {text : String} (h : c.Ready w config text) :
    ∃ (request : Request) (run : Progress × Scope) (told : List Message),
      c.run? w = some run ∧ run.2.messages = .loading :: told ∧
      c.execute w = c.shown run ∧
      let settings := (c.tools.apply config).1
      match WorkDir.create w.host settings.workdirPrefix settings.tempRoot w.chance.suffixes with
      | .error e => run.1 = .ended (.error (.workingDirectory e)) ∧ run.2.calls = []
      | .ok (dir, _) => ∃ (slice : Call) (rest : List Call), run.2.calls = slice :: rest ∧
          slice.invocation = Slice.invocation settings request (dir.child "temp_scene.py") ∧
          slice.input = some text := by
  obtain ⟨request, hprepare, rfl⟩ := h.exists_prepare
  have hrun : c.run? w = some (Orchestrator.conduct w.runner w.chance request
      { orchestrator := { settings := (c.tools.apply config).1 }, host := w.host }) := by
    rw [run?, hprepare]
  generalize (c.tools.apply config).1 = settings at *
  let start : Scope := { orchestrator := { settings }, host := w.host }
  have hfree : start.orchestrator.busy = false := rfl
  have hmessages : start.messages = [] := rfl
  have hcalls : start.calls = [] := rfl
  obtain ⟨told, htold⟩ := Orchestrator.exists_messages_of_free w.runner w.chance request hfree
  rw [hmessages, List.nil_append] at htold
  refine ⟨request, Orchestrator.conduct w.runner w.chance request start, told, hrun, htold,
    execute_of_run? hrun, ?_⟩
  dsimp only
  cases hdir : WorkDir.create w.host settings.workdirPrefix settings.tempRoot
    w.chance.suffixes with
  | error e =>
    rw [← hcalls]
    exact Orchestrator.unmade_of_free hfree hdir
  | ok made =>
    obtain ⟨dir, tree⟩ := made
    obtain ⟨rest, hrest⟩ := Orchestrator.exists_calls_of_free hfree hdir
    rw [hcalls, List.nil_append] at hrest
    exact ⟨_, rest, hrest, rfl, rfl⟩

/-- **Which commands start, and what the others leave.**  Rendering starts exactly if the
configuration can be loaded, the script is a text, its language is the known one and the line is
not zero.  Any other command has a first thing, in this order, that stops it.  It conducts no run:
whatever would run its processes and name its working directory, it prints the error on standard
error, ends with code one and leaves the machine as it was.  Of a malformed configuration the text
is told up to the path of the file, without what the parser adds to it.  A command that starts first
tells its display that it loads, and tries to make a working directory.  If there is none then it
starts no process, and otherwise the transformer is the first, with the script on its standard
input. -/
theorem starts_exactly (c : RenderCommand) (w : Surroundings) :
    (c.Starts w ↔ ∃ config text, c.Ready w config text) ∧
    (¬ c.Starts w ↔ ∃ e, c.Unmet w e) ∧
    (∀ e, c.Unmet w e → c.run? w = none ∧ ∀ runner chance,
      c.execute { w with runner, chance } =
        { exitCode := 1, stdout := "", stderr := e.report, host := w.host }) ∧
    (∀ config text, c.Ready w config text →
      ∃ (request : Request) (run : Progress × Scope) (told : List Message),
        c.run? w = some run ∧ run.2.messages = .loading :: told ∧
        c.execute w = c.shown run ∧
        let settings := (c.tools.apply config).1
        match WorkDir.create w.host settings.workdirPrefix settings.tempRoot
          w.chance.suffixes with
        | .error e => run.1 = .ended (.error (.workingDirectory e)) ∧ run.2.calls = []
        | .ok (dir, _) => ∃ (slice : Call) (rest : List Call), run.2.calls = slice :: rest ∧
            slice.invocation = Slice.invocation settings request (dir.child "temp_scene.py") ∧
            slice.input = some text) := by
  have hready : (∃ config text, c.Ready w config text) → c.Starts w := by
    rintro ⟨config, text, h⟩
    obtain ⟨request, run, told, hrun, htold, -⟩ := h.exists_run
    refine ⟨run, hrun, ?_⟩
    rw [htold]
    exact List.mem_cons_self
  have hunmet : (∃ e, c.Unmet w e) → ¬ c.Starts w := by
    rintro ⟨e, h⟩ ⟨run, hrun, -⟩
    rw [run?_of_unmet h] at hrun
    cases hrun
  refine ⟨⟨?_, hready⟩, ⟨?_, hunmet⟩, ?_, fun config text h => h.exists_run⟩
  · intro h
    exact (c.ready_or_unmet w).resolve_right fun he => hunmet he h
  · intro h
    exact (c.ready_or_unmet w).resolve_left fun hr => h (hready hr)
  · intro e h
    exact ⟨run?_of_unmet h, execute_of_unmet h⟩

/-- The name of a file tells the language of the script on standard input, also with a slash after
it; a name that is an ending and nothing else tells nothing, and that counts before the line. -/
theorem starts_exactly_stage :
    let config : Configuration := { environment := none, settings := {}, configFile := none }
    let c : RenderCommand :=
      { file := some (Path.ofString "lib/x.py/"), line := 3, stdin := true }
    let hidden : RenderCommand :=
      { file := some (Path.ofString "lib/.py"), line := 0, stdin := true }
    (c.Ready stage config "text" ∧ c.Starts stage ∧
      ∃ run slice rest, c.run? stage = some run ∧ run.2.calls = slice :: rest ∧
        slice.input = some "text") ∧
    (hidden.Unmet stage (.rejected (.unsupportedLanguage "plaintext")) ∧
      ¬ hidden.Starts stage ∧ hidden.run? stage = none ∧
      hidden.execute stage =
        { exitCode := 1
          stdout := ""
          stderr :=
            "Error: This command is only available for Python files (got 'plaintext')\n"
          host := stage.host }) := by
  intro config c hidden
  have hload : Configuration.load stage.host stage.vars = .ok config := by cbv
  constructor
  · have hname : (Path.ofString "lib/x.py/").fileName? = some (encode "x" ++ encode ".py") := by cbv
    have hready : c.Ready stage config "text" :=
      { loads := hload
        script := rfl
        language := .told rfl ⟨_, rfl, .inl ⟨encode "x", by decide, hname⟩⟩
        line := by decide }
    have hdir : WorkDir.create stage.host (c.tools.apply config).1.workdirPrefix
        (c.tools.apply config).1.tempRoot stage.chance.suffixes =
          .ok (Path.ofString "/manim-preview-1",
            ⟨[([encode "manim-preview-1"], .directory)]⟩) := by cbv
    obtain ⟨hstarts, -, -, hruns⟩ := starts_exactly c stage
    obtain ⟨request, run, told, hrun, -, -, hcalls⟩ := hruns config "text" hready
    simp only [hdir] at hcalls
    obtain ⟨slice, rest, hcalls, -, hinput⟩ := hcalls
    exact ⟨hready, hstarts.2 ⟨config, "text", hready⟩, run, slice, rest, hrun, hcalls, hinput⟩
  · have hextension : (Path.ofString "lib/.py").extension? = none := by cbv
    have hunnamed : ¬ hidden.NamedPython := by
      rintro ⟨path, hpath, hends⟩
      cases hpath
      rw [endsInPython_iff, hextension] at hends
      simp at hends
    have hscript : hidden.scriptBytes stage = .ok (encode "text") := rfl
    have hunmet : hidden.Unmet stage (.rejected (.unsupportedLanguage "plaintext")) :=
      .language hload hscript (.unknown rfl hunnamed) (by decide)
    obtain ⟨-, hstops, hleaves, -⟩ := starts_exactly hidden stage
    obtain ⟨hrun, hexecute⟩ := hleaves _ hunmet
    exact ⟨hunmet, hstops.2 ⟨_, hunmet⟩, hrun, hexecute stage.runner stage.chance⟩

end RenderCommand

end ScenePreview

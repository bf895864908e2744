import ScenePreview.Proofs.Nearest
import ScenePreview.Proofs.Prepare

/-!
# Which layer decides

A setting can be named on the command line, by a variable, in the configuration file, or not at
all.  The environment passes through all of these, and its variable twice: it stands in for a word
that is missing, and it comes before the file.  It is trimmed twice as well.  Here it is said what
comes out in the end, setting by setting: each one depends on its own key of the file alone.

## Main definitions

* `ConfigFile.textAt`, `ConfigFile.flagAt` — what a document says under one key.
* `ConfigFile.ofKeys` — the content of a document, read key by key.
* `ConfigFile.document?`, `ConfigFile.said` — the document of the file that counts, and its text
  under one key.
* `Layered` — settings and an environment in which the first layer that is there decides.

## Main results

* `ConfigFile.eq_ofKeys_of_ofDocument?` — a document that is read is read key by key.
* `Configuration.eq_of_load` — what is loaded, key by key.
* `Configuration.layered_of_load` — what is left of the layers after the words of a command.
* `Command.layers_decide` — **the first layer that is there decides, for rendering and for
  planning.**
-/

namespace ScenePreview

open Text.Utf8

namespace ConfigFile

open Yaml (Document Node)

/-! ### Documents, key by key -/

/-- The value of a key of a section. -/
def valueOf? (d : Document) (n : Node) (key : String) : Option Node :=
  (entries? d n).bind fun es => (es.find? (·.1 == key)).map (·.2)

/-- The text under a key of a section, if it is there and does not stand for nothing. -/
def textOf (d : Document) (n : Node) (key : String) : Option String :=
  (valueOf? d n key).bind fun v => (optionalText? d v).join

/-- The text that a document has under a key of one of its sections. -/
def textAt (d : Document) (part key : String) : Option String :=
  (valueOf? d d.root part).bind fun n => textOf d n key

/-- Whether a document says yes under a key of one of its sections. -/
def flagAt (d : Document) (part key : String) : Bool :=
  (((valueOf? d d.root part).bind fun n => valueOf? d n key).bind (bool? d)).getD false

/-- The content of a document, read key by key. -/
def ofKeys (d : Document) : ConfigFile where
  version := textOf d d.root "version"
  environment :=
    { name := textAt d "environment" "name"
      launcher := textAt d "environment" "launcher" }
  tools :=
    { interpreter := textAt d "tools" "interpreter"
      transformer := textAt d "tools" "transformer"
      renderer := textAt d "tools" "renderer" }
  workdir :=
    { namePrefix := textAt d "workdir" "prefix"
      root := textAt d "workdir" "root"
      keepFailed := flagAt d "workdir" "keep_failed" }

section Keys

variable {d : Document} {n : Node} {es : List (String × Node)} {key : String}

/-- An entry that is read comes from the value of its key, and without one it is the default. -/
theorem entry?_eq_some {α : Type} {f : Node → Option α} {default a : α}
    (hes : entries? d n = some es) (h : entry? es key f default = some a) :
    (valueOf? d n key = none ∧ a = default) ∨ ∃ v, valueOf? d n key = some v ∧ f v = some a := by
  have hvalue : valueOf? d n key = ((es.filter (·.1 == key)).head?).map (·.2) := by
    rw [valueOf?, hes, Option.bind_some, List.head?_filter]
  unfold entry? at h
  rw [hvalue]
  split at h
  · next hnone =>
    rw [hnone]
    exact .inl ⟨rfl, (Option.some.inj h).symm⟩
  · next k v hone =>
    rw [hone]
    exact .inr ⟨v, rfl, h⟩
  · cases h

theorem entry?_optionalText {a : Option String} (hes : entries? d n = some es)
    (h : entry? es key (optionalText? d) none = some a) : a = textOf d n key := by
  rcases entry?_eq_some hes h with ⟨hnone, rfl⟩ | ⟨v, hv, ha⟩
  · rw [textOf, hnone]
    rfl
  · rw [textOf, hv, Option.bind_some, ha]
    rfl

theorem eq_of_environmentSection? {e : EnvironmentSection}
    (h : environmentSection? d n = some e) :
    e = { name := textOf d n "name", launcher := textOf d n "launcher" } := by
  simp only [environmentSection?, Option.bind_eq_bind, Option.bind_eq_some_iff] at h
  obtain ⟨es, hes, name, hname, launcher, hlauncher, he⟩ := h
  cases he
  rw [entry?_optionalText hes hname, entry?_optionalText hes hlauncher]

theorem eq_of_toolsSection? {t : ToolsSection} (h : toolsSection? d n = some t) :
    t = { interpreter := textOf d n "interpreter", transformer := textOf d n "transformer",
          renderer := textOf d n "renderer" } := by
  simp only [toolsSection?, Option.bind_eq_bind, Option.bind_eq_some_iff] at h
  obtain ⟨es, hes, interpreter, hinterpreter, transformer, htransformer, renderer, hrenderer,
    ht⟩ := h
  cases ht
  rw [entry?_optionalText hes hinterpreter, entry?_optionalText hes htransformer,
    entry?_optionalText hes hrenderer]

theorem eq_of_workdirSection? {s : WorkdirSection} (h : workdirSection? d n = some s) :
    s = { namePrefix := textOf d n "prefix", root := textOf d n "root",
          keepFailed := ((valueOf? d n "keep_failed").bind (bool? d)).getD false } := by
  simp only [workdirSection?, Option.bind_eq_bind, Option.bind_eq_some_iff] at h
  obtain ⟨es, hes, namePrefix, hprefix, root, hroot, keepFailed, hkeep, hs⟩ := h
  cases hs
  have hflag : keepFailed = ((valueOf? d n "keep_failed").bind (bool? d)).getD false := by
    rcases entry?_eq_some hes hkeep with ⟨hnone, rfl⟩ | ⟨v, hv, hbool⟩
    · rw [hnone]
      rfl
    · rw [hv, Option.bind_some, hbool]
      rfl
  rw [entry?_optionalText hes hprefix, entry?_optionalText hes hroot, hflag]

end Keys

/-- A document that is read is read key by key: no key has a say in what another one means. -/
theorem eq_ofKeys_of_ofDocument? {d : Document} {f : ConfigFile} (h : ofDocument? d = some f) :
    f = ofKeys d := by
  simp only [ofDocument?, Option.bind_eq_bind, Option.bind_eq_some_iff] at h
  obtain ⟨es, hes, version, hversion, environment, henvironment, tools, htools, workdir, hworkdir,
    hf⟩ := h
  cases hf
  have henvironment' : environment = (ofKeys d).environment := by
    rcases entry?_eq_some hes henvironment with ⟨hnone, rfl⟩ | ⟨n, hn, he⟩
    · simp [ofKeys, textAt, hnone]
    · simp [ofKeys, textAt, hn, eq_of_environmentSection? he]
  have htools' : tools = (ofKeys d).tools := by
    rcases entry?_eq_some hes htools with ⟨hnone, rfl⟩ | ⟨n, hn, ht⟩
    · simp [ofKeys, textAt, hnone]
    · simp [ofKeys, textAt, hn, eq_of_toolsSection? ht]
  have hworkdir' : workdir = (ofKeys d).workdir := by
    rcases entry?_eq_some hes hworkdir with ⟨hnone, rfl⟩ | ⟨n, hn, hs⟩
    · simp [ofKeys, textAt, flagAt, hnone]
    · simp [ofKeys, textAt, flagAt, hn, eq_of_workdirSection? hs]
  rw [henvironment', htools', hworkdir', entry?_optionalText hes hversion]
  rfl

/-! ### The document of the file that counts -/

/-- The document of the file that counts, if there is one. -/
def document? (h : Host) (vs : Variables) : Option Document :=
  (locate? h vs).bind fun file => (h.readText file).toOption.bind Document.parse?

/-- The text that the file that counts has under a key of one of its sections. -/
def said (h : Host) (vs : Variables) (part key : String) : Option String :=
  (document? h vs).bind fun d => textAt d part key

end ConfigFile

/-- Settings and an environment in which the first layer that is there decides: the words of the
command, then a variable, then the file that counts, then a default.  The environment is trimmed,
and a blank one is none. -/
structure Layered (h : Host) (vs : Variables) (words : ToolOptions) (settings : Settings)
    (environment : Option String) : Prop where
  /-- The first name that is there counts, also if it is blank. -/
  environment_eq : environment =
    ([words.environment, vs.get? "SLICE_PREVIEW_ENV",
      ConfigFile.said h vs "environment" "name"].findSome? id).bind fun name =>
        if Text.trim name = "" then none else some (Text.trim name)
  /-- Only a path in the file is read from the directory two steps above it. -/
  transformer_eq :
    match words.transformer, vs.get? "SLICE_PREVIEW_TRANSFORMER",
      ConfigFile.said h vs "tools" "transformer" with
    | some path, _, _ => settings.transformer = path
    | none, some text, _ => settings.transformer = Path.ofString text
    | none, none, some text => ∃ file, ConfigFile.Counts h vs (some file) ∧ Configuration.Anchored h
        ((file.parent?.bind Path.parent?).getD (Path.ofString ".")) text settings.transformer
    | none, none, none => settings.transformer = Path.ofString "transformer.py"
  /-- The launcher. -/
  launcher_eq : settings.launcher =
    (ConfigFile.said h vs "environment" "launcher").getD "conda"
  /-- The interpreter. -/
  interpreter_eq : settings.interpreter =
    (ConfigFile.said h vs "tools" "interpreter").getD "python"
  /-- The renderer. -/
  renderer_eq : settings.renderer = (ConfigFile.said h vs "tools" "renderer").getD "manim"
  /-- What names of working directories start with. -/
  prefix_eq : settings.workdirPrefix =
    (ConfigFile.said h vs "workdir" "prefix").getD "manim-preview-"
  /-- Where working directories are made. -/
  root_eq :
    match ConfigFile.said h vs "workdir" "root" with
    | some text => ∃ file root, ConfigFile.Counts h vs (some file) ∧
        settings.tempRoot = some root ∧ Configuration.Anchored h
          ((file.parent?.bind Path.parent?).getD (Path.ofString ".")) text root
    | none => settings.tempRoot = none
  /-- Whether the working directory of a failed run stays. -/
  keep_eq : settings.keepFailedWorkdir =
    ((ConfigFile.document? h vs).map (ConfigFile.flagAt · "workdir" "keep_failed")).getD false

/-- A variable may come in twice, and the name below the words may have been trimmed already: the
first name that is there is trimmed, and none below it is looked at. -/
theorem Request.environmentName?_layers (word value key : Option String) :
    environmentName? ((word <|> value) <|> environmentName? (value <|> key)) =
      ([word, value, key].findSome? id).bind fun name =>
        if Text.trim name = "" then none else some (Text.trim name) := by
  cases word with
  | some name => simp [environmentName?_some]
  | none =>
    cases value with
    | some name => simp [environmentName?_some]
    | none =>
      -- only a name from below the words has been trimmed before
      change environmentName? (environmentName? key) = _
      rw [environmentName?_environmentName?]
      cases key with
      | some name => simp [environmentName?_some]
      | none => rfl

section Layers

variable {h : Host} {vs : Variables}

/-- A file that is read says what its document says key by key. -/
theorem ConfigFile.exists_document_of_read {file : Path} {content : ConfigFile}
    (hfile : locate? h vs = some file) (hread : read h file = .ok content) :
    ∃ d, document? h vs = some d ∧ content = ofKeys d := by
  unfold read at hread
  cases htext : h.readText file with
  | error e => simp [htext] at hread
  | ok text =>
    rw [htext] at hread
    cases hparse : parse? text with
    | none => simp [hparse] at hread
    | some f =>
      simp only [hparse] at hread
      cases hread
      obtain ⟨d, hd, hf⟩ := Option.bind_eq_some_iff.1 hparse
      refine ⟨d, ?_, eq_ofKeys_of_ofDocument? hf⟩
      rw [document?, hfile, Option.bind_some, htext]
      exact hd

/-- What is loaded, key by key: each part has its own variable, its own key of the file that
counts, and its own default. -/
theorem Configuration.eq_of_load {config : Configuration} (hload : load h vs = .ok config) :
    config =
      { environment := Request.environmentName?
          (vs.get? "SLICE_PREVIEW_ENV" <|> ConfigFile.said h vs "environment" "name")
        settings :=
          { launcher := (ConfigFile.said h vs "environment" "launcher").getD "conda"
            interpreter := (ConfigFile.said h vs "tools" "interpreter").getD "python"
            transformer := transformer h (projectDir (ConfigFile.locate? h vs))
              (vs.get? "SLICE_PREVIEW_TRANSFORMER") (ConfigFile.said h vs "tools" "transformer")
            renderer := (ConfigFile.said h vs "tools" "renderer").getD "manim"
            workdirPrefix := (ConfigFile.said h vs "workdir" "prefix").getD "manim-preview-"
            tempRoot := (ConfigFile.said h vs "workdir" "root").map
              (pathFrom h (projectDir (ConfigFile.locate? h vs)))
            keepFailedWorkdir := ((ConfigFile.document? h vs).map
              (ConfigFile.flagAt · "workdir" "keep_failed")).getD false }
        configFile := ConfigFile.locate? h vs } := by
  cases hfile : ConfigFile.locate? h vs with
  | none =>
    have hnothing : ConfigFile.document? h vs = none := by rw [ConfigFile.document?, hfile]; rfl
    rw [load_of_none hfile] at hload
    cases hload
    simp only [ConfigFile.said, hnothing]
    rfl
  | some file =>
    rw [load_of_some hfile] at hload
    cases hread : ConfigFile.read h file with
    | error e => simp [hread] at hload
    | ok content =>
      obtain ⟨d, hdocument, rfl⟩ := ConfigFile.exists_document_of_read hfile hread
      simp only [hread] at hload
      cases hload
      simp only [ConfigFile.said, hdocument]
      rfl

/-- A text that the file that counts has is that of a file, and a path in it is read from the
directory two steps above. -/
theorem Configuration.exists_anchored_of_said {part key text : String}
    (hsaid : ConfigFile.said h vs part key = some text) :
    ∃ file, ConfigFile.Counts h vs (some file) ∧
      Anchored h ((file.parent?.bind Path.parent?).getD (Path.ofString ".")) text
        (pathFrom h (projectDir (ConfigFile.locate? h vs)) text) := by
  obtain ⟨d, hdocument, -⟩ := Option.bind_eq_some_iff.1 hsaid
  obtain ⟨file, hfile, -⟩ := Option.bind_eq_some_iff.1 hdocument
  refine ⟨file, ConfigFile.counts_iff.2 hfile.symm, ?_⟩
  rw [hfile]
  exact anchored_pathFrom h _ text

/-- After the words of a command, in which the variable has already stood in for a missing name,
the first layer that is there has decided. -/
theorem Configuration.layered_of_load {config : Configuration} (hload : load h vs = .ok config)
    (words : ToolOptions) :
    let tools := words.withVariable (vs.get? "SLICE_PREVIEW_ENV")
    Layered h vs words (tools.apply config).1
      (Request.environmentName? (tools.apply config).2) := by
  intro tools
  rw [eq_of_load hload]
  refine ⟨?_, ?_, rfl, rfl, rfl, rfl, ?_, rfl⟩
  · exact Request.environmentName?_layers words.environment _ _
  · simp only [ToolOptions.apply, tools, ToolOptions.withVariable]
    cases words.transformer with
    | some path => rfl
    | none =>
      cases vs.get? "SLICE_PREVIEW_TRANSFORMER" with
      | some text => rfl
      | none =>
        cases hsaid : ConfigFile.said h vs "tools" "transformer" with
        | some text => exact exists_anchored_of_said hsaid
        | none => rfl
  · simp only [ToolOptions.apply]
    cases hsaid : ConfigFile.said h vs "workdir" "root" with
    | some text =>
      obtain ⟨file, hfile, hanchored⟩ := exists_anchored_of_said hsaid
      exact ⟨file, _, hfile, rfl, hanchored⟩
    | none => rfl

end Layers

/-- **The first layer that is there decides, for rendering and for planning.**  `c` and `tools`
hold what the words of the command say and nothing else.  A command with such words is read also
where the variable is set, and the settings and the environment that it comes to are `Layered`: a
name that is there but blank means that tools are run directly, and each other setting is what the
file says under its own key, or the default.  Rendering comes to settings and a request whenever
the configuration and the script can be read and the trigger is a good one, and planning whenever
the configuration can be read and the line is a good one. -/
theorem Command.layers_decide (w : Surroundings) (words : List String) :
    let value := w.vars.get? "SLICE_PREVIEW_ENV"
    (∀ c : RenderCommand, parse none words = .ok (.render c) →
      ∃ c' : RenderCommand, parse value words = .ok (.render c') ∧
        (∀ settings request, c'.prepare w = .ok (settings, request) →
          Layered w.host w.vars c.tools settings request.environment) ∧
        ∀ config text, Configuration.load w.host w.vars = .ok config →
          c.readScript w = .ok text → c.languageOf = "python" → c.line ≠ 0 →
          ∃ settings request, c'.prepare w = .ok (settings, request) ∧
            request.sourceText = text ∧ request.targetLine = c.line) ∧
    ∀ (line : UInt32) (tools : ToolOptions), parse none words = .ok (.plan line tools) →
      ∃ tools' : ToolOptions, parse value words = .ok (.plan line tools') ∧
        (∀ text, tools'.plan line w = .ok text →
          ∃ settings request, text = planText settings request ∧ request.targetLine = line ∧
            Layered w.host w.vars tools settings request.environment) ∧
        ∀ config, Configuration.load w.host w.vars = .ok config → line ≠ 0 →
          ∃ text, tools'.plan line w = .ok text := by
  intro value
  constructor
  · intro c hc
    let c' : RenderCommand := { c with tools := c.tools.withVariable value }
    refine ⟨c', parse_of_render hc value, ?_, ?_⟩
    · intro settings request hprepare
      obtain ⟨config, text, hload, -, rfl, hrequest⟩ :=
        RenderCommand.prepare_eq_ok_iff.1 hprepare
      obtain ⟨-, -, -, -, henvironment⟩ := Request.ofTrigger_eq_ok_iff.1 hrequest
      rw [henvironment]
      exact Configuration.layered_of_load hload c.tools
    · intro config text hload htext hlanguage hline
      obtain ⟨request, hrequest⟩ :=
        Request.exists_ofTrigger (t := c'.trigger config text) hlanguage hline
      obtain ⟨-, -, hsource, htarget, -⟩ := Request.ofTrigger_eq_ok_iff.1 hrequest
      exact ⟨_, request, RenderCommand.prepare_eq_ok_iff.2
        ⟨config, text, hload, htext, rfl, hrequest⟩, hsource, htarget⟩
  · intro line tools htools
    let tools' := tools.withVariable value
    refine ⟨tools', parse_of_plan htools value, ?_, ?_⟩
    · intro text hplan
      obtain ⟨config, request, hload, hrequest, rfl⟩ := ToolOptions.plan_eq_ok_iff.1 hplan
      obtain ⟨-, -, -, htarget, henvironment⟩ := Request.ofTrigger_eq_ok_iff.1 hrequest
      refine ⟨_, request, rfl, htarget, ?_⟩
      rw [henvironment]
      exact Configuration.layered_of_load hload tools
    · intro config hload hline
      obtain ⟨request, hrequest⟩ := Request.exists_ofTrigger
        (t := { line, environment := (tools'.apply config).2 }) rfl hline
      exact ⟨_, ToolOptions.plan_eq_ok_iff.2 ⟨config, request, hload, hrequest, rfl⟩⟩

/-- What the file of a project says. -/
def studioText : String :=
  "environment: \x7bname: film, launcher: mamba\x7d\ntools: \x7btransformer: cut.py\x7d\n" ++
    "workdir: \x7broot: runs, keep_failed: true\x7d\n"

/-- The content of that file. -/
def studioFile : ConfigFile where
  environment := { name := some "film", launcher := some "mamba" }
  tools := { transformer := some "cut.py" }
  workdir := { root := some "runs", keepFailed := true }

/-- A machine with a project. -/
def studioHost (content : List UInt8) : Host where
  tree := ⟨[([encode "film"], .directory), ([encode "film", encode ".slice-preview"], .directory),
    ([encode "film", encode ".slice-preview", encode "config.yaml"], .file content false)]⟩
  cwd := [encode "film"]

/-- The project, on a machine with a variable that names another environment. -/
def studio : Surroundings where
  host := studioHost (encode studioText)
  vars := [("SLICE_PREVIEW_ENV", "video")]
  runner := fun host _ => { result := .ok {}, host }
  chance := { suffixes := fun _ => "1" }

theorem locate?_studioHost (content : List UInt8) :
    ConfigFile.locate? (studioHost content) [("SLICE_PREVIEW_ENV", "video")]
      = some (Path.ofString "/film/.slice-preview/config.yaml") := by cbv

theorem readFile_studioHost (content : List UInt8) :
    (studioHost content).tree.readFile [encode "film"]
      (Path.ofString "/film/.slice-preview/config.yaml") = .ok content := by cbv

theorem readText_studio :
    studio.host.readText (Path.ofString "/film/.slice-preview/config.yaml") = .ok studioText := by
  have hbytes : studio.host.tree.readFile studio.host.cwd
      (Path.ofString "/film/.slice-preview/config.yaml") = _ := readFile_studioHost _
  have hdecode : decode? (encode studioText) = some studioText := decode?_eq_some_iff.2 rfl
  rw [Host.readText, hbytes]
  change (match decode? (encode studioText) with
    | some s => Except.ok s
    | none => Except.error notTextError) = _
  rw [hdecode]

theorem parse?_studioText : ConfigFile.parse? studioText = some studioFile := by cbv

/-- A path in the file that leads nowhere is read from the directory of the project. -/
theorem eq_of_anchored_studio {text : String} {p q : Path}
    (hrel : (Path.ofString text).isAbsolute = false)
    (hjoin : (Path.ofString "/film").join (Path.ofString text) = q)
    (hlost : studio.host.tree.stat studio.host.cwd q = .error (.os .notFound))
    (h : ∃ file, ConfigFile.Counts studio.host studio.vars (some file) ∧
      Configuration.Anchored studio.host
        ((file.parent?.bind Path.parent?).getD (Path.ofString ".")) text p) : p = q := by
  obtain ⟨file, hfile, hanchored⟩ := h
  have hlocate : ConfigFile.locate? studio.host studio.vars = _ := locate?_studioHost _
  have hparents : ((Path.ofString "/film/.slice-preview/config.yaml").parent?.bind
      Path.parent?).getD (Path.ofString ".") = Path.ofString "/film" := by decide +kernel
  rw [ConfigFile.counts_iff, hlocate] at hfile
  cases hfile
  rw [hparents] at hanchored
  cases hanchored with
  | absolute habs => simp [habs] at hrel
  | entry _ hfound => simp [hjoin, hlost] at hfound
  | nowhere _ _ => exact hjoin

/-- A blank name among the words comes before the variable and the file, and all else is that of the
file, with its paths read from the directory of the project.  A transformer among the words comes
before that of the file, and without a name among the words that of the variable counts. -/
theorem Command.layers_decide_blank :
    let blank := ["plan", "--line", "3", "--env= "]
    let own := ["plan", "--line", "3", "--transformer", "own.py"]
    (parse none blank = .ok (.plan 3 { environment := some " " }) ∧
      ∃ tools settings request, parse (some "video") blank = .ok (.plan 3 tools) ∧
        tools.plan 3 studio = .ok (planText settings request) ∧ request.environment = none ∧
        settings.launcher = "mamba" ∧ settings.interpreter = "python" ∧
        settings.transformer = Path.ofString "/film/cut.py" ∧
        settings.tempRoot = some (Path.ofString "/film/runs") ∧
        settings.keepFailedWorkdir = true) ∧
    parse none own = .ok (.plan 3 { transformer := some (Path.ofString "own.py") }) ∧
      ∃ tools settings request, parse (some "video") own = .ok (.plan 3 tools) ∧
        tools.plan 3 studio = .ok (planText settings request) ∧
        request.environment = some "video" ∧ settings.transformer = Path.ofString "own.py" := by
  intro blank own
  have hlocate : ConfigFile.locate? studio.host studio.vars = _ := locate?_studioHost _
  have hread : ConfigFile.read studio.host (Path.ofString "/film/.slice-preview/config.yaml")
      = .ok studioFile := by
    simp only [ConfigFile.read, readText_studio, parse?_studioText]
  have hload := Configuration.load_of_content hlocate readText_studio parse?_studioText
  obtain ⟨d, hdocument, hkeys⟩ := ConfigFile.exists_document_of_read hlocate hread
  have hsaid : ∀ part key, ConfigFile.said studio.host studio.vars part key
      = ConfigFile.textAt d part key := by
    intro part key
    rw [ConfigFile.said, hdocument]
    rfl
  constructor
  · have hparse : parse none blank = .ok (.plan 3 { environment := some " " }) := by decide +kernel
    obtain ⟨tools, hvalue, hlayered, hplans⟩ := (layers_decide studio _).2 3 _ hparse
    obtain ⟨text, hplan⟩ := hplans _ hload (by decide)
    obtain ⟨settings, request, rfl, -, hsettled⟩ := hlayered text hplan
    refine ⟨hparse, tools, settings, request, hvalue, hplan, ?_, ?_, ?_, ?_, ?_, ?_⟩
    · rw [hsettled.environment_eq]
      decide +kernel
    · rw [hsettled.launcher_eq, hsaid]
      exact congrArg (·.environment.launcher.getD "conda") hkeys.symm
    · rw [hsettled.interpreter_eq, hsaid]
      exact congrArg (·.tools.interpreter.getD "python") hkeys.symm
    · have hcut : ∀ content, (studioHost content).tree.stat [encode "film"]
          (Path.ofString "/film/cut.py") = .error (.os .notFound) := by
        intro content
        cbv
      have hkey : ConfigFile.textAt d "tools" "transformer" = some "cut.py" :=
        congrArg (·.tools.transformer) hkeys.symm
      have htransformer := hsettled.transformer_eq
      rw [hsaid, hkey] at htransformer
      exact eq_of_anchored_studio (by decide +kernel) (by decide +kernel) (hcut _) htransformer
    · have hruns : ∀ content, (studioHost content).tree.stat [encode "film"]
          (Path.ofString "/film/runs") = .error (.os .notFound) := by
        intro content
        cbv
      have hkey : ConfigFile.textAt d "workdir" "root" = some "runs" :=
        congrArg (·.workdir.root) hkeys.symm
      have hroot := hsettled.root_eq
      rw [hsaid, hkey] at hroot
      obtain ⟨file, root, hfile, hroot, hanchored⟩ := hroot
      rw [hroot, eq_of_anchored_studio (by decide +kernel) (by decide +kernel) (hruns _)
        ⟨file, hfile, hanchored⟩]
    · rw [hsettled.keep_eq, hdocument]
      exact congrArg (·.workdir.keepFailed) hkeys.symm
  · have hparse : parse none own
        = .ok (.plan 3 { transformer := some (Path.ofString "own.py") }) := by decide +kernel
    obtain ⟨tools, hvalue, hlayered, hplans⟩ := (layers_decide studio _).2 3 _ hparse
    obtain ⟨text, hplan⟩ := hplans _ hload (by decide)
    obtain ⟨settings, request, rfl, -, hsettled⟩ := hlayered text hplan
    refine ⟨hparse, tools, settings, request, hvalue, hplan, ?_, hsettled.transformer_eq⟩
    rw [hsettled.environment_eq]
    decide +kernel

end ScenePreview

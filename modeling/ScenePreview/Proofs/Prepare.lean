import ScenePreview.CommandLine.Execute
import ScenePreview.Proofs.Lines

/-!
# What is settled before a run

A command is read from its words, the configuration is loaded, the script is read and the trigger
is checked.  Each of these can fail, and each hands on a part of what the run is given.  Here it
is said what has happened when nothing has failed, and what is handed on then.

## Main definitions

* `ToolOptions.withVariable`, `Command.withVariable` — what is said where a variable may name an
  environment.

## Main results

* `Request.environmentName?_environmentName?` — naming an environment twice is naming it once.
* `Request.ofTrigger_eq_ok_iff` — which triggers make which requests.
* `Command.parse_eq_map` — **a variable counts only where the words name no environment.**
* `RenderCommand.prepare_eq_ok_iff`, `ToolOptions.plan_eq_ok_iff` — what rendering and planning
  have settled.
-/

namespace ScenePreview

namespace Request

/-! ### Requests -/

theorem environmentName?_some (name : String) :
    environmentName? (some name) = if Text.trim name = "" then none else some (Text.trim name) := by
  by_cases hblank : Text.trim name = "" <;> simp [environmentName?, Option.filter, hblank]

/-- A name that was trimmed once is not changed again. -/
theorem environmentName?_environmentName? (name : Option String) :
    environmentName? (environmentName? name) = environmentName? name := by
  cases name with
  | none => rfl
  | some name =>
    by_cases hblank : Text.trim name = ""
    · rw [environmentName?_some, if_pos hblank]
      rfl
    · rw [environmentName?_some, if_neg hblank, environmentName?_some, Text.trim_trim,
        if_neg hblank]

/-- Only a document in the known language and a line other than zero make a request. -/
theorem ofTrigger_eq_ok_iff {t : Trigger} {r : Request} :
    ofTrigger t = .ok r ↔ t.language = "python" ∧ t.line ≠ 0 ∧ r.sourceText = t.text ∧
      r.targetLine = t.line ∧ r.environment = environmentName? t.environment := by
  unfold ofTrigger
  by_cases hlanguage : t.language = knownLanguage
  · rw [if_neg (not_not.2 hlanguage)]
    by_cases hline : t.line = 0
    · rw [dif_neg (not_not.2 hline)]
      simp [hline]
    · rw [dif_pos hline]
      constructor
      · intro h
        cases h
        exact ⟨hlanguage, hline, rfl, rfl, rfl⟩
      · rintro ⟨-, -, htext, htarget, henvironment⟩
        obtain ⟨text, line, environment, hne⟩ := r
        cases htext
        cases htarget
        cases henvironment
        rfl
  · rw [if_pos hlanguage]
    refine iff_of_false nofun fun h => hlanguage h.1

theorem exists_ofTrigger {t : Trigger} (hlanguage : t.language = "python") (hline : t.line ≠ 0) :
    ∃ r, ofTrigger t = .ok r :=
  ⟨⟨t.text, t.line, environmentName? t.environment, hline⟩,
    ofTrigger_eq_ok_iff.2 ⟨hlanguage, hline, rfl, rfl, rfl⟩⟩

/-- A document in the known language is turned down if its line is zero. -/
theorem ofTrigger_of_zero {t : Trigger} (hlanguage : t.language = "python") (hline : t.line = 0) :
    ofTrigger t = .error .invalidLine := by
  have hknown : t.language = knownLanguage := hlanguage
  rw [ofTrigger, if_neg (not_not.2 hknown), dif_neg (not_not.2 hline)]

end Request

/-! ### Commands and their words -/

/-- What is said about tools, where a variable names an environment if the words do not. -/
def ToolOptions.withVariable (t : ToolOptions) (value : Option String) : ToolOptions :=
  { t with environment := t.environment <|> value }

theorem Arguments.tools_eq_withVariable (s : Arguments) (value : Option String) :
    s.tools value = (s.tools none).withVariable value := by
  unfold tools
  cases s.value? .environment <;> rfl

namespace Command

/-- The command, where a variable names an environment if the words do not. -/
def withVariable (value : Option String) : Command → Command
  | .render c => .render { c with tools := c.tools.withVariable value }
  | .plan line tools => .plan line (tools.withVariable value)
  | .config => .config

theorem parseRender_eq_map (value : Option String) (words : List String) :
    parseRender value words = (parseRender none words).map (withVariable value) := by
  unfold parseRender
  cases Arguments.read .render words with
  | error e => rfl
  | ok s =>
    simp only [bind, Except.bind, Arguments.tools_eq_withVariable s value]
    cases s.line <;> rfl

theorem parsePlan_eq_map (value : Option String) (words : List String) :
    parsePlan value words = (parsePlan none words).map (withVariable value) := by
  unfold parsePlan
  cases Arguments.read .plan words with
  | error e => rfl
  | ok s =>
    simp only [bind, Except.bind, Arguments.tools_eq_withVariable s value]
    cases s.line <;> rfl

/-- A variable counts only where the words name no environment, and changes nothing else. -/
theorem parse_eq_map (value : Option String) (words : List String) :
    parse value words = (parse none words).map (withVariable value) := by
  unfold parse
  split
  · rfl
  · exact parseRender_eq_map value _
  · exact parsePlan_eq_map value _
  · next words =>
    unfold parseConfig
    cases Arguments.read .config words <;> rfl
  · rfl
  · rfl
  · split <;> rfl

theorem parse_of_render {words : List String} {c : RenderCommand}
    (h : parse none words = .ok (.render c)) (value : Option String) :
    parse value words = .ok (.render { c with tools := c.tools.withVariable value }) := by
  rw [parse_eq_map, h]
  rfl

theorem parse_of_plan {words : List String} {line : UInt32} {tools : ToolOptions}
    (h : parse none words = .ok (.plan line tools)) (value : Option String) :
    parse value words = .ok (.plan line (tools.withVariable value)) := by
  rw [parse_eq_map, h]
  rfl

end Command

/-! ### What rendering and planning have settled -/

section Settled

variable {w : Surroundings} {config : Configuration} {settings : Settings} {request : Request}

/-- What rendering hands to the check of the trigger. -/
def RenderCommand.trigger (c : RenderCommand) (config : Configuration) (text : String) : Trigger :=
  { text, line := c.line, language := c.languageOf, environment := (c.tools.apply config).2 }

theorem RenderCommand.prepare_of_ok {c : RenderCommand}
    (hload : Configuration.load w.host w.vars = .ok config) {text : String}
    (htext : c.readScript w = .ok text) :
    c.prepare w = match Request.ofTrigger (c.trigger config text) with
      | .error r => .error (.rejected r)
      | .ok request => .ok ((c.tools.apply config).1, request) := by
  unfold prepare
  simp only [hload, htext]
  rfl

/-- Rendering has loaded the configuration, read the script and made a request of it. -/
theorem RenderCommand.prepare_eq_ok_iff {c : RenderCommand} :
    c.prepare w = .ok (settings, request) ↔
      ∃ config text, Configuration.load w.host w.vars = .ok config ∧ c.readScript w = .ok text ∧
        settings = (c.tools.apply config).1 ∧
        Request.ofTrigger (c.trigger config text) = .ok request := by
  constructor
  · intro h
    cases hload : Configuration.load w.host w.vars with
    | error e =>
      simp only [prepare, hload] at h
      cases h
    | ok config =>
      cases htext : c.readScript w with
      | error e =>
        simp only [prepare, hload, htext] at h
        cases h
      | ok text =>
        rw [prepare_of_ok hload htext] at h
        cases hrequest : Request.ofTrigger (c.trigger config text) with
        | error r => simp [hrequest] at h
        | ok request' =>
          rw [hrequest] at h
          cases h
          exact ⟨config, text, rfl, rfl, rfl, hrequest⟩
  · rintro ⟨config, text, hload, htext, rfl, hrequest⟩
    rw [prepare_of_ok hload htext, hrequest]

theorem ToolOptions.plan_of_ok {tools : ToolOptions} {line : UInt32}
    (hload : Configuration.load w.host w.vars = .ok config) :
    tools.plan line w =
      match Request.ofTrigger { line, environment := (tools.apply config).2 } with
      | .error r => .error (.rejected r)
      | .ok request => .ok (planText (tools.apply config).1 request) := by
  unfold plan
  cases hrequest : Request.ofTrigger { line, environment := (tools.apply config).2 } with
  | error r => simp only [hload, hrequest]
  | ok request => simp only [hload, hrequest]

/-- Planning has loaded the configuration and made a request without a document. -/
theorem ToolOptions.plan_eq_ok_iff {tools : ToolOptions} {line : UInt32} {text : String} :
    tools.plan line w = .ok text ↔
      ∃ config request, Configuration.load w.host w.vars = .ok config ∧
        Request.ofTrigger { line, environment := (tools.apply config).2 } = .ok request ∧
        text = planText (tools.apply config).1 request := by
  constructor
  · intro h
    cases hload : Configuration.load w.host w.vars with
    | error e =>
      simp only [plan, hload] at h
      cases h
    | ok config =>
      rw [plan_of_ok hload] at h
      cases hrequest : Request.ofTrigger { line, environment := (tools.apply config).2 } with
      | error r => simp [hrequest] at h
      | ok request =>
        rw [hrequest] at h
        cases h
        exact ⟨config, request, rfl, hrequest, rfl⟩
  · rintro ⟨config, request, hload, hrequest, rfl⟩
    rw [plan_of_ok hload, hrequest]

end Settled

end ScenePreview

import ScenePreview.Proofs.Calls
import ScenePreview.Proofs.Prepare

/-!
# Requests and their environments

A request keeps the name of its environment without the blanks around it, and keeps no blank name
at all.  It is made of a trigger, and it may be given other environments after that; however it
came about, the name is kept in that form.  Both tools of a run then start in the same way.

## Main definitions

* `Request.IsNormal` — a request whose environment is named as requests name it.

## Main results

* `Request.exists_ofTrigger_iff` — which triggers make a request.
* `Request.isNormal_iff` — the names that a request keeps: those that are trimmed and not empty.
* `Request.foldl_inEnvironment` — of many environments the last one counts.
* `Request.ofTrigger_inEnvironments` — **a request is its trigger and the last environment it was
  given.**
-/

namespace ScenePreview

open Text

namespace Request

/-! ### Names of environments -/

theorem environmentName?_eq_some_iff {name : Option String} {env : String} :
    environmentName? name = some env ↔
      ∃ text, name = some text ∧ HasVisible text.toList ∧ env = trim text := by
  cases name with
  | none => exact iff_of_false nofun (by simp)
  | some text =>
    rw [environmentName?_some]
    by_cases hblank : trim text = ""
    · have hnot : ¬ HasVisible text.toList := (trim_eq_empty_iff text).1 hblank
      rw [if_pos hblank]
      simp [hnot]
    · have hvisible : HasVisible text.toList := by
        rwa [trim_eq_empty_iff, not_not] at hblank
      rw [if_neg hblank]
      simp [hvisible, eq_comm]

/-! ### Triggers -/

/-- The language is looked at first. -/
theorem ofTrigger_of_language {t : Trigger} (h : t.language ≠ "python") :
    ofTrigger t = .error (.unsupportedLanguage t.language) := by
  have hunknown : t.language ≠ knownLanguage := h
  rw [ofTrigger, if_pos hunknown]

theorem exists_ofTrigger_iff (t : Trigger) :
    (∃ r, ofTrigger t = .ok r) ↔ t.language = "python" ∧ t.line ≠ 0 := by
  constructor
  · rintro ⟨r, hr⟩
    obtain ⟨hlanguage, hline, -⟩ := ofTrigger_eq_ok_iff.1 hr
    exact ⟨hlanguage, hline⟩
  · rintro ⟨hlanguage, hline⟩
    exact exists_ofTrigger hlanguage hline

/-! ### The normal form -/

/-- A request whose environment is named as requests name it. -/
def IsNormal (r : Request) : Prop := environmentName? r.environment = r.environment

theorem isNormal_inEnvironment (r : Request) (name : Option String) :
    (r.inEnvironment name).IsNormal :=
  environmentName?_environmentName? name

theorem isNormal_of_ofTrigger {t : Trigger} {r : Request} (h : ofTrigger t = .ok r) :
    r.IsNormal := by
  obtain ⟨-, -, -, -, henvironment⟩ := ofTrigger_eq_ok_iff.1 h
  rw [IsNormal, henvironment, environmentName?_environmentName?]

theorem IsNormal.foldl {r : Request} (h : r.IsNormal) (names : List (Option String)) :
    (names.foldl inEnvironment r).IsNormal := by
  induction names generalizing r with
  | nil => exact h
  | cons name names ih => exact ih (r.isNormal_inEnvironment name)

/-- A request in normal form is not changed when it is given its own environment. -/
theorem IsNormal.inEnvironment_environment {r : Request} (h : r.IsNormal) :
    r.inEnvironment r.environment = r := by
  obtain ⟨text, line, environment, hne⟩ := r
  rw [inEnvironment, show environmentName? environment = environment from h]

/-- The environment of a request in normal form is trimmed and not empty. -/
theorem isNormal_iff (r : Request) :
    r.IsNormal ↔ ∀ env, r.environment = some env → env ≠ "" ∧ IsTrimmed env.toList := by
  unfold IsNormal
  cases henv : r.environment with
  | none => exact iff_of_true rfl nofun
  | some env =>
    rw [environmentName?_some]
    constructor
    · intro h env' henv'
      cases henv'
      by_cases hblank : trim env = ""
      · rw [if_pos hblank] at h
        cases h
      · rw [if_neg hblank] at h
        have htrim : trim env = env := Option.some.inj h
        have htrimmed : IsTrimmed (trim env).toList := isTrimmed_trim env
        rw [htrim] at hblank htrimmed
        exact ⟨hblank, htrimmed⟩
    · intro h
      obtain ⟨hne, htrimmed⟩ := h env rfl
      have htrim : trim env = env := by
        rw [trim, htrimmed.trimChars_eq, String.ofList_toList]
      rw [htrim, if_neg hne]

/-! ### Many environments -/

/-- Of many environments the last one counts. -/
theorem foldl_inEnvironment (r : Request) (names : List (Option String)) :
    names.foldl inEnvironment r = (names.getLast?.map r.inEnvironment).getD r := by
  induction names generalizing r with
  | nil => rfl
  | cons name names ih =>
    have hagain : (r.inEnvironment name).inEnvironment = r.inEnvironment := rfl
    rw [List.foldl_cons, ih, hagain, List.getLast?_cons]
    cases names.getLast? <;> rfl

theorem keeps_foldl (r : Request) (names : List (Option String)) :
    (names.foldl inEnvironment r).sourceText = r.sourceText ∧
      (names.foldl inEnvironment r).targetLine = r.targetLine := by
  rw [foldl_inEnvironment]
  cases names.getLast? <;> exact ⟨rfl, rfl⟩

theorem environment_foldl {r : Request} {first : Option String}
    (h : r.environment = environmentName? first) (names : List (Option String)) :
    (names.foldl inEnvironment r).environment = environmentName? (names.getLast?.getD first) := by
  rw [foldl_inEnvironment]
  cases names.getLast? with
  | none => exact h
  | some name => rfl

end Request

/-- **A request is its trigger and the last environment it was given.**  A trigger makes a request
exactly if its language is the known one and its line is not zero; the language is looked at
first.  Whatever environments the request is given after that, its text and its line are those of
the trigger, and its environment is the last name without the blanks around it, or none if that
name is blank or absent.  So the environment is trimmed and not empty, and giving it to the
request again changes nothing.  Both tools have the same words before them: none without an
environment, and otherwise those that have the launcher run a tool in it. -/
theorem Request.ofTrigger_inEnvironments (t : Trigger) :
    ((∃ r, ofTrigger t = .ok r) ↔ t.language = "python" ∧ t.line ≠ 0) ∧
    (t.language ≠ "python" → ofTrigger t = .error (.unsupportedLanguage t.language)) ∧
    (t.language = "python" → t.line = 0 → ofTrigger t = .error .invalidLine) ∧
    ∀ r, ofTrigger t = .ok r → ∀ names : List (Option String),
      let given := names.foldl inEnvironment r
      let last := names.getLast?.getD t.environment
      given.sourceText = t.text ∧ given.targetLine = t.line ∧
      (∀ env, given.environment = some env ↔
        ∃ name, last = some name ∧ HasVisible name.toList ∧ env = trim name) ∧
      (∀ env, given.environment = some env → env ≠ "" ∧ IsTrimmed env.toList) ∧
      given.inEnvironment given.environment = given ∧
      ∀ settings scene, ∃ leading,
        (given.environment = none → leading = []) ∧
        (∀ env, given.environment = some env →
          leading = [settings.launcher, "run", "-n", env]) ∧
        (Slice.invocation settings given scene).argv = leading ++ settings.interpreter ::
          [settings.transformer.display, scene.display, toString t.line.toNat] ∧
        (Render.invocation settings scene given.environment).argv = leading ++ settings.renderer ::
          ["-pql", Render.sceneName scene] := by
  refine ⟨exists_ofTrigger_iff t, ofTrigger_of_language, ofTrigger_of_zero, ?_⟩
  intro r hr names given last
  obtain ⟨-, -, htext, hline, henvironment⟩ := ofTrigger_eq_ok_iff.1 hr
  have hnormal : given.IsNormal := (isNormal_of_ofTrigger hr).foldl names
  have hlast : given.environment = environmentName? last := environment_foldl henvironment names
  obtain ⟨hkeepsText, hkeepsLine⟩ := keeps_foldl r names
  refine ⟨hkeepsText.trans htext, hkeepsLine.trans hline, fun env => ?_,
    (isNormal_iff given).1 hnormal, hnormal.inEnvironment_environment, fun settings scene => ?_⟩
  · rw [hlast, environmentName?_eq_some_iff]
  · refine ⟨Invocation.leading given.environment settings.launcher, fun hnone => ?_,
      fun env hsome => ?_, ?_, Render.argv_invocation_name settings scene given.environment⟩
    · rw [hnone]
      rfl
    · rw [hsome]
      rfl
    · rw [Slice.argv_invocation, hkeepsLine, hline]

/-- A trigger whose request is given two environments more: the second is kept, trimmed. -/
theorem Request.ofTrigger_inEnvironments_twice :
    let t : Trigger := { text := "circle\n", line := 3, environment := some "\u2003first" }
    ∃ r given, ofTrigger t = .ok r ∧
      given = [none, some "\t\u00a0math env\u3000"].foldl inEnvironment r ∧
      given.sourceText = "circle\n" ∧ given.environment = some "math env" ∧
      given.inEnvironment given.environment = given ∧
      (Render.invocation {} (Path.ofString "/w/temp_scene.py") given.environment).argv =
        ["conda", "run", "-n", "math env", "manim", "-pql", "temp_scene.py"] := by
  intro t
  obtain ⟨hmakes, -, -, hgiven⟩ := ofTrigger_inEnvironments t
  obtain ⟨r, hr⟩ := hmakes.2 ⟨rfl, by decide⟩
  obtain ⟨htext, -, henvironment, -, hagain, hwords⟩ :=
    hgiven r hr [none, some "\t\u00a0math env\u3000"]
  have hvisible : HasVisible "\t\u00a0math env\u3000".toList := ⟨'m', by simp, by decide⟩
  have htrim : trim "\t\u00a0math env\u3000" = "math env" := by cbv
  have hname : Render.sceneName (Path.ofString "/w/temp_scene.py") = "temp_scene.py" := by cbv
  have henv := (henvironment "math env").2 ⟨_, rfl, hvisible, htrim.symm⟩
  obtain ⟨leading, -, hleading, -, hrender⟩ := hwords {} (Path.ofString "/w/temp_scene.py")
  refine ⟨r, _, hr, rfl, htext, henv, hagain, ?_⟩
  rw [hrender, hleading _ henv, hname]
  rfl

end ScenePreview

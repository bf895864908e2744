import ScenePreview.Text.Blank

/-!
# Triggers and requests

A trigger hands over a document and a cursor line. Only a document in the supported
language and a line counted from one make a request; both are checked before anything runs.

## Main definitions

* `Trigger`, `Request` — the input, and the checked form of it.
* `Request.Rejection` — why a trigger is turned down.
* `Request.ofTrigger`, `Request.inEnvironment` — the only ways to a request.

## References

The reference's `TriggerInput`, `PipelineRequest` and `RequestError`.
-/

namespace ScenePreview

/-- What asks for a preview. -/
structure Trigger where
  /-- The whole document. -/
  text : String := ""
  /-- The cursor line, counted from one. -/
  line : UInt32
  /-- The language of the document. -/
  language : String := "python"
  /-- The execution environment to run the tools in. -/
  environment : Option String := none
  deriving Repr, DecidableEq

/-- A checked request for one run. -/
structure Request where
  /-- The whole document. -/
  sourceText : String
  /-- The line that the slice is centred on. -/
  targetLine : UInt32
  /-- The execution environment to run the tools in. -/
  environment : Option String := none
  /-- Lines are counted from one. -/
  targetLine_ne_zero : targetLine ≠ 0
  deriving Repr, DecidableEq

namespace Request

/-- The one language whose documents can be previewed. -/
def knownLanguage : String := "python"

/-- Why a trigger is turned down. -/
inductive Rejection where
  /-- The document is in another language. -/
  | unsupportedLanguage (language : String)
  /-- The line is zero. -/
  | invalidLine
  deriving Repr, DecidableEq

/-- The text of a rejection. -/
def Rejection.message : Rejection → String
  | .unsupportedLanguage language =>
    "This command is only available for Python files (got '" ++ language ++ "')"
  | .invalidLine => "Target line must be a positive 1-based line number"

/-- An environment name without the blanks around it; a blank name is no environment. -/
def environmentName? (name : Option String) : Option String :=
  (name.map Text.trim).filter (· ≠ "")

/-- The request with both tools run in the named environment. -/
def inEnvironment (r : Request) (name : Option String) : Request :=
  { r with environment := environmentName? name }

/-- The request that a trigger makes. The language is checked before the line. -/
def ofTrigger (t : Trigger) : Except Rejection Request :=
  if t.language ≠ knownLanguage then .error (.unsupportedLanguage t.language)
  else if h : t.line ≠ 0 then
    .ok (inEnvironment ⟨t.text, t.line, none, h⟩ t.environment)
  else .error .invalidLine

end Request

end ScenePreview

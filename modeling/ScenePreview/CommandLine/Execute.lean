import ScenePreview.CommandLine.Arguments
import ScenePreview.Config.Locate
import ScenePreview.Display.Console
import ScenePreview.Display.JsonLines
import ScenePreview.Pipeline.Conduct

/-!
# Executing commands

What the program does and prints for a command. A command that fails says why on standard
error and ends with code one.

## Main definitions

* `Surroundings` — where the program runs.
* `CommandError` — why a command fails.
* `ToolOptions.apply` — the settings and the environment after what the command says of tools.
* `RenderCommand.prepare`, `RenderCommand.execute` — rendering.
* `planText`, `configText` — what the other commands print.
* `execute` — the program on its arguments.

## References

The reference's `render`, `plan` and `show_config`, with `pipeline_settings` and
`language_for_path`.
-/

namespace ScenePreview

/-- Where the program runs. -/
structure Surroundings where
  /-- The machine. -/
  host : Host
  /-- The variables. -/
  vars : Variables := []
  /-- Standard input. -/
  input : List UInt8 := []
  /-- Runs processes. -/
  runner : Runner
  /-- What a run cannot foresee. -/
  chance : Chance

/-- Why a command fails. -/
inductive CommandError where
  /-- The configuration cannot be read. -/
  | config (e : ConfigError)
  /-- The script cannot be read. -/
  | script (path : Path) (cause : IoError)
  /-- The script cannot be read from standard input. -/
  | scriptInput (cause : IoError)
  /-- The trigger is turned down. -/
  | rejected (r : Request.Rejection)
  /-- The run failed. -/
  | failed (f : Failure)
  deriving Repr, DecidableEq

namespace CommandError

/-- The text of the error. -/
def message : CommandError → String
  | .config e => e.message
  | .script path _ => "Failed to read script: " ++ path.display
  | .scriptInput _ => "Failed to read script from stdin"
  | .rejected r => r.message
  | .failed f => f.message

/-- The error beneath it. -/
def cause? : CommandError → Option IoError
  | .script _ cause => some cause
  | .scriptInput cause => some cause
  | .failed f => f.cause?
  | _ => none

/-- What is printed of the error: its text, and that of the error beneath it.  Of a malformed
configuration it is what is printed up to the path of the file. -/
def report (e : CommandError) : String :=
  "Error: " ++ e.message ++ "\n"
    ++ (match e.cause? with
      | some cause => "\nCaused by:\n    " ++ cause.message ++ "\n"
      | none => "")

end CommandError

/-! ### Rendering -/

/-- The settings and the environment, where what the command says comes before the
configuration. -/
def ToolOptions.apply (t : ToolOptions) (c : Configuration) : Settings × Option String :=
  ({ c.settings with transformer := t.transformer.getD c.settings.transformer },
    t.environment <|> c.environment)

/-- The language that the name of a file tells. -/
def languageOfPath? (p : Path) : Option String :=
  if p.extension? = some (Text.Utf8.encode "py") ∨ p.extension? = some (Text.Utf8.encode "pyw") then
    some Request.knownLanguage
  else none

/-- The language of text about which nothing is known. -/
def unknownLanguage : String := "plaintext"

namespace RenderCommand

/-- The language of the script: what the command says, or what the name of the file tells. -/
def languageOf (c : RenderCommand) : String :=
  (c.language <|> c.file.bind languageOfPath?).getD unknownLanguage

/-- The text of the script: from the file, or from standard input if there is none or that is
asked for. -/
def readScript (c : RenderCommand) (w : Surroundings) : Except CommandError String :=
  match c.file, c.stdin with
  | some path, false =>
    match w.host.readText path with
    | .ok text => .ok text
    | .error e => .error (.script path e)
  | _, _ =>
    match Text.Utf8.decode? w.input with
    | some text => .ok text
    | none => .error (.scriptInput notTextError)

/-- Everything that is checked before a run: the configuration, then the script, then the
trigger. -/
def prepare (c : RenderCommand) (w : Surroundings) : Except CommandError (Settings × Request) :=
  match Configuration.load w.host w.vars with
  | .error e => .error (.config e)
  | .ok config => do
    let (settings, environment) := c.tools.apply config
    let text ← c.readScript w
    match Request.ofTrigger { text, line := c.line, language := c.languageOf, environment } with
    | .error r => .error (.rejected r)
    | .ok request => .ok (settings, request)

end RenderCommand

/-! ### Results -/

/-- What the program leaves when it ends. -/
structure Finished where
  /-- The exit code. -/
  exitCode : Nat := 0
  /-- Standard output. -/
  stdout : String := ""
  /-- Standard error. -/
  stderr : String := ""
  /-- The machine. -/
  host : Host

namespace Finished

/-- What a failed command leaves, after what it has printed. -/
def ofError (f : Finished) (e : CommandError) : Finished :=
  { f with exitCode := 1, stderr := f.stderr ++ e.report }

/-- What a display has printed of messages. -/
def display (format : Format) (ms : List Message) (host : Host) : Finished :=
  match format with
  | .console =>
    let c := Console.ofMessages ms
    { stdout := c.stdout, stderr := c.stderr, host }
  | .jsonl => { stdout := JsonLines.renderAll ms, host }

end Finished

/-- Renders. -/
def RenderCommand.execute (c : RenderCommand) (w : Surroundings) : Finished :=
  match c.prepare w with
  | .error e => Finished.ofError { host := w.host } e
  | .ok (settings, request) =>
    let scope : Scope := { orchestrator := { settings }, host := w.host }
    let (progress, scope) := Orchestrator.conduct w.runner w.chance request scope
    let shown := Finished.display c.format scope.messages scope.host
    match progress with
    | .ended (.error f) => shown.ofError (.failed f)
    | _ => shown

/-! ### Plans -/

/-- What stands for the working directory in a plan. -/
def planDir : Path := Path.ofString "<workdir>"

/-- The two processes that a request would start. -/
def planText (settings : Settings) (r : Request) : String :=
  let scene := WorkDir.scenePath planDir
  "slice:  " ++ (Slice.invocation settings r scene).display ++ "\n"
    ++ "render: " ++ (Render.invocation settings scene r.environment).display
    ++ "  (cwd: " ++ planDir.display ++ ")\n"

/-- The plan for a line. -/
def ToolOptions.plan (tools : ToolOptions) (line : UInt32) (w : Surroundings) :
    Except CommandError String :=
  match Configuration.load w.host w.vars with
  | .error e => .error (.config e)
  | .ok config =>
    let (settings, environment) := tools.apply config
    match Request.ofTrigger { line, environment } with
    | .error r => .error (.rejected r)
    | .ok request => .ok (planText settings request)

/-! ### The configuration -/

/-- A line of the configuration: a title and a value in two columns. -/
def configLine (title value : String) : String := title ++ value ++ "\n"

/-- What is said of a transformer that is not there. -/
def transformerWarning (h : Host) : String :=
  "              warning: not found from " ++ h.cwdPath.display
    ++ "; set tools.transformer or " ++ ConfigFile.transformerVariable
    ++ " to the script's absolute path\n"

/-- The configuration that holds, for a reader. -/
def configText (h : Host) (c : Configuration) : String :=
  let s := c.settings
  "Configuration\n=============\n\n"
    ++ configLine "Config file:  " ((c.configFile.map Path.display).getD "(none, using defaults)")
    ++ configLine "Environment:  " (c.environment.getD "(none, direct invocation)")
    ++ configLine "Launcher:     " s.launcher
    ++ configLine "Interpreter:  " s.interpreter
    ++ configLine "Transformer:  " s.transformer.display
    ++ (if h.lacksFile s.transformer then transformerWarning h else "")
    ++ configLine "Renderer:     " s.renderer
    ++ configLine "Workdir:      " (s.workdirPrefix ++ "*")
    ++ (match s.tempRoot with
      | some root => configLine "Workdir root: " root.display
      | none => "")
    ++ configLine "Keep failed:  " (if s.keepFailedWorkdir then "true" else "false")

/-! ### The program -/

/-- What a command leaves that prints a text or fails. -/
def Finished.ofText (w : Surroundings) : Except CommandError String → Finished
  | .ok text => { stdout := text, host := w.host }
  | .error e => Finished.ofError { host := w.host } e

/-- Executes a command. -/
def Command.execute (c : Command) (w : Surroundings) : Finished :=
  match c with
  | .render c => c.execute w
  | .plan line tools => .ofText w (tools.plan line w)
  | .config => .ofText w
      (match Configuration.load w.host w.vars with
      | .error e => .error (.config e)
      | .ok resolved => .ok (configText w.host resolved))

/-- The name and the version of the program. -/
def versionText : String := "slice-preview 0.1.0\n"

/-- The program on its arguments, or what is wrong with them. -/
def execute (args : List String) (w : Surroundings) : Except UsageError Finished :=
  match Command.parse (w.vars.get? ConfigFile.environmentVariable) args with
  | .ok c => .ok (c.execute w)
  | .error .displayVersion => .ok { stdout := versionText, host := w.host }
  | .error e => .error e

end ScenePreview

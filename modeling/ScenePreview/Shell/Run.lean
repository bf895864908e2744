import ScenePreview.Shell.Builtin
import ScenePreview.Shell.Parser

/-!
# Running scripts and tools

## Main definitions

* `Session.exec` — a script at work does a command.
* `runTool` — a tool from its beginning to its end.
-/

namespace ScenePreview.Shell

/-- Runs a program: the code that it ends with and the process after it, or why it cannot be
started. -/
abbrev Spawn := List Field → Context → Except IoError (ExitStatus × Context)

namespace Session

/-! ### Streams -/

/-- What is said of a file that cannot be opened. -/
def openReason (missing : String) : IoError → Field
  | .os .notFound => field missing
  | .os .notADirectory => field missing
  | e => reason e

/-- The stream with a number. -/
def channelOf? : Nat → Option Channel
  | 1 => some .stdout
  | 2 => some .stderr
  | _ => none

/-- The session with one stream redirected, or what is said if that is not possible. -/
def redirect (e : Session) (r : Redirect) : Except (List Field) Session :=
  let target := e.text r.target
  match r.kind, channelOf? r.stream with
  | .input, _ =>
    match e.context.load ⟨target⟩ with
    | .ok input => .ok { e with context := { e.context with input } }
    | .error err => .error [field "cannot open ", target, field ": ", openReason "No such file" err]
  | .duplicate, some channel =>
    match (number? target).bind channelOf? with
    | some other =>
      .ok { e with context := e.context.setSink channel (e.context.sink other) }
    | none => .ok { e with context := e.context.setSink channel .nowhere }
  | kind, some channel =>
    match e.context.openFile ⟨target⟩ (kind == .append) with
    | .ok (sink, context) => .ok { e with context := context.setSink channel sink }
    | .error err =>
      .error [field "cannot create ", target, field ": ", openReason "Directory nonexistent" err]
  | _, none => .ok e

/-- The session with streams redirected, or what is said of the first that cannot be. -/
def redirectAll (e : Session) (rs : List Redirect) : Except (List Field × Session) Session :=
  match rs with
  | [] => .ok e
  | r :: rs =>
    match e.redirect r with
    | .ok e => e.redirectAll rs
    | .error parts => .error (parts, e)

/-- The session after a command, with the streams that it had before. -/
def restore (before after : Session) (rs : List Redirect) : Session :=
  { after with context := { after.context with
      stdout := before.context.stdout
      stderr := before.context.stderr
      input := if rs.any (·.kind == .input) then before.context.input else after.context.input } }

/-! ### Simple commands -/

/-- The session with variables set. -/
def assign (e : Session) (as : List (Field × Word)) : Session :=
  as.foldl (fun e a => { e with context := e.context.set a.1 (e.text a.2) }) e

/-- The process that a command starts, with variables of its own. -/
def child (e : Session) (as : List (Field × Word)) : Context :=
  let own := as.foldl (fun (c : Context) a => (c.set a.1 (e.text a.2)).exportVar a.1) e.context
  { own with vars := own.vars.filter (·.exported) }

/-- The session after a process that it started. -/
def resume (e : Session) (c : Context) : Session :=
  { e with context := { e.context with tree := c.tree, input := c.input, written := c.written } }

/-- The code that a shell takes for the end of a process. -/
def statusOf : ExitStatus → Nat
  | .exited n => n
  | .killed n => 128 + n

/-- What is said of a program that cannot be started, and the code for it. -/
def launchReason : IoError → Field × Nat
  | .os .notFound => (field "not found", 127)
  | .os .notADirectory => (field "not found", 127)
  | e => (reason e, 126)

/-- Runs a program in the stead of the shell. -/
def replace (spawn : Spawn) (s : Simple) (argv : List Field) (e : Session) : Flow × Session :=
  match spawn argv (e.child s.assignments) with
  | .ok (status, c) => (.ended status, e.resume c)
  | .error err =>
    let (said, code) := launchReason err
    (e.complain s.line [field "exec: ", argv.headD [], field ": ", said]).stop code

/-- Runs a command that has a name. -/
def runNamed (spawn : Spawn) (s : Simple) (name : Field) (args : List Field) (e : Session) :
    Flow × Session :=
  match e.builtin? s.line name args with
  | some r => r
  | none =>
    match spawn (name :: args) (e.child s.assignments) with
    | .ok (status, c) => (e.resume c).goOn (statusOf status)
    | .error err =>
      let (said, code) := launchReason err
      (e.complain s.line [name, field ": ", said]).goOn code

/-- Runs a simple command. -/
def runSimple (spawn : Spawn) (s : Simple) (e : Session) : Flow × Session :=
  let argv := s.words.flatMap e.fields
  match e.redirectAll s.redirects with
  | .error (parts, e') =>
    let e := restore e (e'.complain s.line parts) s.redirects
    if argv.head?.all isSpecial then e.stop 2 else e.goOn 2
  | .ok e' =>
    match argv with
    | [] => ((restore e e' s.redirects).assign s.assignments).goOn 0
    | name :: args =>
      if name = field "exec" then
        if args = [] then e'.goOn 0 else replace spawn s args e'
      else
        let (flow, after) := runNamed spawn s name args e'
        (flow, restore e after s.redirects)

/-! ### Commands -/

/-- Does a command. Where its end is tested it does not end a strict script. -/
def exec (spawn : Spawn) : Nat → Bool → Statement → Session → Flow × Session
  | 0, _, _, e => e.stop 255
  | fuel + 1, tested, s, e =>
    match s with
    | .skip => (.next, e)
    | .simple s =>
      match runSimple spawn s e with
      | (.next, e) =>
        if e.strict ∧ !tested ∧ e.status ≠ 0 then e.stop e.status else (.next, e)
      | r => r
    | .seq first second =>
      match exec spawn fuel tested first e with
      | (.next, e) => exec spawn fuel tested second e
      | r => r
    | .andThen first second =>
      match exec spawn fuel true first e with
      | (.next, e) => if e.status = 0 then exec spawn fuel tested second e else (.next, e)
      | r => r
    | .orElse first second =>
      match exec spawn fuel true first e with
      | (.next, e) => if e.status = 0 then (.next, e) else exec spawn fuel tested second e
      | r => r
    | .negation s =>
      match exec spawn fuel true s e with
      | (.next, e) => e.goOn (if e.status = 0 then 1 else 0)
      | r => r
    | .choice test yes no =>
      match exec spawn fuel true test e with
      | (.next, e) =>
        if e.status = 0 then exec spawn fuel tested yes e
        else exec spawn fuel tested no { e with status := 0 }
      | r => r
    | .loop test body wanted =>
      match exec spawn fuel true test e with
      | (.next, e') =>
        if (e'.status = 0) = wanted then
          match exec spawn fuel tested body e' with
          | (.next, e') => exec spawn fuel tested (.loop test body wanted) e'
          | r => r
        else e'.goOn 0
      | r => r
    | .each name items body =>
      let fields := match items with
        | some ws => ws.flatMap e.fields
        | none => e.arguments
      fields.foldl (fun (flow, e) f =>
        match flow with
        | .next => exec spawn fuel tested body { e with context := e.context.set name f }
        | flow => (flow, e)) (e.goOn 0)

/-- How many steps down a script may go. -/
def maxSteps : Nat := 20000

/-- Runs a script to its end. -/
def runScript (spawn : Spawn) (script : List UInt8) (e : Session) : ExitStatus × Context :=
  match Statement.parse? script with
  | none => (.exited 2, (e.complain 1 [field "Syntax error"]).context)
  | some s =>
    match exec spawn maxSteps false s e with
    | (.next, e) => (.exited e.status, e.context)
    | (.ended status, e) => (status, e.context)

end Session

/-! ### Tools -/

/-- Runs a shell with its arguments: a script in a file, in an argument or on standard
input. -/
def runShell (spawn : Spawn) (name : Field) (strict : Bool) (c : Context) :
    List Field → ExitStatus × Context
  | [] =>
    Session.runScript spawn c.input { context := { c with input := [] }, name, strict }
  | [45, 99] :: script :: args =>
    Session.runScript spawn script
      { context := c, name := args.headD name, arguments := args.drop 1, strict }
  | (45 :: flags) :: args => runShell spawn name (strict || flags.contains 101) c args
  | file :: args =>
    match c.load ⟨file⟩ with
    | .ok script =>
      Session.runScript spawn script { context := c, name := file, arguments := args, strict }
    | .error (.os .isADirectory) => (.exited 0, c)
    | .error err =>
      (.exited 2, c.complain [name, field ": 0: cannot open ", file, field ": ",
        Session.openReason "No such file" err])

/-- The program after the variables that are set for it. -/
def setAll (c : Context) : List Field → Context × List Field
  | [] => (c, [])
  | a :: args =>
    if a.contains 61 then setAll (Session.exportOne c a) args
    else (c, a :: args)

/-- Runs a program with other variables. -/
def runEnv (spawn : Spawn) (c : Context) (args : List Field) : ExitStatus × Context :=
  let (c, argv) := setAll c args
  match spawn argv c with
  | .ok r => r
  | .error err =>
    (.exited (Session.launchReason err).2,
      c.complain [field "env: ", quote (argv.headD []), field ": ", reason err])

/-- Runs a tool to its end; at most so many processes may wait for each other. -/
def runTool : Nat → Tool → List Field → Context → ExitStatus × Context
  | 0, _, _, c => (.exited 126, c)
  | depth + 1, tool, argv, c =>
    let name := argv.headD []
    let args := argv.drop 1
    let spawn : Spawn := fun argv c =>
      match Program.find c.tree c.cwd c.searchPath argv with
      | .ok (tool, argv) => .ok (runTool depth tool argv c)
      | .error (.os .execFormat) => .ok (runTool depth .shell (field "sh" :: argv) c)
      | .error e => .error e
    match tool with
    | .shell => runShell spawn name false c args
    | .env => runEnv spawn c args
    | tool =>
      let (code, c) := perform tool name args c
      (.exited code, c)

/-- How many processes may wait for each other. -/
def maxDepth : Nat := 64

end ScenePreview.Shell

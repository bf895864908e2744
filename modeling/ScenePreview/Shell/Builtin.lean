import ScenePreview.Shell.Expansion
import ScenePreview.Shell.Tool

/-!
# The shell's own commands

Commands that the shell does itself: those that change the shell, and the simplest tools.

## Main definitions

* `Flow` — whether a script goes on after a command.
* `Session.builtin?` — the shell's own commands.
-/

namespace ScenePreview.Shell

/-- Whether a script goes on after a command. -/
inductive Flow where
  /-- It goes on. -/
  | next
  /-- It ends. -/
  | ended (s : ExitStatus)
  deriving Repr, DecidableEq

namespace Session

/-- Writes a line to standard error, after the name of the script and the line of the command. -/
def complain (e : Session) (line : Nat) (parts : List Field) : Session :=
  let place := [e.name, field (": " ++ Text.decimal line ++ ": ")]
  { e with context := e.context.complain (place ++ parts) }

/-- The script goes on after a command that ended with a code. -/
def goOn (e : Session) (status : Nat) : Flow × Session := (.next, { e with status })

/-- The script ends with a code. -/
def stop (e : Session) (code : Nat) : Flow × Session := (.ended (.exited (code % 256)), e)

/-- The number that a field is, if it is one. -/
def number? (f : Field) : Option Nat := Text.ofDigits? (f.map fun b => Char.ofNat b.toNat)

/-! ### Signals -/

/-- The names of signals. -/
def signals : List (String × Nat) :=
  [("HUP", 1), ("INT", 2), ("QUIT", 3), ("ABRT", 6), ("KILL", 9), ("USR1", 10), ("SEGV", 11),
    ("USR2", 12), ("PIPE", 13), ("ALRM", 14), ("TERM", 15)]

/-- The signal that a name or a number stands for. -/
def signal? (f : Field) : Option Nat :=
  number? f <|> (signals.find? fun s => field s.1 == f || field ("SIG" ++ s.1) == f).map (·.2)

/-- The signal to send, and to whom. -/
def signalAndTargets : List Field → Option (Nat × List Field)
  | [45, 115] :: name :: targets => (signal? name).map (·, targets)
  | (45 :: name) :: targets => (signal? name).map (·, targets)
  | targets => some (15, targets)

/-- Sends a signal; only the shell itself is there to get one. -/
def kill (e : Session) (line : Nat) (args : List Field) : Flow × Session :=
  match signalAndTargets args with
  | none => (e.complain line [field "kill: Illegal option"]).goOn 2
  | some (n, targets) =>
    if targets.contains (field (Text.decimal processNumber)) then
      if n = 0 then e.goOn 0 else (.ended (.killed n), e)
    else (e.complain line [field "kill: No such process"]).goOn 1

/-! ### Reading a line -/

/-- Whether a byte is a blank between fields. -/
def isSpace (b : UInt8) : Bool := b == 32 || b == 9 || b == 10

/-- A text without the blanks around it. -/
def strip (f : Field) : Field := ((f.dropWhile isSpace).reverse.dropWhile isSpace).reverse

/-- Sets variables to the fields of a line, the last one to all that is left. -/
def assignFields (c : Context) : List Field → Field → Context
  | [], _ => c
  | [name], line => c.set name (strip line)
  | name :: names, line =>
    let line := line.dropWhile isSpace
    assignFields (c.set name (line.takeWhile (!isSpace ·))) names (line.dropWhile (!isSpace ·))

/-- A line without the backslashes before its characters. -/
def withoutBackslashes : List UInt8 → List UInt8
  | 92 :: b :: rest => b :: withoutBackslashes rest
  | b :: rest => b :: withoutBackslashes rest
  | [] => []

/-- Reads a line of standard input into variables. -/
def read (e : Session) (args : List Field) : Flow × Session :=
  let raw := args.contains (field "-r")
  let line := e.context.input.takeWhile (· != 10)
  let rest := e.context.input.dropWhile (· != 10)
  let c := { e.context with input := rest.drop 1 }
  let line := if raw then line else withoutBackslashes line
  { e with context := assignFields c (args.filter (!isOption ·)) line }.goOn
    (if rest = [] then 1 else 0)

/-! ### The session -/

/-- Drops the first arguments. -/
def shift (e : Session) (line : Nat) (args : List Field) : Flow × Session :=
  let n := (args.head?.bind number?).getD 1
  if e.arguments.length < n then
    (e.complain line [field "shift: can't shift that many"]).stop 2
  else { e with arguments := e.arguments.drop n }.goOn 0

/-- Goes to another directory. -/
def changeDir (e : Session) (line : Nat) (args : List Field) : Flow × Session :=
  let dir := args.headD ((e.context.get? (field "HOME")).getD [])
  match e.context.tree.stat e.context.cwd ⟨dir⟩ with
  | .ok (place, .directory) => { e with context := { e.context with cwd := place } }.goOn 0
  | _ => (e.complain line [field "cd: can't cd to ", dir]).goOn 2

/-- Lets processes that are started get a variable, and sets it where a value is given. -/
def exportOne (c : Context) (a : Field) : Context :=
  let name := a.takeWhile (· != 61)
  (if a.contains 61 then c.set name ((a.dropWhile (· != 61)).drop 1) else c).exportVar name

/-- Lets processes that are started get variables. -/
def exportVars (e : Session) (args : List Field) : Flow × Session :=
  { e with context := args.foldl exportOne e.context }.goOn 0

/-- Changes how the script is run, or its arguments. -/
def configure (e : Session) : List Field → Session
  | [] => e
  | [45, 45] :: args => { e with arguments := args }
  | (45 :: flags) :: args =>
    configure (if flags.contains 101 then { e with strict := true } else e) args
  | (43 :: flags) :: args =>
    configure (if flags.contains 101 then { e with strict := false } else e) args
  | args => { e with arguments := args }

/-- One of the tools that the shell does itself. -/
def own (e : Session) (tool : Tool) (name : Field) (args : List Field) : Flow × Session :=
  let (code, context) := perform tool name args e.context
  { e with context }.goOn code

/-- The shell's own command with a name. -/
def builtin? (e : Session) (line : Nat) (name : Field) (args : List Field) :
    Option (Flow × Session) :=
  match Text.Utf8.lossy name with
  | ":" => some (e.goOn 0)
  | "true" => some (e.goOn 0)
  | "false" => some (e.goOn 1)
  | "echo" => some (e.own .echo name args)
  | "printf" => some (e.own .format name args)
  | "test" => some (e.own .test name args)
  | "[" => some (e.own .test name args)
  | "pwd" => some (e.own .directory name args)
  | "kill" => some (e.kill line args)
  | "read" => some (e.read args)
  | "shift" => some (e.shift line args)
  | "cd" => some (e.changeDir line args)
  | "export" => some (e.exportVars args)
  | "unset" => some ({ e with context := args.foldl Context.unset e.context }.goOn 0)
  | "set" => some ((e.configure args).goOn 0)
  | "exit" => some (e.stop ((args.head?.bind number?).getD e.status))
  | _ => none

/-- The commands that end the script if their streams cannot be opened. -/
def isSpecial (name : Field) : Bool :=
  [":", "exec", "exit", "export", "set", "shift", "unset"].any (field · == name)

end Session

end ScenePreview.Shell

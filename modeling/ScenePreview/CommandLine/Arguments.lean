import ScenePreview.CommandLine.Command
import ScenePreview.Text.Decimal

/-!
# Arguments

The words of a command line, read from left to right. A value attached to its option is looked
at once; a value that stands alone is held back until the next known argument or the end.

## Main definitions

* `UsageError` — why no command comes out.
* `Argument`, `Grammar` — the arguments, and which of them a command knows.
* `Arguments`, `Arguments.step` — what was read so far, and one more word.
* `Command.parse` — the command of a list of words.

## References

The parser that the reference derives for `Cli`.
-/

namespace ScenePreview

/-- Why no command comes out of the arguments. -/
inductive UsageError where
  /-- Help was asked for. -/
  | displayHelp
  /-- The version was asked for. -/
  | displayVersion
  /-- There is no command. -/
  | missingSubcommand
  /-- The command is not known. -/
  | invalidSubcommand
  /-- An argument is not known. -/
  | unknownArgument
  /-- A value is missing, empty or not one of the choices. -/
  | invalidValue
  /-- A value is no number in range. -/
  | valueValidation
  /-- A value is given to an argument that takes none. -/
  | tooManyValues
  /-- An argument is repeated. -/
  | argumentConflict
  /-- A required argument is not there. -/
  | missingRequiredArgument
  deriving Repr, DecidableEq

namespace UsageError

/-- The exit code: asking for help or the version is no error. -/
def exitCode : UsageError → Nat
  | .displayHelp => 0
  | .displayVersion => 0
  | _ => 2

end UsageError

/-! ### The arguments of each command -/

/-- An argument. -/
inductive Argument where
  /-- The script. -/
  | file
  /-- The line. -/
  | line
  /-- The script is on standard input. -/
  | stdin
  /-- The language of the script. -/
  | language
  /-- How progress and results are shown. -/
  | format
  /-- The environment to run tools in. -/
  | environment
  /-- The transformer. -/
  | transformer
  /-- Asks for help. -/
  | help
  /-- Asks for the version. -/
  | version
  deriving Repr, DecidableEq

namespace Argument

/-- Whether an argument takes a value. -/
def takesValue : Argument → Bool
  | .stdin => false
  | .help => false
  | .version => false
  | _ => true

/-- The number of a line: an optional sign and digits, in range. -/
def lineNumber? (s : String) : Option UInt32 :=
  let value (n : Option Nat) : Option UInt32 :=
    (n.filter (· < 4294967296)).map UInt32.ofNat
  match s.toList with
  | '+' :: ds => value (Text.ofDigits? ds)
  | '-' :: ds => value ((Text.ofDigits? ds).filter (· = 0))
  | ds => value (Text.ofDigits? ds)

/-- Whether a value is one that the argument accepts. -/
def check (a : Argument) (v : String) : Except UsageError Unit :=
  match a with
  | .line => if (lineNumber? v).isSome then .ok () else .error .valueValidation
  | .format => if (Format.ofTag? v).isSome then .ok () else .error .invalidValue
  | .file => if v = "" then .error .invalidValue else .ok ()
  | .transformer => if v = "" then .error .invalidValue else .ok ()
  | _ => .ok ()

end Argument

/-- The arguments that a command knows. -/
structure Grammar where
  /-- Those with a long name. -/
  long : List (String × Argument) := []
  /-- Those with a short name. -/
  short : List (Char × Argument) := []
  /-- The one without a name. -/
  positional : Option Argument := none
  deriving Repr, DecidableEq

namespace Grammar

/-- What `render` knows. -/
def render : Grammar where
  long := [("line", .line), ("stdin", .stdin), ("language", .language), ("format", .format),
    ("env", .environment), ("transformer", .transformer), ("help", .help)]
  short := [('l', .line), ('f', .format), ('e', .environment), ('h', .help)]
  positional := some .file

/-- What `plan` knows. -/
def plan : Grammar where
  long := [("line", .line), ("env", .environment), ("transformer", .transformer), ("help", .help)]
  short := [('l', .line), ('e', .environment), ('h', .help)]

/-- What `config` knows. -/
def config : Grammar where
  long := [("help", .help)]
  short := [('h', .help)]

/-- What is known before a command. -/
def top : Grammar where
  long := [("help", .help), ("version", .version)]
  short := [('h', .help), ('V', .version)]

end Grammar

/-! ### Reading words -/

/-- What was read so far. -/
structure Arguments where
  /-- The arguments with their values; no value for those that take none. -/
  given : List (Argument × String) := []
  /-- The argument whose value stands alone, with that value once it was read. -/
  pending : Option (Argument × Option String) := none
  /-- Whether the next word may be the value of the pending argument. -/
  expecting : Bool := false
  /-- Whether all words from here on have no name. -/
  trailing : Bool := false
  /-- Whether the argument without a name was read. -/
  positionalRead : Bool := false
  deriving Repr, DecidableEq

namespace Arguments

/-- Whether an argument was given. -/
def has (s : Arguments) (a : Argument) : Bool := s.given.any (·.1 == a)

/-- The value of an argument. -/
def value? (s : Arguments) (a : Argument) : Option String :=
  (s.given.find? (·.1 == a)).map (·.2)

/-- Takes an argument with its value, which must not be missing, nor the argument repeated. -/
def accept (s : Arguments) (a : Argument) (v : Option String) : Except UsageError Arguments :=
  match v with
  | none => .error .invalidValue
  | some v =>
    if s.has a then .error .argumentConflict
    else do
      a.check v
      return { s with given := s.given ++ [(a, v)] }

/-- Looks at the value that was held back. -/
def settle (s : Arguments) : Except UsageError Arguments :=
  match s.pending with
  | none => .ok s
  | some (a, v) => { s with pending := none, expecting := false }.accept a v

/-- Takes an argument without a value. -/
def flag (s : Arguments) (a : Argument) : Except UsageError Arguments := do
  let s ← s.settle
  match a with
  | .help => .error .displayHelp
  | .version => .error .displayVersion
  | _ => s.accept a (some "")

/-- Takes an argument with a value, which is attached to it or still to come. -/
def option (s : Arguments) (a : Argument) (attached : Option String) :
    Except UsageError Arguments := do
  let s ← s.settle
  match attached with
  | some v => s.accept a (some v)
  | none => return { s with pending := some (a, none), expecting := true }

/-- Takes a word without a name. -/
def positional (g : Grammar) (s : Arguments) (word : String) : Except UsageError Arguments :=
  match g.positional with
  | none => .error .unknownArgument
  | some a =>
    if s.positionalRead then .error .unknownArgument
    else do
      let s ← s.settle
      return { s with pending := some (a, some word), positionalRead := true }

/-- Takes a word that starts with two hyphens, given without them. -/
def long (g : Grammar) (s : Arguments) (cs : List Char) : Except UsageError Arguments :=
  let name := String.ofList (cs.takeWhile (· ≠ '='))
  let attached := match cs.dropWhile (· ≠ '=') with
    | [] => none
    | _ :: v => some (String.ofList v)
  match g.long.lookup name with
  | none => .error .unknownArgument
  | some a =>
    if a.takesValue then s.option a attached
    else if attached.isSome then .error .tooManyValues
    else s.flag a

/-- The value in the rest of a word after a short name: an equals sign at its start is no part
of it. -/
def attachedValue : List Char → Option String
  | [] => none
  | '=' :: cs => some (String.ofList cs)
  | cs => some (String.ofList cs)

/-- Takes a word that starts with one hyphen, given without it: short names one after the
other, up to one that takes the rest as its value. -/
def short (g : Grammar) (s : Arguments) : List Char → Except UsageError Arguments
  | [] => .ok s
  | c :: cs =>
    match g.short.lookup c with
    | none => .error .unknownArgument
    | some a =>
      if a.takesValue then s.option a (attachedValue cs)
      else do
        let s ← s.flag a
        short g s cs

/-- Takes one more word. -/
def step (g : Grammar) (s : Arguments) (word : String) : Except UsageError Arguments :=
  if s.trailing then s.positional g word
  else match word.toList with
    | ['-', '-'] => .ok { s with trailing := true }
    | '-' :: '-' :: cs => s.long g cs
    | '-' :: c :: cs => s.short g (c :: cs)
    | _ =>
      match s.pending, s.expecting with
      | some (a, none), true => .ok { s with pending := some (a, some word), expecting := false }
      | _, _ => s.positional g word

/-- Takes all words, and looks at the value that was held back last. -/
def read (g : Grammar) (words : List String) : Except UsageError Arguments := do
  let s ← words.foldlM (fun (s : Arguments) w => s.step g w) {}
  s.settle

/-- The line, which is required. -/
def line (s : Arguments) : Except UsageError UInt32 :=
  match (s.value? .line).bind Argument.lineNumber? with
  | some n => .ok n
  | none => .error .missingRequiredArgument

/-- What is said about tools; a variable may name the environment. -/
def tools (s : Arguments) (envVar : Option String) : ToolOptions where
  environment := s.value? .environment <|> envVar
  transformer := (s.value? .transformer).map Path.ofString

end Arguments

/-! ### Commands -/

namespace Command

/-- The words for commands. -/
def names : List String := ["render", "plan", "config", "help"]

/-- `render` with its words. -/
def parseRender (envVar : Option String) (words : List String) : Except UsageError Command := do
  let s ← Arguments.read .render words
  return .render {
    file := (s.value? .file).map Path.ofString
    line := ← s.line
    stdin := s.has .stdin
    language := s.value? .language
    format := ((s.value? .format).bind Format.ofTag?).getD .console
    tools := s.tools envVar }

/-- `plan` with its words. -/
def parsePlan (envVar : Option String) (words : List String) : Except UsageError Command := do
  let s ← Arguments.read .plan words
  return .plan (← s.line) (s.tools envVar)

/-- `config` with its words. -/
def parseConfig (words : List String) : Except UsageError Command := do
  let _ ← Arguments.read .config words
  return .config

/-- `help` with its words: at most the name of one command. -/
def parseHelp : List String → UsageError
  | [] => .displayHelp
  | [w] => if names.contains w then .displayHelp else .invalidSubcommand
  | _ => .invalidSubcommand

/-- What two hyphens before the name of a command lead to. -/
def parseTrailing : List String → UsageError
  | [] => .missingSubcommand
  | w :: _ => if names.contains w then .unknownArgument else .invalidSubcommand

/-- The command of a list of words, with the value of the variable that may name the
environment. -/
def parse (envVar : Option String) : List String → Except UsageError Command
  | [] => .error .missingSubcommand
  | "render" :: words => parseRender envVar words
  | "plan" :: words => parsePlan envVar words
  | "config" :: words => parseConfig words
  | "help" :: words => .error (parseHelp words)
  | "--" :: words => .error (parseTrailing words)
  | w :: _ =>
    match Arguments.step .top {} w with
    | .error .unknownArgument =>
      .error (if w.toList.head? = some '-' ∧ w ≠ "-" then .unknownArgument else .invalidSubcommand)
    | .error e => .error e
    | .ok _ => .error .missingSubcommand

end Command

end ScenePreview

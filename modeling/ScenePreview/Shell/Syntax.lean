/-!
# Shell scripts

The part of the shell language that tools and launchers are written in: simple commands with
assignments and redirections, lists of commands, conditions and loops. All text is bytes.

## Main definitions

* `Parameter`, `Modifier`, `Part`, `Word` — words with the parameters in them.
* `Redirect` — where a command reads from and writes to.
* `Statement` — commands.
-/

namespace ScenePreview.Shell

/-- What a script can ask for the value of. -/
inductive Parameter where
  /-- An argument; number zero is the name of the script. -/
  | argument (n : Nat)
  /-- The number of arguments. -/
  | count
  /-- All arguments, each a field of its own if quoted. -/
  | each
  /-- All arguments, in one field if quoted. -/
  | joined
  /-- The code that the last command ended with. -/
  | status
  /-- The number of the process. -/
  | process
  /-- A variable. -/
  | named (name : List UInt8)
  deriving Repr, DecidableEq

/-- What is done to a value. -/
inductive Modifier where
  /-- Nothing. -/
  | plain
  /-- Its length is taken. -/
  | length
  /-- A text is put in the stead of no value. -/
  | fallback (text : List UInt8)
  /-- A text is put in the stead of a value. -/
  | alternative (text : List UInt8)
  /-- The shortest or longest front part that a pattern fits is cut off. -/
  | cutFront (longest : Bool) (pattern : List UInt8)
  /-- The shortest or longest end part that a pattern fits is cut off. -/
  | cutEnd (longest : Bool) (pattern : List UInt8)
  deriving Repr, DecidableEq

/-- A part of a word. -/
inductive Part where
  /-- Text as it stands. -/
  | text (bytes : List UInt8) (quoted : Bool)
  /-- The value of a parameter. -/
  | value (parameter : Parameter) (modifier : Modifier) (quoted : Bool)
  deriving Repr, DecidableEq

/-- A word, which may stand for any number of fields. -/
abbrev Word := List Part

/-- How a stream is redirected. -/
inductive Redirect.Kind where
  /-- From a file. -/
  | input
  /-- To a file, from its beginning. -/
  | output
  /-- To a file, after its end. -/
  | append
  /-- To where another stream goes. -/
  | duplicate
  deriving Repr, DecidableEq

/-- Where a stream of a command comes from or goes to. -/
structure Redirect where
  /-- The number of the stream. -/
  stream : Nat
  /-- How it is redirected. -/
  kind : Redirect.Kind
  /-- The file, or the number of the other stream. -/
  target : Word
  deriving Repr, DecidableEq

/-- A simple command. -/
structure Simple where
  /-- The line of the script that it begins on. -/
  line : Nat
  /-- The variables that it sets. -/
  assignments : List (List UInt8 × Word) := []
  /-- The command and its arguments. -/
  words : List Word := []
  /-- Its streams. -/
  redirects : List Redirect := []
  deriving Repr, DecidableEq

/-- A command. -/
inductive Statement where
  /-- Nothing. -/
  | skip
  /-- A simple command. -/
  | simple (s : Simple)
  /-- One after the other. -/
  | seq (first second : Statement)
  /-- The second only if the first ends well. -/
  | andThen (first second : Statement)
  /-- The second only if the first does not end well. -/
  | orElse (first second : Statement)
  /-- Ends well if the command does not. -/
  | negation (s : Statement)
  /-- One of two, by how the test ends. -/
  | choice (test yes no : Statement)
  /-- Again and again, as long as the test ends well, or as long as it does not. -/
  | loop (test body : Statement) (wanted : Bool)
  /-- For each field of some words, or for each argument. -/
  | each (name : List UInt8) (items : Option (List Word)) (body : Statement)
  deriving Repr, DecidableEq

end ScenePreview.Shell

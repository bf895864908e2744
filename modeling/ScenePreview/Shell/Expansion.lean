import ScenePreview.Shell.Context
import ScenePreview.Shell.Syntax
import ScenePreview.Text.Decimal

/-!
# The fields of words

## Main definitions

* `Session` — a script at work.
* `fits` — whether a pattern fits a text.
* `Session.fields` — the fields that a word stands for.
* `Session.text` — the one text that a word stands for where fields are not split.
-/

namespace ScenePreview.Shell

/-- A script at work. -/
structure Session where
  /-- The process. -/
  context : Context
  /-- The name of the script. -/
  name : Field
  /-- The arguments. -/
  arguments : List Field := []
  /-- The code that the last command ended with. -/
  status : Nat := 0
  /-- Whether a command that does not end well ends the script. -/
  strict : Bool := false
  deriving Repr, DecidableEq

/-- The number of every process. -/
def processNumber : Nat := 4242

/-! ### Patterns -/

/-- Whether a pattern fits a text: a star fits any text, a question mark any byte. -/
def fits : List UInt8 → List UInt8 → Bool
  | [], text => text = []
  | 42 :: pattern, text =>
    fits pattern text || match text with
      | [] => false
      | _ :: rest => fits (42 :: pattern) rest
  | p :: pattern, text =>
    match text with
    | [] => false
    | b :: rest => (p = 63 || p = b) && fits pattern rest
termination_by pattern text => (pattern.length, text.length)

/-- The text without its shortest or longest front part that a pattern fits. -/
def cutFront (longest : Bool) (pattern text : List UInt8) : List UInt8 :=
  let lengths := List.range (text.length + 1)
  let ordered := if longest then lengths.reverse else lengths
  match ordered.find? fun n => fits pattern (text.take n) with
  | some n => text.drop n
  | none => text

/-- The text without its shortest or longest end part that a pattern fits. -/
def cutEnd (longest : Bool) (pattern text : List UInt8) : List UInt8 :=
  let lengths := List.range (text.length + 1)
  let ordered := if longest then lengths else lengths.reverse
  match ordered.find? fun n => fits pattern (text.drop n) with
  | some n => text.take n
  | none => text

namespace Session

/-! ### Values -/

/-- The arguments in one field. -/
def joined (s : Session) : Field := [32].intercalate s.arguments

/-- The value of a parameter. -/
def value? (s : Session) : Parameter → Option Field
  | .argument 0 => some s.name
  | .argument (n + 1) => s.arguments[n]?
  | .count => some (field (Text.decimal s.arguments.length))
  | .each => some s.joined
  | .joined => some s.joined
  | .status => some (field (Text.decimal s.status))
  | .process => some (field (Text.decimal processNumber))
  | .named name => s.context.get? name

/-- The value of a parameter after its modifier. -/
def modified (s : Session) (p : Parameter) (m : Modifier) : Field :=
  let value := (s.value? p).getD []
  match m with
  | .plain => value
  | .length => field (Text.decimal value.length)
  | .fallback text => if value = [] then text else value
  | .alternative text => if value = [] then [] else text
  | .cutFront longest pattern => cutFront longest pattern value
  | .cutEnd longest pattern => cutEnd longest pattern value

/-- The one text that a word stands for where fields are not split. -/
def text (s : Session) (w : Word) : Field :=
  w.flatMap fun
    | .text bytes _ => bytes
    | .value p m _ => s.modified p m

end Session

/-! ### Fields -/

/-- The fields of a word while it is read. -/
structure Fields where
  /-- The fields that are complete. -/
  complete : List Field := []
  /-- The field that goes on, if one has begun. -/
  current : Option Field := none
  deriving Repr, DecidableEq

namespace Fields

/-- The field goes on. -/
def add (f : Fields) (bytes : List UInt8) : Fields :=
  { f with current := some (f.current.getD [] ++ bytes) }

/-- The field ends, if one has begun. -/
def close (f : Fields) : Fields := { complete := f.complete ++ f.current.toList }

/-- All fields. -/
def toList (f : Fields) : List Field := f.close.complete

/-- A text with its blanks between fields. -/
def addSplit (f : Fields) (bytes : List UInt8) : Fields :=
  bytes.foldl (fun f b => if b = 32 ∨ b = 9 ∨ b = 10 then f.close else f.add [b]) f

/-- Texts that are fields of their own; the first goes on with the field before it. -/
def addEach (f : Fields) : List Field → Fields
  | [] => f
  | [a] => f.add a
  | a :: as => (f.add a).close.addEach as

end Fields

namespace Session

/-- One more part of a word. -/
def addPart (s : Session) (f : Fields) : Part → Fields
  | .text bytes _ => f.add bytes
  | .value .each .plain true => f.addEach s.arguments
  | .value .each .plain false =>
    s.arguments.foldl (fun f a => (f.addSplit a).close) f
  | .value p m true => f.add (s.modified p m)
  | .value p m false => f.addSplit (s.modified p m)

/-- The fields that a word stands for. -/
def fields (s : Session) (w : Word) : List Field := (w.foldl s.addPart {}).toList

end Session

end ScenePreview.Shell

import ScenePreview.Json.Basic
import ScenePreview.Text.Hex

/-!
# Writing JSON

Values without blanks. In a string the quote, the backslash and the controls are escaped,
and everything else stands for itself.

## Main definitions

* `Json.escapeChar` — one character of a string.
* `Json.renderChars`, `Json.render` — a value.
-/

namespace ScenePreview.Json

/-- One character of a string. -/
def escapeChar (c : Char) : List Char :=
  if c = '"' then ['\\', '"']
  else if c = '\\' then ['\\', '\\']
  else if c = '\x08' then ['\\', 'b']
  else if c = '\x0c' then ['\\', 'f']
  else if c = '\n' then ['\\', 'n']
  else if c = '\r' then ['\\', 'r']
  else if c = '\t' then ['\\', 't']
  else if c.toNat < 0x20 then '\\' :: 'u' :: Text.hexPadded 4 c.toNat
  else [c]

/-- A string with its quotes. What is no text is written as half of a surrogate pair. -/
def renderString : Option String → List Char
  | some s => '"' :: s.toList.flatMap escapeChar ++ ['"']
  | none => ['"', '\\', 'u', 'd', '8', '0', '0', '"']

/-- A number as it was written. -/
def Number.renderChars (n : Number) : List Char :=
  (if n.negative then ['-'] else []) ++ n.integer
    ++ (if n.fraction = [] then [] else '.' :: n.fraction)
    ++ match n.exponent with
      | none => []
      | some (true, ds) => 'e' :: '-' :: ds
      | some (false, ds) => 'e' :: ds

mutual

/-- The characters of a value. -/
def renderChars : Json → List Char
  | .null => ['n', 'u', 'l', 'l']
  | .bool true => ['t', 'r', 'u', 'e']
  | .bool false => ['f', 'a', 'l', 's', 'e']
  | .number n => n.renderChars
  | .string s => renderString s
  | .array items => '[' :: renderItems items ++ [']']
  | .object members => '{' :: renderMembers members ++ ['}']

/-- Items with commas between them. -/
def renderItems : List Json → List Char
  | [] => []
  | [v] => renderChars v
  | v :: vs => renderChars v ++ ',' :: renderItems vs

/-- Members with commas between them. -/
def renderMembers : List (Option String × Json) → List Char
  | [] => []
  | [(k, v)] => renderString k ++ ':' :: renderChars v
  | (k, v) :: ms => renderString k ++ ':' :: renderChars v ++ ',' :: renderMembers ms

end

/-- A value as text. -/
def render (v : Json) : String := String.ofList v.renderChars

end ScenePreview.Json

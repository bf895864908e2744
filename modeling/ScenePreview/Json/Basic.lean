/-!
# JSON values

A JSON value as it was written: a number keeps its digits, an object the order of its
members and all of its repeated ones. A string that no text spells, because it holds half of
a surrogate pair, is kept as `none`.

## Main definitions

* `Json`, `Json.Number` — values.
* `Json.depth`, `Json.isWhole` — how deep arrays and objects nest, and whether every string
  is text and every number in range.
* `Json.field?` — a member that may occur once.
-/

namespace ScenePreview

/-- A number as it was written. -/
structure Json.Number where
  /-- Whether a minus sign stands first. -/
  negative : Bool := false
  /-- The digits before the point. -/
  integer : List Char
  /-- The digits after the point; there is no point if there are none. -/
  fraction : List Char := []
  /-- The exponent: whether it is negative, and its digits. -/
  exponent : Option (Bool × List Char) := none
  deriving Repr, DecidableEq

/-- A value as it was written. -/
inductive Json where
  | null
  | bool (b : Bool)
  | number (n : Json.Number)
  /-- A string; `none` if it is no text. -/
  | string (s : Option String)
  | array (items : List Json)
  /-- An object; a key is `none` if it is no text. -/
  | object (members : List (Option String × Json))
  deriving Repr, Inhabited

namespace Json

/-- The members of an object. -/
abbrev Members := List (Option String × Json)

/-- The string that is a text. -/
def text (s : String) : Json := .string (some s)

/-- An object with texts for its keys. -/
def ofFields (fields : List (String × Json)) : Json :=
  .object (fields.map fun (k, v) => (some k, v))

/-- `null` for nothing, else the value. -/
def ofOption (v : Option Json) : Json := v.getD .null

mutual

/-- How deep arrays and objects nest. -/
def depth : Json → Nat
  | .array items => depthItems items + 1
  | .object members => depthMembers members + 1
  | _ => 0

/-- How deep the deepest of some items nests. -/
def depthItems : List Json → Nat
  | [] => 0
  | v :: vs => max (depth v) (depthItems vs)

/-- How deep the deepest of some members nests. -/
def depthMembers : List (Option String × Json) → Nat
  | [] => 0
  | (_, v) :: ms => max (depth v) (depthMembers ms)

end

/-! ### Members -/

/-- Whether all keys are texts. -/
def keysAreText (ms : Members) : Bool := ms.all (·.1.isSome)

/-- The member with a key, or that there is none. A repeated member is an error. -/
def field? (ms : Members) (key : String) : Option (Option Json) :=
  match ms.filter (·.1 == some key) with
  | [] => some none
  | [m] => some (some m.2)
  | _ => none

/-- The member with a key, which must be there once. -/
def required? (ms : Members) (key : String) : Option Json := (field? ms key).join

/-- The text that a value is. -/
def asText? : Json → Option String
  | .string s => s
  | _ => none

/-- The value that a choice among words stands for: the word itself, or an object whose only
key is the word, with `null`. -/
def asWord? : Json → Option String
  | .string s => s
  | .object [(k, .null)] => k
  | _ => none

/-- A value that may be absent or `null`, read by `f` if it is neither. -/
def optional? {α : Type} (f : Json → Option α) : Option Json → Option (Option α)
  | none => some none
  | some .null => some none
  | some v => (f v).map some

end Json

end ScenePreview

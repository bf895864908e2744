import ScenePreview.Json.Basic
import ScenePreview.Text.Hex
import ScenePreview.Text.Scan

/-!
# Reading JSON

The grammar of JSON and nothing more: how deep values nest, whether numbers are in range
and whether strings are text is asked of the value that was read.

## Main definitions

* `Json.Piece`, `Json.pieces?`, `Json.joinPieces?` — strings.
* `Json.scanNumber`, `Json.value` — numbers and values.
* `Json.parse?` — the value that a whole text spells.
-/

namespace ScenePreview.Json

open Text (Scan)

/-! ### Strings -/

/-- A part of a string: a character, or the code of a `\u` escape. -/
inductive Piece where
  /-- A character. -/
  | char (c : Char)
  /-- A code of 16 bits. -/
  | code (n : Nat)
  deriving Repr, DecidableEq

/-- The characters that an escape of one letter stands for. -/
def unescape? (c : Char) : Option Char :=
  if c = '"' ∨ c = '\\' ∨ c = '/' then some c
  else if c = 'b' then some '\x08'
  else if c = 'f' then some '\x0c'
  else if c = 'n' then some '\n'
  else if c = 'r' then some '\r'
  else if c = 't' then some '\t'
  else none

/-- Reads a string up to its closing quote. -/
def pieces? : List Char → Option (List Piece × List Char)
  | [] => none
  | '"' :: cs => some ([], cs)
  | '\\' :: 'u' :: a :: b :: c :: d :: cs => do
    let ds ← [a, b, c, d].mapM Text.hexValue?
    let (ps, rest) ← pieces? cs
    return (.code (Text.ofHexDigits ds) :: ps, rest)
  | '\\' :: e :: cs => do
    let c ← unescape? e
    let (ps, rest) ← pieces? cs
    return (.char c :: ps, rest)
  | c :: cs =>
    if c.toNat < 0x20 ∨ c = '\\' then none
    else do
      let (ps, rest) ← pieces? cs
      return (.char c :: ps, rest)

/-- Whether a code is the first half of a surrogate pair. -/
def isLead (n : Nat) : Bool := 0xD800 ≤ n && n ≤ 0xDBFF

/-- Whether a code is the second half of a surrogate pair. -/
def isTrail (n : Nat) : Bool := 0xDC00 ≤ n && n ≤ 0xDFFF

/-- The character of a surrogate pair. -/
def joinPair (hi lo : Nat) : Char := Char.ofNat (0x10000 + (hi - 0xD800) * 0x400 + (lo - 0xDC00))

/-- The text of a string, if no half of a surrogate pair stands alone. -/
def joinPieces? : List Piece → Option (List Char)
  | [] => some []
  | .char c :: ps => (joinPieces? ps).map (c :: ·)
  | .code hi :: .code lo :: ps =>
    if isLead hi then
      if isTrail lo then (joinPieces? ps).map (joinPair hi lo :: ·) else none
    else if isTrail hi then none
    else (joinPieces? (.code lo :: ps)).map (Char.ofNat hi :: ·)
  | .code n :: ps =>
    if isLead n || isTrail n then none else (joinPieces? ps).map (Char.ofNat n :: ·)

/-- Reads the rest of a string after its opening quote. -/
def stringBody : Scan (Option String) := fun cs =>
  (pieces? cs).map fun (ps, rest) => ((joinPieces? ps).map String.ofList, rest)

/-! ### Numbers -/

/-- Reads as many digits as there are. -/
def digitsMany : Scan (List Char) := fun cs =>
  some (cs.takeWhile Char.isDigit, cs.dropWhile Char.isDigit)

/-- Reads at least one digit. -/
def digitsSome : Scan (List Char) := do
  let ds ← digitsMany
  if ds = [] then failure
  return ds

/-- Reads the digits before the point: no zero before other digits. -/
def integerDigits : Scan (List Char) := do
  let ds ← digitsSome
  if ds.head? = some '0' ∧ 1 < ds.length then failure
  return ds

/-- Reads a point and the digits after it, if there is a point. -/
def fractionDigits : Scan (List Char) := do
  match ← Scan.peek with
  | some '.' =>
    Scan.char '.'
    digitsSome
  | _ => return []

/-- Reads the sign of an exponent: whether it is negative. -/
def exponentSign : Scan Bool := do
  match ← Scan.peek with
  | some '-' =>
    Scan.char '-'
    return true
  | some '+' =>
    Scan.char '+'
    return false
  | _ => return false

/-- Reads an exponent, if there is one. -/
def exponentPart : Scan (Option (Bool × List Char)) := do
  match ← Scan.peek with
  | some c =>
    if c = 'e' ∨ c = 'E' then do
      Scan.char c
      let negative ← exponentSign
      let ds ← digitsSome
      return some (negative, ds)
    else return none
  | none => return none

/-- Reads a number. -/
def scanNumber : Scan Number := do
  let negative := (← Scan.peek) == some '-'
  if negative then Scan.char '-'
  let integer ← integerDigits
  let fraction ← fractionDigits
  let exponent ← exponentPart
  return ⟨negative, integer, fraction, exponent⟩

/-! ### Values -/

/-- The characters that may stand between the parts of a value. -/
def isSpace (c : Char) : Bool := c == ' ' || c == '\n' || c == '\t' || c == '\r'

/-- Skips what may stand between the parts of a value. -/
def spaces : Scan Unit := Scan.skipWhile isSpace

/-- Reads a word. -/
def word (w : String) : Scan Unit := fun cs =>
  if w.toList.isPrefixOf cs then some ((), cs.drop w.length) else none

/-- Reads one or more items with commas between them, up to a closing character. -/
def itemsUntil {α : Type} (close : Char) (item : Scan α) : Nat → Scan (List α)
  | 0 => failure
  | fuel + 1 => do
    let a ← item
    spaces
    match ← Scan.peek with
    | some ',' =>
      Scan.char ','
      let as ← itemsUntil close item fuel
      return a :: as
    | _ =>
      Scan.char close
      return [a]

/-- Reads items with commas between them, up to a closing character. -/
def listUntil {α : Type} (close : Char) (item : Scan α) : Scan (List α) := do
  spaces
  if (← Scan.peek) = some close then
    Scan.char close
    return []
  else
    itemsUntil close item ((← Scan.rest).length + 1)

/-- Reads a key, the colon and a value. -/
def member (value : Scan Json) : Scan (Option String × Json) := do
  spaces
  Scan.char '"'
  let key ← stringBody
  spaces
  Scan.char ':'
  let v ← value
  return (key, v)

/-- Reads a value whose arrays and objects nest less deep than the given bound, after spaces. -/
def value : Nat → Scan Json
  | 0 => failure
  | bound + 1 => do
    spaces
    match ← Scan.peek with
    | some 'n' => word "null"; return .null
    | some 't' => word "true"; return .bool true
    | some 'f' => word "false"; return .bool false
    | some '"' => Scan.char '"'; return .string (← stringBody)
    | some '[' => Scan.char '['; return .array (← listUntil ']' (value bound))
    | some '{' => Scan.char '{'; return .object (← listUntil '}' (member (value bound)))
    | _ => return .number (← scanNumber)

/-- The value that a whole text spells, with nothing but spaces around it. -/
def parse? (s : String) : Option Json :=
  let cs := s.toList
  Scan.all? (do let v ← value (cs.length + 1); spaces; return v) cs

end ScenePreview.Json

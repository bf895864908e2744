import ScenePreview.Yaml.Char

/-!
# A place in a YAML stream

The characters that are left, with the line and the column that indentation depends on.

## Main definitions

* `Cursor` — the place.
* `Reader` — reads from a place and may fail.
* `Reader.skip`, `Reader.takeWhile`, `Reader.lineBreak` — the moves.
-/

namespace ScenePreview.Yaml

/-- A place in a stream. -/
structure Cursor where
  /-- The characters that are left. -/
  rest : List Char
  /-- How many characters were read. -/
  index : Nat := 0
  /-- The line, from zero. -/
  line : Nat := 0
  /-- The column, from zero. -/
  column : Nat := 0
  deriving Repr, DecidableEq

namespace Cursor

/-- The place after `n` characters of the same line. -/
def advance (c : Cursor) (n : Nat) : Cursor :=
  { c with rest := c.rest.drop n, index := c.index + n, column := c.column + n }

/-- The place after a line end of `n` characters. -/
def nextLine (c : Cursor) (n : Nat) : Cursor :=
  { rest := c.rest.drop n, index := c.index + n, line := c.line + 1, column := 0 }

/-- The next character. -/
def peek (c : Cursor) : Option Char := c.rest.head?

/-- The character after `n` others. -/
def peekAt (c : Cursor) (n : Nat) : Option Char := c.rest[n]?

/-- Whether three times the same mark stands alone at the start of a line. -/
def atMark (c : Cursor) (mark : Char) : Bool :=
  c.column == 0 && c.rest.take 3 == [mark, mark, mark] && endsWord (c.peekAt 3)

/-- Whether a document starts or ends here. -/
def atDocumentMark (c : Cursor) : Bool := c.atMark '-' || c.atMark '.'

end Cursor

/-- Reads from a place. -/
abbrev Reader := StateT Cursor Option

namespace Reader

/-- The next character, which stays. -/
def peek : Reader (Option Char) := return (← get).peek

/-- Skips characters of the same line. -/
def skip (n : Nat) : Reader Unit := modify (·.advance n)

/-- Reads the longest run of characters of the same line that a test accepts. -/
def takeWhile (p : Char → Bool) : Reader (List Char) := fun c =>
  let run := c.rest.takeWhile p
  some (run, c.advance run.length)

/-- Skips the longest run of characters of the same line that a test accepts. -/
def skipWhile (p : Char → Bool) : Reader Unit := do
  let _ ← takeWhile p

/-- Reads a line end, if there is one. What it stands for in a text is a line feed, unless it
is one of the separators of Unicode. -/
def lineBreak : Reader (List Char) := fun c =>
  match c.rest with
  | '\r' :: '\n' :: _ => some (['\n'], c.nextLine 2)
  | b :: _ =>
    if b == '\u2028' || b == '\u2029' then some ([b], c.nextLine 1)
    else if isBreak b then some (['\n'], c.nextLine 1)
    else some ([], c)
  | [] => some ([], c)

/-- Skips blanks and a comment up to the end of a line, which must follow, and that end. -/
def finishLine : Reader Unit := do
  skipWhile isBlank
  if (← peek) == some '#' then skipWhile (!isBreak ·)
  if !endsLine (← peek) then failure
  let _ ← lineBreak

end Reader

end ScenePreview.Yaml

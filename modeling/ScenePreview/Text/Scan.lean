import ScenePreview.Text.Blank
import ScenePreview.Text.Decimal

/-!
# Scanning text

A scanner reads from the front of a list of characters: it gives a value and leaves the
rest, or it fails.

## Main definitions

* `Scan` — a scanner.
* `Scan.char`, `Scan.blanks`, `Scan.number` — a given character, blanks, a decimal number.
-/

namespace ScenePreview.Text

/-- Reads a value from the front of a list of characters. -/
abbrev Scan := StateT (List Char) Option

namespace Scan

/-- Reads one character that a test accepts. -/
def satisfy (p : Char → Bool) : Scan Char := fun cs =>
  match cs with
  | c :: rest => if p c then some (c, rest) else none
  | [] => none

/-- Reads the character `c`. -/
def char (c : Char) : Scan Unit := fun cs =>
  match cs with
  | c' :: rest => if c' = c then some ((), rest) else none
  | [] => none

/-- Skips the longest front part whose characters a test accepts. -/
def skipWhile (p : Char → Bool) : Scan Unit := fun cs => some ((), cs.dropWhile p)

/-- Skips blanks, if any. -/
def blanks : Scan Unit := skipWhile isBlank

/-- Reads at least one and at most `max` digits. -/
def digits (max : Nat) : Scan (List Char) := fun cs =>
  match (cs.take max).takeWhile Char.isDigit with
  | [] => none
  | ds => some (ds, cs.drop ds.length)

/-- Reads a number of at most `max` digits, after blanks. -/
def number (max : Nat) : Scan Nat := do
  blanks
  let ds ← digits max
  return ofDigits ds

/-- The next character, which stays. -/
def peek : Scan (Option Char) := fun cs => some (cs.head?, cs)

/-- The characters left. -/
def rest : Scan (List Char) := fun cs => some (cs, cs)

/-- The value that a scanner reads from a whole text, with nothing left. -/
def all? {α : Type} (p : Scan α) (cs : List Char) : Option α :=
  match p cs with
  | some (a, []) => some a
  | _ => none

end Scan

end ScenePreview.Text

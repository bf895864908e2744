/-!
# Blank characters, trimming and lines

Which characters count as blank, how text is trimmed of them, and how text is cut
into lines.

## Main definitions

* `isBlank` — the Unicode property `White_Space`.
* `trim` — text without its leading and trailing blank characters.
* `lines` — the lines of a text, each ended by a line feed; a carriage return
  right before the line feed belongs to the line end.
-/

namespace ScenePreview.Text

/-- The characters of the Unicode property `White_Space`. -/
def isBlank (c : Char) : Bool :=
  let n := c.toNat
  (0x9 ≤ n && n ≤ 0xD) || n == 0x20 || n == 0x85 || n == 0xA0 || n == 0x1680
    || (0x2000 ≤ n && n ≤ 0x200A) || n == 0x2028 || n == 0x2029 || n == 0x202F
    || n == 0x205F || n == 0x3000

/-! ### Trimming -/

/-- A list of characters without its leading blank ones. -/
def trimStartChars (cs : List Char) : List Char := cs.dropWhile isBlank

/-- A list of characters without its trailing blank ones. -/
def trimEndChars (cs : List Char) : List Char := (cs.reverse.dropWhile isBlank).reverse

/-- A list of characters without its leading and trailing blank ones. -/
def trimChars (cs : List Char) : List Char := trimEndChars (trimStartChars cs)

/-- Text without its leading and trailing blank characters. -/
def trim (s : String) : String := String.ofList (trimChars s.toList)

/-- Whether text holds no character other than blank ones. -/
def allBlank (s : String) : Bool := s.toList.all isBlank

/-! ### Lines -/

/-- A line's characters in reverse, less the carriage return next to its line feed. -/
def dropReturn : List Char → List Char
  | '\r' :: cs => cs
  | cs => cs

/-- The lines of `cs`, where `acc` holds in reverse what was read of the first one.
A last line without a line feed counts only if it is not empty. -/
def linesFrom : List Char → List Char → List (List Char)
  | [], [] => []
  | acc, [] => [acc.reverse]
  | acc, c :: cs =>
    if c = '\n' then (dropReturn acc).reverse :: linesFrom [] cs else linesFrom (c :: acc) cs

/-- The lines of a text, without their line ends. -/
def lines (s : String) : List String := (linesFrom [] s.toList).map String.ofList

end ScenePreview.Text

/-!
# Character classes of YAML

The characters that a YAML stream may hold, and the classes that its tokens are made of.
-/

namespace ScenePreview.Yaml

/-- The characters that a stream may hold. -/
def isAllowed (c : Char) : Bool :=
  let n := c.toNat
  n == 0x9 || n == 0xA || n == 0xD || (0x20 ≤ n && n ≤ 0x7E) || n == 0x85
    || (0xA0 ≤ n && n ≤ 0xD7FF) || (0xE000 ≤ n && n ≤ 0xFFFD) || 0x10000 ≤ n

/-- The byte order mark. -/
def byteOrderMark : Char := '\uFEFF'

/-- The characters that end a line. -/
def isBreak (c : Char) : Bool :=
  c == '\n' || c == '\r' || c == '\u0085' || c == '\u2028' || c == '\u2029'

/-- A space or a tab. -/
def isBlank (c : Char) : Bool := c == ' ' || c == '\t'

/-- A blank or the end of a line. -/
def isGap (c : Char) : Bool := isBlank c || isBreak c

/-- Whether what comes next is the end of a line or of the stream. -/
def endsLine : Option Char → Bool
  | some c => isBreak c
  | none => true

/-- Whether what comes next is a blank, the end of a line or of the stream. -/
def endsWord : Option Char → Bool
  | some c => isGap c
  | none => true

/-- The characters of anchors and handles. -/
def isWordChar (c : Char) : Bool := c.isAlphanum || c == '_' || c == '-'

/-- The characters of a tag. -/
def isTagChar (c : Char) : Bool :=
  isWordChar c || [';', '/', '?', ':', '@', '&', '=', '+', '$', '.', '%', '!', '~', '*', '\'',
    '(', ')'].contains c

/-- The characters that a tag may hold besides when it is spelled out in full. -/
def isFullTagChar (c : Char) : Bool := isTagChar c || c == ',' || c == '[' || c == ']'

/-- The characters that a plain scalar cannot start with. -/
def isIndicator (c : Char) : Bool :=
  ['-', '?', ':', ',', '[', ']', '{', '}', '#', '&', '*', '!', '|', '>', '\'', '"', '%', '@',
    '\x60'].contains c

/-- The characters that stand for a part of a flow collection. -/
def isFlowMark (c : Char) : Bool := [',', '[', ']', '{', '}'].contains c

end ScenePreview.Yaml

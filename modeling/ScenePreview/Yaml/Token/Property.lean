import ScenePreview.Text.Decimal
import ScenePreview.Text.Hex
import ScenePreview.Text.Utf8
import ScenePreview.Yaml.Token
import ScenePreview.Yaml.Token.Cursor

/-!
# Directives, anchors and tags of YAML

The tokens that say something about a document or a node without being part of its content.
-/

namespace ScenePreview.Yaml.Reader

/-! ### Tags -/

/-- Reads one escaped byte of a tag. -/
def tagByte : Reader UInt8 := do
  match (← get).rest with
  | '%' :: a :: b :: _ =>
    match Text.hexValue? a, Text.hexValue? b with
    | some x, some y =>
      skip 3
      return UInt8.ofNat (x.val * 16 + y.val)
    | _, _ => failure
  | _ => failure

/-- How many bytes follow the first one of an escaped character. -/
def tailCount? (b : UInt8) : Option Nat :=
  if b &&& 0x80 = 0x00 then some 0
  else if b &&& 0xE0 = 0xC0 then some 1
  else if b &&& 0xF0 = 0xE0 then some 2
  else if b &&& 0xF8 = 0xF0 then some 3
  else none

/-- Reads the bytes of an escaped character after its first one. -/
def tagTail : Nat → Reader (List UInt8)
  | 0 => return []
  | n + 1 => do
    let b ← tagByte
    if b &&& 0xC0 ≠ 0x80 then failure
    return b :: (← tagTail n)

/-- Reads an escaped character. -/
def tagEscape : Reader (List UInt8) := do
  let b ← tagByte
  match tailCount? b with
  | some n => return b :: (← tagTail n)
  | none => failure

/-- Reads the characters of a tag that a test accepts, with their escapes. -/
def tagChars (p : Char → Bool) : Nat → Tag → Reader Tag
  | 0, _ => failure
  | fuel + 1, acc => do
    match ← peek with
    | some c =>
      if !p c then return acc
      else if c == '%' then tagChars p fuel (acc ++ (← tagEscape))
      else
        skip 1
        tagChars p fuel (acc ++ String.utf8EncodeChar c)
    | none => return acc

/-- Reads a tag, or the rest of it after `start`. -/
def tagText (p : Char → Bool) (start : Tag) : Reader Tag := do
  tagChars p ((← get).rest.length + 1) start

/-- Reads an exclamation mark, word characters and, if it is there, another exclamation mark;
the flag says whether it is. -/
def handle : Reader (Tag × Bool) := do
  if (← peek) ≠ some '!' then failure
  skip 1
  let word ← takeWhile isWordChar
  let name := Text.Utf8.encodeChars ('!' :: word)
  if (← peek) == some '!' then
    skip 1
    return (name ++ [33], true)
  else return (name, false)

/-- Reads a tag spelled out in full, in angle brackets. -/
def fullTag : Reader Token := do
  skip 2
  let suffix ← tagText isFullTagChar []
  if suffix = [] then failure
  if (← peek) ≠ some '>' then failure
  skip 1
  return .tag [] suffix

/-- Reads a tag with a handle or without one. -/
def shortTag : Reader Token := do
  let (name, closed) ← handle
  if closed then
    let suffix ← tagText isTagChar []
    if suffix = [] then failure
    return .tag name suffix
  else
    let suffix ← tagText isTagChar (name.drop 1)
    return if suffix = [] then .tag [] [33] else .tag [33] suffix

/-- Reads a tag, which must be followed by a blank or, in a flow collection, a comma. -/
def tag (inFlow : Bool) : Reader Token := do
  let t ← if (← get).peekAt 1 == some '<' then fullTag else shortTag
  let next ← peek
  if (inFlow && next == some ',') || endsWord next then return t
  failure

/-! ### Anchors -/

/-- Whether what comes next may follow the name of an anchor. -/
def endsAnchor : Option Char → Bool
  | some c => isGap c || ['?', ':', ',', ']', '}', '%', '@', '\x60'].contains c
  | none => true

/-- Reads the mark of an anchor or alias and its name. -/
def anchorName : Reader String := do
  skip 1
  let name ← takeWhile isWordChar
  if name = [] || !endsAnchor (← peek) then failure
  return String.ofList name

/-! ### Directives -/

/-- Reads a part of a version: at most nine digits. -/
def versionPart : Reader Nat := do
  let ds ← takeWhile Char.isDigit
  if ds = [] || 9 < ds.length then failure
  return Text.ofDigits ds

/-- Reads the version of a directive. -/
def versionValue : Reader Token := do
  skipWhile isBlank
  let major ← versionPart
  if (← peek) ≠ some '.' then failure
  skip 1
  let minor ← versionPart
  return .version major minor

/-- Reads the handle of a directive and what it stands for. -/
def tagHandleValue : Reader Token := do
  skipWhile isBlank
  let (name, closed) ← handle
  if !closed && name ≠ [33] then failure
  match ← peek with
  | some c => if !isBlank c then failure
  | none => failure
  skipWhile isBlank
  let start ← tagText isFullTagChar []
  if start = [] || !endsWord (← peek) then failure
  return .tagHandle name start

/-- Reads a directive up to the end of its line. -/
def directive : Reader Token := do
  skip 1
  let name ← takeWhile isWordChar
  if !endsWord (← peek) then failure
  let t ←
    if name = ['Y', 'A', 'M', 'L'] then versionValue
    else if name = ['T', 'A', 'G'] then tagHandleValue
    else failure
  finishLine
  return t

end ScenePreview.Yaml.Reader

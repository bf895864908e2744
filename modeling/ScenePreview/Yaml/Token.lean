/-!
# Tokens of YAML

What a YAML stream is made of once blanks, comments and indentation are accounted for.
-/

namespace ScenePreview.Yaml

/-- How a scalar is written. -/
inductive Style where
  /-- Without any quotes. -/
  | plain
  /-- In single or double quotes. -/
  | quoted
  /-- As a block whose line ends are kept. -/
  | literal
  /-- As a block whose lines are joined. -/
  | folded
  deriving Repr, DecidableEq

/-- A tag, as bytes, since its escapes spell bytes. -/
abbrev Tag := List UInt8

/-- A token. -/
inductive Token where
  /-- The end of the stream. -/
  | streamEnd
  /-- The version that a directive asks for. -/
  | version (major minor : Nat)
  /-- A directive that lets a handle stand for the beginning of tags. -/
  | tagHandle (handle : Tag) (start : Tag)
  /-- `---` -/
  | documentStart
  /-- `...` -/
  | documentEnd
  /-- The indentation grows: a sequence starts. -/
  | blockSequenceStart
  /-- The indentation grows: a mapping starts. -/
  | blockMappingStart
  /-- The indentation shrinks. -/
  | blockEnd
  /-- `[` -/
  | flowSequenceStart
  /-- `]` -/
  | flowSequenceEnd
  /-- An opening brace. -/
  | flowMappingStart
  /-- A closing brace. -/
  | flowMappingEnd
  /-- `-` -/
  | blockEntry
  /-- `,` -/
  | flowEntry
  /-- A key follows. -/
  | key
  /-- A value follows. -/
  | value
  /-- A reference to an anchor. -/
  | alias (name : String)
  /-- An anchor for the node that follows. -/
  | anchor (name : String)
  /-- A tag for the node that follows. -/
  | tag (handle : Tag) (suffix : Tag)
  /-- A scalar. -/
  | scalar (text : String) (style : Style)
  deriving Repr, DecidableEq

end ScenePreview.Yaml

import ScenePreview.Path
import ScenePreview.Text.Hex

/-!
# Artifacts

A rendered video, by its path, and the locator that a viewer opens.

## Main definitions

* `Artifact`, `Artifact.locator` — the video and its `file` locator.
* `Locator.escapeByte` — one byte of a component in a locator.

## References

The reference's `ArtifactReference` and its `locator`.
-/

namespace ScenePreview

namespace Locator

/-- The bytes that a component of a locator writes as a percent sign and two digits:
controls, the blank, everything beyond ASCII, and the marks that mean something else. -/
def isEscaped (b : UInt8) : Bool :=
  b ≤ 0x20 || 0x7F ≤ b
    || [0x22, 0x23, 0x25, 0x2F, 0x3C, 0x3E, 0x3F, 0x5C, 0x60, 0x7B, 0x7D].contains b

/-- One byte of a component in a locator. -/
def escapeByte (b : UInt8) : List Char :=
  if isEscaped b then '%' :: (Text.hexByte b).map Char.toUpper
  else [Char.ofNat b.toNat]

/-- A component in a locator, with the slash before it. The root is written by the slashes
of the others. -/
def escapeComponent : Path.Component → List Char
  | .root => []
  | .here => '/' :: Path.here.flatMap escapeByte
  | .up => '/' :: Path.up.flatMap escapeByte
  | .name n => '/' :: n.flatMap escapeByte

/-- The locator of an absolute path. -/
def ofAbsolute (p : Path) : String :=
  let body := p.components.flatMap escapeComponent
  String.ofList ("file://".toList ++ if body = [] then ['/'] else body)

end Locator

/-- A rendered video. -/
structure Artifact where
  /-- Where the video is. -/
  path : Path
  deriving Repr, DecidableEq

namespace Artifact

/-- What a viewer opens: a `file` locator for an absolute path, else the path as it is. -/
def locator (a : Artifact) : String :=
  if a.path.isAbsolute then Locator.ofAbsolute a.path else a.path.display

end Artifact

end ScenePreview

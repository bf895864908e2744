import ScenePreview.Text.Utf8

/-!
# Paths

A path is the bytes of its text; nothing about it is normalised. Its *components* are
what is left when repeated slashes, trailing slashes and inner `.` segments are ignored.

## Main definitions

* `Path`, `Path.display` — a path, and its text with flaws replaced.
* `Path.Component`, `Path.components` — the components of a path.
* `Path.join` — one path below another.
* `Path.parent?`, `Path.fileName?`, `Path.stem`, `Path.extension?` — the parts of a path.
-/

namespace ScenePreview

/-- A name in a directory, as bytes. -/
abbrev Name := List UInt8

/-- A path, as the bytes of its text. -/
structure Path where
  /-- The bytes of the text. -/
  bytes : List UInt8
  deriving Repr, DecidableEq, Inhabited

namespace Path

/-- The byte between two segments. -/
def slash : UInt8 := 47

/-- The byte before an extension. -/
def dot : UInt8 := 46

/-- The path that a text spells. -/
def ofString (s : String) : Path := ⟨Text.Utf8.encode s⟩

/-- The text of a path, each flaw replaced. -/
def display (p : Path) : String := Text.Utf8.lossy p.bytes

/-- The text of a path, if it is text. -/
def toString? (p : Path) : Option String := Text.Utf8.decode? p.bytes

/-- Whether a path starts at the root. -/
def isAbsolute (p : Path) : Bool := p.bytes.head? == some slash

/-! ### Segments and components -/

/-- The parts between slashes, where `acc` holds in reverse what was read of the first. -/
def segmentsFrom : List UInt8 → List UInt8 → List Name
  | acc, [] => [acc.reverse]
  | acc, b :: bs =>
    if b = slash then acc.reverse :: segmentsFrom [] bs else segmentsFrom (b :: acc) bs

/-- The parts of a path between slashes, empty ones included. -/
def segments (p : Path) : List Name := segmentsFrom [] p.bytes

/-- The path with the given parts between its slashes. -/
def ofSegments (ss : List Name) : Path := ⟨[slash].intercalate ss⟩

/-- The segment that names the directory itself. -/
def here : Name := [dot]

/-- The segment that names the directory above. -/
def up : Name := [dot, dot]

/-- One step of a path. -/
inductive Component where
  /-- The start of an absolute path. -/
  | root
  /-- A leading `.` of a relative path. -/
  | here
  /-- A step to the directory above. -/
  | up
  /-- A step to an entry of the directory. -/
  | name (n : Name)
  deriving Repr, DecidableEq

/-- The step that a segment stands for; empty and `.` segments stand for none. -/
def Component.ofSegment? (s : Name) : Option Component :=
  if s = [] ∨ s = Path.here then none else if s = Path.up then some .up else some (.name s)

/-- What a path starts from, as far as that is a component. -/
def origin (p : Path) : List Component :=
  if p.isAbsolute then [.root] else if p.segments.head? = some Path.here then [.here] else []

/-- The components of a path. -/
def components (p : Path) : List Component :=
  p.origin ++ p.segments.filterMap Component.ofSegment?

/-- Whether two paths have the same components. -/
def sameAs (p q : Path) : Bool := p.components == q.components

/-! ### Joining -/

/-- `q` below `p`. An absolute `q` takes the place of `p`; the texts of both are kept. -/
def join (p q : Path) : Path :=
  if q.isAbsolute then q
  else if p.bytes = [] ∨ p.bytes.getLast? = some slash then ⟨p.bytes ++ q.bytes⟩
  else ⟨p.bytes ++ slash :: q.bytes⟩

/-- The entry called `s` below `p`. -/
def child (p : Path) (s : String) : Path := p.join (ofString s)

/-! ### Parts -/

/-- Whether a segment is no component when it is not the first. -/
def isFiller (s : Name) : Bool := s == [] || s == Path.here

/-- The segments of a path up to its last component but one, or nothing for a path without
a component other than the root. The empty first segment of an absolute path and a leading
`.` are kept. -/
def parentSegments? (p : Path) : Option (List Name) :=
  match p.segments with
  | [] => none
  | first :: rest =>
    match rest.reverse.dropWhile isFiller with
    | _ :: before => some (first :: (before.dropWhile isFiller).reverse)
    | [] => if first = [] then none else some []

/-- The path without its last component; there is none for the empty path and the root. -/
def parent? (p : Path) : Option Path :=
  p.parentSegments?.map fun ss => if ss = [[]] then ⟨[slash]⟩ else ofSegments ss

/-- The last component, if it is a name. -/
def fileName? (p : Path) : Option Name :=
  match p.components.getLast? with
  | some (.name n) => some n
  | _ => none

/-- A name up to its last dot and what follows that dot. A name without a dot, or with
only its first byte a dot, has nothing after it. -/
def splitName (n : Name) : Name × Option Name :=
  let after := (n.reverse.takeWhile (· != dot)).reverse
  let before := (n.reverse.dropWhile (· != dot)).drop 1
  if before = [] then (n, none) else (before.reverse, some after)

/-- The file name less its extension; empty if there is no file name. -/
def stem (p : Path) : Name := (p.fileName?.map fun n => (splitName n).1).getD []

/-- What follows the last dot of the file name. -/
def extension? (p : Path) : Option Name := p.fileName?.bind fun n => (splitName n).2

end Path

end ScenePreview

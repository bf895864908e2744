import ScenePreview.FileTree.Basic
import ScenePreview.OsError

/-!
# Looking up paths

A path leads to an entry, to a free name in a directory, or nowhere. On the way symbolic links
are followed, up to a limit; the last one only where that is asked for.

## Main definitions

* `FileTree.Target`, `FileTree.walk` — where steps lead.
* `FileTree.resolve` — where a path leads.
* `FileTree.stat`, `FileTree.readFile`, `FileTree.readDir`, `FileTree.canonicalize` — what is
  there.
-/

namespace ScenePreview.FileTree

/-- The most symbolic links that one look-up follows. -/
def maxLinks : Nat := 40

/-- The most bytes of a name. -/
def maxName : Nat := 255

/-- The most bytes of a path. -/
def maxPath : Nat := 4095

/-- Where a path leads. -/
inductive Target where
  /-- To an entry. -/
  | entry (place : Place) (e : Entry)
  /-- To a free name in a directory. -/
  | vacant (dir : Place) (name : Name)
  deriving Repr, DecidableEq

/-- The steps of a path: its segments that are not empty, and an empty one for a slash at the
end, which asks for a directory. -/
def stepsOf (p : Path) : List Name :=
  let names := p.segments.filter (· ≠ [])
  if names ≠ [] ∧ p.bytes.getLast? = some Path.slash then names ++ [[]] else names

/-- Where steps lead from a directory. At most `links` symbolic links are followed; the last
one only if `follow` is set. -/
def walk (t : FileTree) (follow : Bool) (links : Nat) (dir : Place) (steps : List Name) :
    Except OsError Target :=
  match steps with
  | [] => .ok (.entry dir .directory)
  | n :: rest =>
    if n = [] ∨ n = Path.here then walk t follow links dir rest
    else if n = Path.up then walk t follow links dir.dropLast rest
    else if maxName < n.length then .error .nameTooLong
    else
      let place := dir ++ [n]
      match t.get? place with
      | none => if rest = [] ∨ rest = [[]] then .ok (.vacant dir n) else .error .notFound
      | some .directory => walk t follow links place rest
      | some (.file content executable) =>
        if rest = [] then .ok (.entry place (.file content executable)) else .error .notADirectory
      | some (.link target) =>
        if rest = [] ∧ !follow then .ok (.entry place (.link target))
        else match links with
          | 0 => .error .tooManyLinks
          | links + 1 =>
            walk t follow links (if target.isAbsolute then [] else dir) (stepsOf target ++ rest)
termination_by (links, steps.length)

/-- What a path with a zero byte is refused with. -/
def zeroByteError : IoError := .other "file name contained an unexpected NUL byte"

/-- Where a path leads from the current directory. -/
def resolve (t : FileTree) (cwd : Place) (follow : Bool) (p : Path) : Except IoError Target :=
  if p.bytes.contains 0 then .error zeroByteError
  else if p.bytes = [] then .error (.os .notFound)
  else if maxPath < p.bytes.length then .error (.os .nameTooLong)
  else
    match walk t follow maxLinks (if p.isAbsolute then [] else cwd) (stepsOf p) with
    | .ok target => .ok target
    | .error e => .error (.os e)

/-- The place and the entry that a path leads to, all links followed. -/
def stat (t : FileTree) (cwd : Place) (p : Path) : Except IoError (Place × Entry) := do
  match ← t.resolve cwd true p with
  | .entry place e => return (place, e)
  | .vacant .. => throw (.os .notFound)

/-- The place and the entry that a path leads to, a link at the end not followed. -/
def lstat (t : FileTree) (cwd : Place) (p : Path) : Except IoError (Place × Entry) := do
  match ← t.resolve cwd false p with
  | .entry place e => return (place, e)
  | .vacant .. => throw (.os .notFound)

/-- Whether a path leads to an entry. -/
def «exists» (t : FileTree) (cwd : Place) (p : Path) : Bool := (t.stat cwd p).isOk

/-- Whether a path leads to a file. -/
def isFile (t : FileTree) (cwd : Place) (p : Path) : Bool :=
  match t.stat cwd p with
  | .ok (_, .file ..) => true
  | _ => false

/-- Whether a path leads to a directory. -/
def isDir (t : FileTree) (cwd : Place) (p : Path) : Bool :=
  match t.stat cwd p with
  | .ok (_, .directory) => true
  | _ => false

/-- The content of a file. -/
def readFile (t : FileTree) (cwd : Place) (p : Path) : Except IoError (List UInt8) := do
  match ← t.stat cwd p with
  | (_, .file content _) => return content
  | _ => throw (.os .isADirectory)

/-- The names in a directory. -/
def readDir (t : FileTree) (cwd : Place) (p : Path) : Except IoError (List Name) := do
  match ← t.stat cwd p with
  | (place, .directory) => return t.children place
  | _ => throw (.os .notADirectory)

/-- The absolute path without links to what a path leads to. -/
def canonicalize (t : FileTree) (cwd : Place) (p : Path) : Except IoError Path := do
  return (← t.stat cwd p).1.toPath

end ScenePreview.FileTree

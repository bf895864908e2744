import ScenePreview.Host
import ScenePreview.Slice
import ScenePreview.Text.Quoted

/-!
# Working directories

Each run has a fresh directory of its own, named by a given beginning and a random end. If the
name is taken another end is tried.

## Main definitions

* `WorkDir.candidate` — the path with a given end.
* `WorkDir.create` — makes a working directory.
* `WorkDir.scenePath` — where the scene goes.
* `WorkDir.remove` — takes it away again.

## References

The reference's `WorkingDirectory`, with the retries of the library that it makes directories with.
-/

namespace ScenePreview.WorkDir

/-- How many names are tried. -/
def maxAttempts : Nat := 65536

/-- Where working directories are made. -/
def parentOf (h : Host) (root : Option Path) : Path := h.absolute (root.getD h.tempDir)

/-- The path of a working directory with a given end of its name. -/
def candidate (h : Host) (namePrefix : String) (root : Option Path) (suffix : String) : Path :=
  (parentOf h root).child (namePrefix ++ suffix)

/-- An error with the path that it is about. -/
def errorAt (e : IoError) (p : Path) : IoError :=
  .other (e.message ++ " at path " ++ Text.quoted p.bytes)

/-- Tries the ends of the name from the `n`-th on. -/
def createFrom (h : Host) (namePrefix : String) (root : Option Path) (suffixes : Nat → String) :
    Nat → Nat → Except IoError (Path × FileTree)
  | _, 0 => .error (errorAt (.other "too many temporary files exist") (parentOf h root))
  | n, attempts + 1 =>
    let p := candidate h namePrefix root (suffixes n)
    match h.tree.makeDir h.cwd p with
    | .ok t => .ok (p, t)
    | .error (.os .alreadyExists) => createFrom h namePrefix root suffixes (n + 1) attempts
    | .error e => .error (errorAt e p)

/-- Makes a working directory: its path and the tree with it. -/
def create (h : Host) (namePrefix : String) (root : Option Path) (suffixes : Nat → String) :
    Except IoError (Path × FileTree) :=
  createFrom h namePrefix root suffixes 0 maxAttempts

/-- Where the scene goes in a working directory. -/
def scenePath (dir : Path) : Path := dir.child Slice.sceneFile

/-- The host without a working directory. -/
def remove (h : Host) (dir : Path) : Host := { h with tree := h.tree.removeDirAll h.cwd dir }

end ScenePreview.WorkDir

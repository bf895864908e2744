import ScenePreview.FileTree.Lookup

/-!
# Changing a file tree

## Main definitions

* `FileTree.makeDir`, `FileTree.writeFile`, `FileTree.makeLink`, `FileTree.removeAll` — the
  changes one at a time.
* `FileTree.Edit` — a change as a value; it makes the directories that it needs.
-/

namespace ScenePreview.FileTree

/-- Makes a directory at a free name. -/
def makeDir (t : FileTree) (cwd : Place) (p : Path) : Except IoError FileTree := do
  match ← t.resolve cwd false p with
  | .vacant dir name => return t.insert (dir ++ [name]) .directory
  | .entry .. => throw (.os .alreadyExists)

/-- The paths that lead to `p` step by step, from the shortest. -/
def ancestors (p : Path) : List Path :=
  let names := p.segments.filter (· ≠ [])
  (List.range names.length).map fun n =>
    ⟨(if p.isAbsolute then [Path.slash] else [])
      ++ [Path.slash].intercalate (names.take (n + 1))⟩

/-- Makes a directory and those that lead to it, as far as they are missing. -/
def makeDirs (t : FileTree) (cwd : Place) (p : Path) : FileTree :=
  (ancestors p).foldl (fun t q => match t.makeDir cwd q with
    | .ok t' => t'
    | .error _ => t) t

/-- Writes a file, in the stead of one that is there. -/
def writeFile (t : FileTree) (cwd : Place) (p : Path) (content : List UInt8) :
    Except IoError FileTree := do
  match ← t.resolve cwd true p with
  | .vacant dir name => return t.insert (dir ++ [name]) (.file content false)
  | .entry place (.file _ executable) => return t.insert place (.file content executable)
  | .entry .. => throw (.os .isADirectory)

/-- Lets a file be run. -/
def makeExecutable (t : FileTree) (cwd : Place) (p : Path) : FileTree :=
  match t.stat cwd p with
  | .ok (place, .file content _) => t.insert place (.file content true)
  | _ => t

/-- Makes a symbolic link at a free name. -/
def makeLink (t : FileTree) (cwd : Place) (p target : Path) : Except IoError FileTree := do
  match ← t.resolve cwd false p with
  | .vacant dir name => return t.insert (dir ++ [name]) (.link target)
  | .entry .. => throw (.os .alreadyExists)

/-- Removes what is at a path, with all that is below it. A link is removed itself. -/
def removeAll (t : FileTree) (cwd : Place) (p : Path) : FileTree :=
  match t.lstat cwd p with
  | .ok (place, _) => t.erase place
  | .error _ => t

/-- Removes a directory with all that is below it. A link is removed itself; a file stays. -/
def removeDirAll (t : FileTree) (cwd : Place) (p : Path) : FileTree :=
  match t.lstat cwd p with
  | .ok (_, .file ..) => t
  | .ok (place, _) => t.erase place
  | .error _ => t

/-! ### Changes as values -/

/-- A change to a file tree. -/
inductive Edit where
  /-- A directory. -/
  | dir (path : Path)
  /-- A file with its content. -/
  | write (path : Path) (content : List UInt8)
  /-- A file that may be run. -/
  | program (path : Path) (content : List UInt8)
  /-- A symbolic link. -/
  | link (path target : Path)
  /-- Away with what is at a path. -/
  | remove (path : Path)
  deriving Repr, DecidableEq

/-- The directories that lead to a path, made as far as they are missing. -/
def makeParents (t : FileTree) (cwd : Place) (p : Path) : FileTree :=
  match p.parent? with
  | some q => t.makeDirs cwd q
  | none => t

/-- The tree, or the one after a change that is possible. -/
def orElse (t : FileTree) (r : Except IoError FileTree) : FileTree :=
  match r with
  | .ok t' => t'
  | .error _ => t

/-- The tree after a change; a change that is not possible is none. -/
def edit (t : FileTree) (cwd : Place) : Edit → FileTree
  | .dir p => t.makeDirs cwd p
  | .write p content =>
    let t := t.makeParents cwd p
    t.orElse (t.writeFile cwd p content)
  | .program p content =>
    let t := t.makeParents cwd p
    (t.orElse (t.writeFile cwd p content)).makeExecutable cwd p
  | .link p target =>
    let t := t.makeParents cwd p
    t.orElse (t.makeLink cwd p target)
  | .remove p => t.removeAll cwd p

/-- The tree after a list of changes. -/
def edits (t : FileTree) (cwd : Place) (es : List Edit) : FileTree :=
  es.foldl (fun t e => t.edit cwd e) t

end ScenePreview.FileTree

import ScenePreview.FileTree.Edit
import ScenePreview.FileTree.Lookup

/-!
# The host

The machine that runs take place on: its files, the current directory, the directory for
temporary files and the home of the user.
-/

namespace ScenePreview

/-- The machine that runs take place on. -/
structure Host where
  /-- The files. -/
  tree : FileTree := {}
  /-- The current directory. -/
  cwd : Place := []
  /-- The directory for temporary files. -/
  tempDir : Path := Path.ofString "/tmp"
  /-- The home directory that is on record for the user. -/
  home? : Option Path := none
  deriving Repr, DecidableEq

namespace Host

/-- The current directory as a path. -/
def cwdPath (h : Host) : Path := h.cwd.toPath

/-- A path made absolute by the current directory; its text is kept. -/
def absolute (h : Host) (p : Path) : Path := if p.isAbsolute then p else h.cwdPath.join p

/-- Whether a path leads to an entry. -/
def «exists» (h : Host) (p : Path) : Bool := h.tree.exists h.cwd p

/-- Whether a path leads to a file. -/
def isFile (h : Host) (p : Path) : Bool := h.tree.isFile h.cwd p

/-- The host after changes to its files. -/
def edits (h : Host) (es : List FileTree.Edit) : Host := { h with tree := h.tree.edits h.cwd es }

/-- Whether a path in the settings leads to no file. -/
def lacksFile (h : Host) (p : Path) : Bool := !h.isFile p

end Host

end ScenePreview

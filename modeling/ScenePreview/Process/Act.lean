import ScenePreview.FileTree.Basic
import ScenePreview.Process.Collector

/-!
# A process of simple acts

A process that does one simple thing after another: it writes given bytes, copies its standard
input in parts of a given size, or tells the directory that it runs in.
-/

namespace ScenePreview

/-- A simple thing to do. -/
inductive Act where
  /-- Write bytes. -/
  | write (channel : Channel) (bytes : List UInt8)
  /-- Copy what is left of standard input to standard output, so many bytes at a time. -/
  | copyInput (size : Nat)
  /-- Write the path of the directory. -/
  | showDirectory
  deriving Repr, DecidableEq

namespace Act

/-- What acts write in a directory, with so much standard input left. -/
def pieces (cwd : Place) (input : List UInt8) : List Act → List Piece
  | [] => []
  | .write channel bytes :: acts => ⟨channel, bytes⟩ :: pieces cwd input acts
  | .copyInput size :: acts =>
    (Read.slices (size - 1) input).map (⟨.stdout, ·⟩) ++ pieces cwd [] acts
  | .showDirectory :: acts => ⟨.stdout, cwd.toPath.bytes⟩ :: pieces cwd input acts

end Act

end ScenePreview

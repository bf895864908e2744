import ScenePreview.FileTree.Lookup

/-!
# Listings

Everything below a directory, in the order of bytes. A directory has a slash at its end;
links are not followed.
-/

namespace ScenePreview.FileTree

/-- A place below a directory as text, relative to it. -/
def relativeText (skip : Nat) (q : Place × Entry) : List UInt8 :=
  [Path.slash].intercalate (q.1.drop skip)
    ++ (if q.2 = .directory then [Path.slash] else [])

/-- Texts in the order of their bytes. -/
def sortBytes (ns : List (List UInt8)) : List (List UInt8) := ns.mergeSort (fun a b => a ≤ b)

/-- Everything below a place, relative to it. -/
def listing (t : FileTree) (p : Place) : List (List UInt8) :=
  sortBytes ((t.below p).map (relativeText p.length))

/-- Everything below the directory that a path leads to; nothing if it leads to none. -/
def listingAt (t : FileTree) (cwd : Place) (p : Path) : List (List UInt8) :=
  match t.stat cwd p with
  | .ok (place, .directory) => t.listing place
  | _ => []

end ScenePreview.FileTree

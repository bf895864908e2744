import ScenePreview.Artifact
import ScenePreview.Failure
import ScenePreview.FileTree.Listing
import ScenePreview.Host
import ScenePreview.Warning

/-!
# Finding the video

One video is expected in the directory that the renderer writes to. Of several the first by
name is taken, with a warning.

## Main definitions

* `Artifact.isVideoName` — which names count.
* `Artifact.candidates` — the videos of a directory.
* `Artifact.find` — the video of a directory.

## References

The reference's `find_artifact` and `ARTIFACT_PATTERN`.
-/

namespace ScenePreview.Artifact

/-- What the names of videos end in. -/
def videoEnding : Name := Text.Utf8.encode ".mp4"

/-- The pattern that the names of videos match. -/
def pattern : String := "*.mp4"

/-- Whether a name is the text of a video's name. -/
def isVideoName (n : Name) : Bool := (Text.Utf8.decode? n).isSome && videoEnding.isSuffixOf n

/-- The names of the videos of a directory: files, or links to files. -/
def candidates (h : Host) (dir : Path) (names : List Name) : List Name :=
  names.filter fun n => h.isFile (dir.join ⟨n⟩) && isVideoName n

/-- The names of the videos in order. -/
def sorted (names : List Name) : List Name := FileTree.sortBytes names

/-- The first video by name, with a warning if there are others. -/
def choose (dir : Path) (names : List Name) : Except String Artifact × List Warning :=
  match sorted names with
  | [] => (.error ("no file matching " ++ pattern), [])
  | [n] => (.ok ⟨dir.join ⟨n⟩⟩, [])
  | n :: ns =>
    let chosen := dir.join ⟨n⟩
    (.ok ⟨chosen⟩, [.severalVideos (ns.length + 1) chosen])

/-- The video of a directory, or why there is none. -/
def search (h : Host) (dir : Path) : Except String Artifact × List Warning :=
  match h.tree.readDir h.cwd dir with
  | .error e => (.error ("cannot read directory: " ++ e.message), [])
  | .ok names => choose dir (candidates h dir names)

/-- The video of a directory, or the failure of the renderer that left the diagnostic text. -/
def find (h : Host) (dir : Path) (stderr : String) : Except Failure Artifact × List Warning :=
  match search h dir with
  | (.ok a, ws) => (.ok a, ws)
  | (.error reason, ws) => (.error (.artifactNotFound dir reason stderr), ws)

end ScenePreview.Artifact

import ScenePreview.Process.Collector
import ScenePreview.Process.Runner
import ScenePreview.Shell.Run
import ScenePreview.Variables

/-!
# Launching processes

A program is found, started in its directory with its standard input, and its output is
collected as it arrives.

## Main definitions

* `Host.enter` — the directory that a process starts in.
* `Host.launch` — a process from its start to its end.
* `Host.runProcess` — the runner that launches processes and collects their output.

## References

The reference's `TokioProcessRunner`, with the system that it spawns its child on.
-/

namespace ScenePreview

/-- What is said of text with a zero byte, which no process can be given. -/
def zeroByteInCall : IoError := .other "nul byte found in provided data"

namespace Host

/-- The directory that a process starts in. -/
def enter (h : Host) (dir : Option Path) : Except IoError Place :=
  match dir with
  | none => .ok h.cwd
  | some p => do
    match ← h.tree.stat h.cwd p with
    | (place, .directory) => return place
    | _ => throw (.os .notADirectory)

/-- Whether a call has a zero byte in a text of it. -/
def hasZeroByte (c : Call) : Bool :=
  c.invocation.argv.any (·.toList.contains (Char.ofNat 0))
    || (c.cwd.any fun p => p.bytes.contains 0)

/-- The variables as a process gets them. -/
def processVars (vs : Variables) : List Shell.Var :=
  vs.foldl (fun acc v =>
    acc.filter (·.name != Shell.field v.1) ++ [⟨Shell.field v.1, Shell.field v.2, true⟩]) []

/-- What a process writes and how it ends, and the host after it, or why it cannot be
started. -/
def launch (h : Host) (vs : Variables) (c : Call) :
    Except IoError (List Piece × ExitStatus × Host) := do
  if hasZeroByte c then throw zeroByteInCall
  let cwd ← h.enter c.cwd
  let context : Shell.Context := {
    tree := h.tree
    cwd
    vars := processVars vs
    input := Text.Utf8.encode (c.input.getD "") }
  let (tool, argv) ← Program.find h.tree cwd context.searchPath
    (c.invocation.argv.map Shell.field)
  let (status, context) := Shell.runTool Shell.maxDepth tool argv context
  return (context.written.reverse, status, { h with tree := context.tree })

/-- Runs a process: what it writes as it arrives, how it ends, and the host after it. -/
def runProcess (vs : Variables) : Runner := fun h c =>
  match h.launch vs c with
  | .error e => { result := .error (.launch c.invocation.display e), host := h }
  | .ok (pieces, status, host) =>
    let (chunks, capture) := ({} : Capture).collect (Read.ofPieces pieces)
    { chunks, result := .ok (capture.result status), host }

end Host

end ScenePreview

/-!
# Output of processes

What a process writes, in the order of its writing, and how it ends.

## Main definitions

* `Channel`, `Chunk` — the two streams of a process, and a piece of text from one of them.
* `Piece` — bytes that a process writes at once.
* `ExitStatus` — how a process ends.

## References

`Chunk` is the reference's `OutputChunk`.
-/

namespace ScenePreview

/-- The two streams that a process writes to. -/
inductive Channel where
  /-- Standard output. -/
  | stdout
  /-- Standard error. -/
  | stderr
  deriving Repr, DecidableEq

/-- A piece of text from a process. -/
structure Chunk where
  /-- Where it was written to. -/
  channel : Channel
  /-- The text. -/
  text : String
  deriving Repr, DecidableEq

/-- All text of one stream. -/
def Chunk.textOf (channel : Channel) (cs : List Chunk) : String :=
  String.join ((cs.filter (·.channel = channel)).map Chunk.text)

/-- Bytes that a process writes at once. -/
structure Piece where
  /-- Where they are written to. -/
  channel : Channel
  /-- The bytes. -/
  bytes : List UInt8
  deriving Repr, DecidableEq

/-- How a process ends. -/
inductive ExitStatus where
  /-- By itself, with a code. -/
  | exited (code : Nat)
  /-- By a signal. -/
  | killed (signal : Nat)
  deriving Repr, DecidableEq

/-- The exit code that is reported; a process that a signal ended has none of its own. -/
def ExitStatus.code : ExitStatus → Int
  | .exited n => n
  | .killed _ => -1

end ScenePreview

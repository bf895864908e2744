import ScenePreview.Failure
import ScenePreview.Process.Output

/-!
# Collecting output

The two streams of a process are read side by side. Each read is decoded on its own stream as
it arrives, and what it completes is passed on at once; a character that a read cuts in two is
held back until its stream gives the rest of it. A read without bytes is the end of a stream.

## Main definitions

* `Collector`, `Collector.read` — one stream.
* `Read`, `Read.ofPieces` — a read, and the reads that what a process writes arrives in.
* `Capture`, `Capture.collect` — both streams, and the chunks that a list of reads gives.

## References

The reference's `StreamCollector`, and the loop of `TokioProcessRunner` that reads both streams.
-/

namespace ScenePreview

/-! ### One stream -/

/-- What was read of one stream. -/
structure Collector where
  /-- The reader of its text. -/
  decoder : Text.Utf8.Decoder := {}
  /-- The text so far. -/
  collected : String := ""
  /-- Whether the end has not been read. -/
  isOpen : Bool := true
  deriving Repr, DecidableEq

namespace Collector

/-- The text that a read completes, if any, and the stream after it. -/
def read (c : Collector) (bytes : List UInt8) : Option String × Collector :=
  let (text, decoder) := if bytes = [] then c.decoder.finish else c.decoder.decode bytes
  (if text = "" then none else some text,
    { decoder, collected := c.collected ++ text, isOpen := c.isOpen && bytes ≠ [] })

end Collector

/-! ### Reads -/

/-- One read from a stream; one without bytes is the end of the stream. -/
structure Read where
  /-- The stream. -/
  channel : Channel
  /-- What was read. -/
  bytes : List UInt8
  deriving Repr, DecidableEq

namespace Read

/-- The most bytes of one read. -/
def maxBytes : Nat := 8192

/-- A list in parts of `size + 1` elements, the last of which may be shorter. -/
def slices {α : Type} (size : Nat) (xs : List α) : List (List α) :=
  match xs with
  | [] => []
  | x :: rest => (x :: rest.take size) :: slices size (rest.drop size)
termination_by xs.length
decreasing_by simp only [List.length_drop, List.length_cons]; omega

/-- Nothing is lost between the parts. -/
theorem flatten_slices {α : Type} (size : Nat) (xs : List α) : (slices size xs).flatten = xs := by
  fun_induction slices size xs with
  | case1 => rfl
  | case2 x rest ih => rw [List.flatten_cons, ih, List.cons_append, List.take_append_drop]

/-- No part is empty, and none is longer than allowed. -/
theorem length_of_mem_slices {α : Type} {size : Nat} {xs ys : List α} (h : ys ∈ slices size xs) :
    ys ≠ [] ∧ ys.length ≤ size + 1 := by
  fun_induction slices size xs with
  | case1 => simp at h
  | case2 x rest ih =>
    rcases List.mem_cons.1 h with rfl | h
    · exact ⟨List.cons_ne_nil _ _, by rw [List.length_cons, List.length_take]; omega⟩
    · exact ih h

/-- The reads that take what was written at once. -/
def ofPiece (p : Piece) : List Read := (slices (maxBytes - 1) p.bytes).map fun bs => ⟨p.channel, bs⟩

/-- The ends of both streams. -/
def ends : List Read := [⟨.stdout, []⟩, ⟨.stderr, []⟩]

/-- The reads of a process that waits until each of its pieces has been read. -/
def ofPieces (ps : List Piece) : List Read := ps.flatMap ofPiece ++ ends

end Read

/-! ### Both streams -/

/-- What was read of a process. -/
structure Capture where
  /-- Standard output. -/
  out : Collector := {}
  /-- Standard error. -/
  err : Collector := {}
  deriving Repr, DecidableEq

namespace Capture

/-- One of the streams. -/
def get (c : Capture) : Channel → Collector
  | .stdout => c.out
  | .stderr => c.err

/-- The streams with one of them changed. -/
def set (c : Capture) (channel : Channel) (s : Collector) : Capture :=
  match channel with
  | .stdout => { c with out := s }
  | .stderr => { c with err := s }

@[simp] theorem get_set_self (c : Capture) (ch : Channel) (s : Collector) :
    (c.set ch s).get ch = s := by
  cases ch <;> rfl

@[simp] theorem get_set_of_ne (c : Capture) {ch ch' : Channel} (s : Collector) (h : ch' ≠ ch) :
    (c.set ch s).get ch' = c.get ch' := by
  cases ch <;> cases ch'
  · exact absurd rfl h
  · rfl
  · rfl
  · exact absurd rfl h

/-- Whether both streams have ended. -/
def isDone (c : Capture) : Bool := !c.out.isOpen && !c.err.isOpen

/-- The chunk that a read completes, if any, and the streams after it. Nothing is read from a
stream that has ended. -/
def take (c : Capture) (r : Read) : Option Chunk × Capture :=
  let s := c.get r.channel
  if s.isOpen then
    let (text, s) := s.read r.bytes
    (text.map (⟨r.channel, ·⟩), c.set r.channel s)
  else (none, c)

/-- The chunks that a list of reads completes, and the streams after it. -/
def collect (c : Capture) : List Read → List Chunk × Capture
  | [] => ([], c)
  | r :: rs =>
    let (chunk, c) := c.take r
    let (chunks, c) := c.collect rs
    (chunk.toList ++ chunks, c)

/-- What a process leaves that ended with a status. -/
def result (c : Capture) (status : ExitStatus) : ProcessResult :=
  { exitCode := status.code, stdout := c.out.collected, stderr := c.err.collected }

end Capture

end ScenePreview

import ScenePreview.Process.Launch
import ScenePreview.Proofs.Collector

/-!
# Reading two streams side by side

While a process runs its two streams are read in a loop.  Each turn of the loop takes the next
read of a stream that is still open, and which one that is nobody can foresee.  Here the loop is
a relation that allows every order.  A stream sees none of the reads of the other one, so all
that it gives is what it would give if it was read alone.

## Main definitions

* `Read.ofChannel` — the reads of one stream among those of both.
* `Capture.Loop`, `Capture.Loop.Turn`, `Capture.Loop.Turns` — the loop, one turn of it, and any
  number of turns.
* `Capture.Loop.Tracks` — what the loop has taken, what it has made of it, and what is to come.

## Main results

* `Capture.Loop.Turn.tracks`, `Capture.Loop.Turns.tracks` — the invariant of the loop.
* `Capture.Loop.turns_iff` — the loop can take the reads in every order that keeps the order of
  each stream.
* `Capture.Loop.turns_streams` — **the loop ends with both streams, and the order of the reads
  does not matter.**
* `Host.runProcess_of_launch` — the result of a process is made of the bytes that it wrote.
-/

namespace ScenePreview

open Text.Utf8

/-! ### The reads of one stream -/

namespace Read

/-- The reads of one stream among those of both. -/
def ofChannel (ch : Channel) (rs : List Read) : List (List UInt8) :=
  (rs.filter (·.channel = ch)).map Read.bytes

@[simp] theorem ofChannel_nil (ch : Channel) : ofChannel ch [] = [] := rfl

@[simp] theorem ofChannel_append (ch : Channel) (rs rs' : List Read) :
    ofChannel ch (rs ++ rs') = ofChannel ch rs ++ ofChannel ch rs' := by
  rw [ofChannel, List.filter_append, List.map_append]
  rfl

@[simp] theorem ofChannel_cons_self (ch : Channel) (bytes : List UInt8) (rs : List Read) :
    ofChannel ch (⟨ch, bytes⟩ :: rs) = bytes :: ofChannel ch rs := by
  simp [ofChannel]

theorem ofChannel_cons_of_ne {ch ch' : Channel} (h : ch' ≠ ch) (bytes : List UInt8)
    (rs : List Read) : ofChannel ch (⟨ch', bytes⟩ :: rs) = ofChannel ch rs := by
  simp [ofChannel, h]

theorem mem_ofChannel {ch : Channel} {bytes : List UInt8} {rs : List Read} :
    bytes ∈ ofChannel ch rs ↔ ⟨ch, bytes⟩ ∈ rs := by
  simp only [ofChannel, List.mem_map, List.mem_filter, decide_eq_true_eq]
  constructor
  · rintro ⟨⟨ch', bytes'⟩, ⟨hmem, rfl⟩, rfl⟩
    exact hmem
  · intro hmem
    exact ⟨_, ⟨hmem, rfl⟩, rfl⟩

theorem length_eq_add_ofChannel (rs : List Read) :
    rs.length = (ofChannel .stdout rs).length + (ofChannel .stderr rs).length := by
  induction rs with
  | nil => rfl
  | cons r rs ih =>
    obtain ⟨ch, bytes⟩ := r
    cases ch with
    | stdout =>
      rw [ofChannel_cons_self, ofChannel_cons_of_ne (by decide), List.length_cons,
        List.length_cons, ih]
      omega
    | stderr =>
      rw [ofChannel_cons_self, ofChannel_cons_of_ne (by decide), List.length_cons,
        List.length_cons, ih]
      omega

end Read

/-! ### One stream -/

namespace Collector

/-- A text that is passed on is never empty. -/
theorem ne_empty_of_read {c : Collector} {r : List UInt8} {text : String}
    (h : text ∈ (c.read r).1.toList) : text ≠ "" := by
  rw [read] at h
  generalize (if r = [] then c.decoder.finish else c.decoder.decode r) = next at h
  by_cases hnext : next.1 = ""
  · simp [hnext] at h
  · simp only [hnext, if_false, Option.toList_some, List.mem_singleton] at h
    rwa [h]

theorem ne_empty_of_mem_readAll {c : Collector} {rs : List (List UInt8)} {text : String}
    (h : text ∈ (c.readAll rs).1) : text ≠ "" := by
  induction rs generalizing c with
  | nil => cases h
  | cons r rs ih =>
    rw [readAll_cons, List.mem_append] at h
    rcases h with h | h
    · exact ne_empty_of_read h
    · exact ih h

@[simp] theorem isOpen_read (c : Collector) (r : List UInt8) :
    (c.read r).2.isOpen = (c.isOpen && decide (r ≠ [])) := rfl

/-- A stream is open until its end has been read. -/
theorem isOpen_readAll (c : Collector) (rs : List (List UInt8)) :
    (c.readAll rs).2.isOpen = true ↔ c.isOpen = true ∧ [] ∉ rs := by
  induction rs generalizing c with
  | nil => simp
  | cons r rs ih =>
    rw [readAll_cons, ih, isOpen_read, Bool.and_eq_true, decide_eq_true_eq, List.mem_cons,
      not_or, and_assoc, ne_comm]

end Collector

/-! ### Both streams -/

namespace Capture

/-- A read from a stream that is open. -/
theorem take_of_isOpen {c : Capture} {ch : Channel} (h : (c.get ch).isOpen = true)
    (bytes : List UInt8) :
    c.take ⟨ch, bytes⟩ = (((c.get ch).read bytes).1.map (⟨ch, ·⟩),
      c.set ch ((c.get ch).read bytes).2) := by
  rw [take, if_pos h]

theorem collect_append (c : Capture) (rs rs' : List Read) :
    c.collect (rs ++ rs') =
      ((c.collect rs).1 ++ ((c.collect rs).2.collect rs').1,
        ((c.collect rs).2.collect rs').2) := by
  induction rs generalizing c with
  | nil => rfl
  | cons r rs ih => simp [collect, ih]

theorem collect_append_singleton (c : Capture) (rs : List Read) (r : Read) :
    c.collect (rs ++ [r]) =
      ((c.collect rs).1 ++ ((c.collect rs).2.take r).1.toList, ((c.collect rs).2.take r).2) := by
  rw [collect_append]
  simp [collect]

/-- The chunks of one stream, in order. -/
def chunksOf (ch : Channel) (cs : List Chunk) : List Chunk := cs.filter (·.channel = ch)

@[simp] theorem chunksOf_append (ch : Channel) (cs cs' : List Chunk) :
    chunksOf ch (cs ++ cs') = chunksOf ch cs ++ chunksOf ch cs' := List.filter_append ..

@[simp] theorem chunksOf_map_self (ch : Channel) (texts : List String) :
    chunksOf ch (texts.map (⟨ch, ·⟩)) = texts.map (⟨ch, ·⟩) := by
  simp [chunksOf]

theorem chunksOf_map_of_ne {ch ch' : Channel} (h : ch' ≠ ch) (texts : List String) :
    chunksOf ch (texts.map (⟨ch', ·⟩)) = [] := by
  simp [chunksOf, h]

theorem isDone_iff (c : Capture) : c.isDone = true ↔ ∀ ch, (c.get ch).isOpen = false := by
  constructor
  · intro h ch
    rw [isDone, Bool.and_eq_true, Bool.not_eq_true', Bool.not_eq_true'] at h
    cases ch with
    | stdout => exact h.1
    | stderr => exact h.2
  · intro h
    have hout : c.out.isOpen = false := h .stdout
    have herr : c.err.isOpen = false := h .stderr
    rw [isDone, hout, herr]
    rfl

/-! ### The loop -/

/-- A loop that reads both streams: what it has read, and what each stream still gives. -/
structure Loop where
  /-- What was read. -/
  capture : Capture := {}
  /-- The reads that are still to come, by stream. -/
  coming : Channel → List (List UInt8)

namespace Loop

/-- The loop before its first turn, on streams that arrive in the given reads and then end. -/
def start (cut : Channel → List (List UInt8)) : Loop := { coming := fun ch => cut ch ++ [[]] }

/-- The loop after the next read of a stream. -/
def next (l : Loop) (ch : Channel) (bytes : List UInt8) (rest : List (List UInt8)) : Loop :=
  { capture := (l.capture.take ⟨ch, bytes⟩).2
    coming := fun ch' => if ch' = ch then rest else l.coming ch' }

@[simp] theorem coming_next_self (l : Loop) (ch : Channel) (bytes : List UInt8)
    (rest : List (List UInt8)) : (l.next ch bytes rest).coming ch = rest := if_pos rfl

theorem coming_next_of_ne (l : Loop) {ch ch' : Channel} (h : ch' ≠ ch) (bytes : List UInt8)
    (rest : List (List UInt8)) : (l.next ch bytes rest).coming ch' = l.coming ch' := if_neg h

/-- One turn of the loop: any stream that is open gives its next read. -/
inductive Turn (l : Loop) : Read → Loop → Prop
  | take {ch : Channel} {bytes : List UInt8} {rest : List (List UInt8)}
      (hopen : (l.capture.get ch).isOpen = true) (hnext : l.coming ch = bytes :: rest) :
      Turn l ⟨ch, bytes⟩ (l.next ch bytes rest)

/-- Any number of turns, with the reads that they took, oldest first. -/
inductive Turns (l₀ : Loop) : List Read → Loop → Prop
  | refl : Turns l₀ [] l₀
  | turn {taken : List Read} {r : Read} {l l' : Loop} (hturns : Turns l₀ taken l)
      (hturn : Turn l r l') : Turns l₀ (taken ++ [r]) l'

/-- The loop has taken certain reads of streams that arrive in given reads. -/
structure Tracks (cut : Channel → List (List UInt8)) (taken : List Read) (l : Loop) : Prop where
  /-- What was read is what the reads give one after another. -/
  capture : (({} : Capture).collect taken).2 = l.capture
  /-- Each stream is where its own reads lead. -/
  stream : ∀ ch, l.capture.get ch = (({} : Collector).readAll (Read.ofChannel ch taken)).2
  /-- The chunks of each stream are what its own reads complete. -/
  chunks : ∀ ch, chunksOf ch (({} : Capture).collect taken).1 =
    (({} : Collector).readAll (Read.ofChannel ch taken)).1.map (⟨ch, ·⟩)
  /-- No read is lost. -/
  rest : ∀ ch, Read.ofChannel ch taken ++ l.coming ch = cut ch ++ [[]]

theorem tracks_start (cut : Channel → List (List UInt8)) : Tracks cut [] (start cut) where
  capture := rfl
  stream ch := by cases ch <;> rfl
  chunks ch := rfl
  rest ch := rfl

variable {cut : Channel → List (List UInt8)} {taken : List Read} {l l' : Loop} {r : Read}

/-- What one turn keeps. -/
theorem Turn.tracks (hturn : Turn l r l') (h : Tracks cut taken l) :
    Tracks cut (taken ++ [r]) l' := by
  cases hturn with
  | @take ch bytes rest hopen hnext =>
    have htake := take_of_isOpen hopen bytes
    have hcollect := collect_append_singleton {} taken ⟨ch, bytes⟩
    rw [h.capture, htake] at hcollect
    -- one read more for this stream, and nothing new for the other one
    have hread :
        Read.ofChannel ch (taken ++ [⟨ch, bytes⟩]) = Read.ofChannel ch taken ++ [bytes] := by
      rw [Read.ofChannel_append, Read.ofChannel_cons_self, Read.ofChannel_nil]
    have hother {ch' : Channel} (hne : ch' ≠ ch) :
        Read.ofChannel ch' (taken ++ [⟨ch, bytes⟩]) = Read.ofChannel ch' taken := by
      rw [Read.ofChannel_append, Read.ofChannel_cons_of_ne hne.symm, Read.ofChannel_nil,
        List.append_nil]
    constructor
    · rw [hcollect, next, htake]
    · intro ch'
      rw [next, htake]
      by_cases hne : ch' = ch
      · subst hne
        rw [get_set_self, hread, Collector.readAll_append, h.stream]
        rfl
      · rw [get_set_of_ne _ _ hne, hother hne, h.stream]
    · intro ch'
      rw [hcollect, chunksOf_append, h.chunks, Option.toList_map]
      by_cases hne : ch' = ch
      · subst hne
        rw [chunksOf_map_self, hread, Collector.readAll_append, List.map_append, h.stream,
          Collector.readAll_cons, Collector.readAll_nil, List.append_nil]
      · rw [chunksOf_map_of_ne (Ne.symm hne), hother hne, List.append_nil]
    · intro ch'
      by_cases hne : ch' = ch
      · subst hne
        rw [hread, coming_next_self, List.append_assoc, List.singleton_append, ← hnext, h.rest]
      · rw [hother hne, coming_next_of_ne _ hne, h.rest]

/-- What any number of turns keeps. -/
theorem Turns.tracks (hturns : Turns (start cut) taken l) : Tracks cut taken l := by
  induction hturns with
  | refl => exact tracks_start cut
  | turn _ hturn ih => exact hturn.tracks ih

/-! ### The end of the loop -/

namespace Tracks

/-- A stream gives nothing more exactly when its end was taken. -/
theorem coming_eq_nil_iff (h : Tracks cut taken l) (hne : ∀ ch, ∀ r ∈ cut ch, r ≠ [])
    (ch : Channel) : l.coming ch = [] ↔ [] ∈ Read.ofChannel ch taken := by
  have hrest := h.rest ch
  constructor
  · intro hnil
    rw [hnil, List.append_nil] at hrest
    rw [hrest]
    exact List.mem_append_right _ List.mem_cons_self
  · intro hmem
    rcases List.eq_nil_or_concat (l.coming ch) with hnil | ⟨before, last, hlast⟩
    · exact hnil
    · -- the end would be among the reads before the last one
      rw [hlast, List.concat_eq_append, ← List.append_assoc] at hrest
      obtain ⟨hcut, -⟩ := List.append_singleton_inj.1 hrest
      have hin : [] ∈ cut ch := by
        rw [← hcut]
        exact List.mem_append_left _ hmem
      exact absurd rfl (hne ch [] hin)

theorem isOpen_iff (h : Tracks cut taken l) (ch : Channel) :
    (l.capture.get ch).isOpen = true ↔ [] ∉ Read.ofChannel ch taken := by
  rw [h.stream, Collector.isOpen_readAll]
  exact and_iff_right rfl

theorem isDone_iff (h : Tracks cut taken l) :
    l.capture.isDone = true ↔ ∀ ch, ⟨ch, []⟩ ∈ taken := by
  rw [Capture.isDone_iff]
  refine forall_congr' fun ch => ?_
  rw [← Bool.not_eq_true, h.isOpen_iff, not_not, Read.mem_ofChannel]

/-- The loop goes on as long as a stream is open, and stops when both have ended. -/
theorem exists_turn_iff (h : Tracks cut taken l) (hne : ∀ ch, ∀ r ∈ cut ch, r ≠ []) :
    (∃ r l', Turn l r l') ↔ l.capture.isDone = false := by
  rw [← Bool.not_eq_true, Capture.isDone_iff]
  constructor
  · rintro ⟨r, l', ⟨hopen, -⟩⟩ hdone
    rw [hdone] at hopen
    cases hopen
  · intro hdone
    obtain ⟨ch, hch⟩ := not_forall.1 hdone
    rw [Bool.not_eq_false] at hch
    have hcoming : l.coming ch ≠ [] := by
      rw [ne_eq, h.coming_eq_nil_iff hne]
      exact (h.isOpen_iff ch).1 hch
    obtain ⟨bytes, rest, hnext⟩ := List.exists_cons_of_ne_nil hcoming
    exact ⟨_, _, .take hch hnext⟩

/-- A stream that has ended was read as a whole. -/
theorem ofChannel_of_isDone (h : Tracks cut taken l) (hne : ∀ ch, ∀ r ∈ cut ch, r ≠ [])
    (hdone : l.capture.isDone = true) (ch : Channel) :
    Read.ofChannel ch taken = cut ch ++ [[]] := by
  have hend := Read.mem_ofChannel.2 (h.isDone_iff.1 hdone ch)
  have hrest := h.rest ch
  rwa [(h.coming_eq_nil_iff hne ch).2 hend, List.append_nil] at hrest

/-- How many turns there can be. -/
theorem length_add (h : Tracks cut taken l) :
    taken.length + (l.coming .stdout).length + (l.coming .stderr).length =
      (cut .stdout).length + (cut .stderr).length + 2 := by
  have hout := congrArg List.length (h.rest .stdout)
  have herr := congrArg List.length (h.rest .stderr)
  simp only [List.length_append, List.length_cons, List.length_nil] at hout herr
  have htaken := Read.length_eq_add_ofChannel taken
  omega

theorem ne_empty (h : Tracks cut taken l) {c : Chunk}
    (hc : c ∈ (({} : Capture).collect taken).1) : c.text ≠ "" := by
  have hmem : c ∈ chunksOf c.channel (({} : Capture).collect taken).1 := by
    rw [chunksOf, List.mem_filter, decide_eq_true_eq]
    exact ⟨hc, rfl⟩
  rw [h.chunks, List.mem_map] at hmem
  obtain ⟨text, htext, heq⟩ := hmem
  rw [← heq]
  exact Collector.ne_empty_of_mem_readAll htext

end Tracks

/-- The end of a stream is the last that is read of it. -/
theorem Turns.eq_of_end (hturns : Turns (start cut) taken l) {ch : Channel}
    {before after : List Read} (htaken : taken = before ++ ⟨ch, []⟩ :: after) :
    ∀ r ∈ after, r.channel ≠ ch := by
  induction hturns generalizing after with
  | refl => simp at htaken
  | @turn taken r l l' hturns hturn ih =>
    rcases List.eq_nil_or_concat after with rfl | ⟨after', last, rfl⟩
    · intro r' hr'
      cases hr'
    · rw [List.concat_eq_append, ← List.cons_append, ← List.append_assoc] at htaken
      obtain ⟨rfl, rfl⟩ := List.append_singleton_inj.1 htaken
      intro r' hr'
      rw [List.concat_eq_append, List.mem_append, List.mem_singleton] at hr'
      rcases hr' with hr' | rfl
      · exact ih rfl r' hr'
      · -- the stream of the last read was open
        rintro rfl
        cases hturn with
        | take hopen _ =>
          have hnot := (hturns.tracks.isOpen_iff _).1 hopen
          refine hnot (Read.mem_ofChannel.2 ?_)
          simp

/-! ### Every order is possible -/

/-- The loop can begin with any reads that keep the order of each stream. -/
theorem Turns.exists_of_prefix (hne : ∀ ch, ∀ r ∈ cut ch, r ≠ []) {rest : List Read}
    (horder : ∀ ch, Read.ofChannel ch (taken ++ rest) = cut ch ++ [[]]) :
    ∃ l, Turns (start cut) taken l := by
  induction taken using List.reverseRecOn generalizing rest with
  | nil => exact ⟨_, .refl⟩
  | append_singleton taken r ih =>
    rw [List.append_assoc] at horder
    obtain ⟨l, hturns⟩ := ih horder
    have h := hturns.tracks
    obtain ⟨ch, bytes⟩ := r
    -- the read is the next one of its stream, which has therefore not ended
    have hnext : l.coming ch = bytes :: Read.ofChannel ch rest := by
      have hch := horder ch
      rw [Read.ofChannel_append, ← h.rest ch, List.append_cancel_left_eq, List.singleton_append,
        Read.ofChannel_cons_self] at hch
      exact hch.symm
    have hopen : (l.capture.get ch).isOpen = true := by
      rw [h.isOpen_iff, ← h.coming_eq_nil_iff hne, hnext]
      exact List.cons_ne_nil _ _
    exact ⟨_, hturns.turn (.take hopen hnext)⟩

/-- The loop can take the reads in every order that keeps the order of each stream, and in no
other. -/
theorem turns_iff (hne : ∀ ch, ∀ r ∈ cut ch, r ≠ []) :
    (∃ l, Turns (start cut) taken l ∧ l.capture.isDone = true) ↔
      ∀ ch, Read.ofChannel ch taken = cut ch ++ [[]] := by
  constructor
  · rintro ⟨l, hturns, hdone⟩
    exact hturns.tracks.ofChannel_of_isDone hne hdone
  · intro horder
    have horder' : ∀ ch, Read.ofChannel ch (taken ++ []) = cut ch ++ [[]] := by
      rwa [List.append_nil]
    obtain ⟨l, hturns⟩ := Turns.exists_of_prefix hne horder'
    refine ⟨l, hturns, hturns.tracks.isDone_iff.2 fun ch => ?_⟩
    rw [← Read.mem_ofChannel, horder]
    exact List.mem_append_right _ List.mem_cons_self

/-! ### What the loop makes of the streams -/

namespace Tracks

variable {bytes : Channel → List UInt8}

theorem chunks_of_isDone (h : Tracks cut taken l) (hne : ∀ ch, ∀ r ∈ cut ch, r ≠ [])
    (hdone : l.capture.isDone = true) (ch : Channel) :
    chunksOf ch (({} : Capture).collect taken).1 =
      (Collector.readToEnd (cut ch)).1.map (⟨ch, ·⟩) := by
  rw [h.chunks, h.ofChannel_of_isDone hne hdone]
  rfl

theorem collected_of_isDone (h : Tracks cut taken l) (hne : ∀ ch, ∀ r ∈ cut ch, r ≠ [])
    (hcut : ∀ ch, (cut ch).flatten = bytes ch) (hdone : l.capture.isDone = true) (ch : Channel) :
    (l.capture.get ch).collected = lossy (bytes ch) := by
  rw [h.stream, h.ofChannel_of_isDone hne hdone]
  exact Collector.collected_readToEnd (hcut ch) (hne ch)

theorem textOf_of_isDone (h : Tracks cut taken l) (hne : ∀ ch, ∀ r ∈ cut ch, r ≠ [])
    (hcut : ∀ ch, (cut ch).flatten = bytes ch) (hdone : l.capture.isDone = true) (ch : Channel) :
    Chunk.textOf ch (({} : Capture).collect taken).1 = lossy (bytes ch) := by
  have htexts : (chunksOf ch (({} : Capture).collect taken).1).map Chunk.text =
      (Collector.readToEnd (cut ch)).1 := by
    rw [h.chunks_of_isDone hne hdone, List.map_map]
    exact List.map_id' _
  rw [Chunk.textOf, ← chunksOf, htexts]
  exact Collector.join_readToEnd (hcut ch) (hne ch)

theorem result_of_isDone (h : Tracks cut taken l) (hne : ∀ ch, ∀ r ∈ cut ch, r ≠ [])
    (hcut : ∀ ch, (cut ch).flatten = bytes ch) (hdone : l.capture.isDone = true)
    (status : ExitStatus) :
    l.capture.result status =
      { exitCode := status.code, stdout := lossy (bytes .stdout),
        stderr := lossy (bytes .stderr) } := by
  have hout : l.capture.out.collected = _ := h.collected_of_isDone hne hcut hdone .stdout
  have herr : l.capture.err.collected = _ := h.collected_of_isDone hne hcut hdone .stderr
  rw [result, hout, herr]

end Tracks

/-- **The loop ends with both streams, and the order of the reads does not matter.**  Two
streams arrive in reads that are cut anywhere, and each of them ends.  In whatever order the
loop takes the reads, it can go on as long as the end of a stream is missing, it stops when
both were taken, and it takes no more reads than there are.  Nothing is read from a stream
after its end, and no chunk is empty.  At the end the chunks of each stream make up what the
result holds of it, which is the lenient reading of all its bytes: the result depends on the
bytes alone.  The chunks of a stream depend on its own reads alone. -/
theorem turns_streams {bytes : Channel → List UInt8} (hcut : ∀ ch, (cut ch).flatten = bytes ch)
    (hne : ∀ ch, ∀ r ∈ cut ch, r ≠ []) (hturns : Turns (start cut) taken l) :
    let chunks := (({} : Capture).collect taken).1
    ((¬ ∃ r l', Turn l r l') ↔ ∀ ch, ⟨ch, []⟩ ∈ taken) ∧
    (l.capture.isDone = true ↔ ∀ ch, ⟨ch, []⟩ ∈ taken) ∧
    taken.length ≤ (cut .stdout).length + (cut .stderr).length + 2 ∧
    (∀ ch before after, taken = before ++ ⟨ch, []⟩ :: after → ∀ r ∈ after, r.channel ≠ ch) ∧
    (∀ c ∈ chunks, c.text ≠ "") ∧
    ((∀ ch, ⟨ch, []⟩ ∈ taken) →
      (({} : Capture).collect taken).2 = l.capture ∧
      (∀ status, l.capture.result status =
        { exitCode := status.code, stdout := lossy (bytes .stdout),
          stderr := lossy (bytes .stderr) }) ∧
      ∀ ch, Chunk.textOf ch chunks = lossy (bytes ch) ∧
        chunks.filter (·.channel = ch) = (Collector.readToEnd (cut ch)).1.map (⟨ch, ·⟩)) := by
  have h := hturns.tracks
  intro chunks
  refine ⟨?_, h.isDone_iff, ?_, fun ch before after => hturns.eq_of_end, fun c => h.ne_empty, ?_⟩
  · rw [h.exists_turn_iff hne, Bool.not_eq_false, h.isDone_iff]
  · have hlength := h.length_add
    omega
  · intro hends
    have hdone := h.isDone_iff.2 hends
    exact ⟨h.capture, h.result_of_isDone hne hcut hdone, fun ch =>
      ⟨h.textOf_of_isDone hne hcut hdone ch, h.chunks_of_isDone hne hdone ch⟩⟩

/-- A stream of which the last read was cut inside `é` ends while the other one is open, and
gives a chunk at its end. -/
theorem turns_streams_truncated :
    let cut : Channel → List (List UInt8)
      | .stdout => [[0x61, 0xC3]]
      | .stderr => [[0xC3], [0xA9]]
    let taken : List Read := [⟨.stderr, [0xC3]⟩, ⟨.stdout, [0x61, 0xC3]⟩, ⟨.stdout, []⟩,
      ⟨.stderr, [0xA9]⟩, ⟨.stderr, []⟩]
    (∀ ch, ∀ r ∈ cut ch, r ≠ []) ∧ ∃ l, Turns (start cut) taken l ∧ l.capture.isDone = true ∧
      l.capture.result (.exited 0) =
        { exitCode := 0, stdout := "a\uFFFD", stderr := "é" } := by
  intro cut taken
  have hne : ∀ ch, ∀ r ∈ cut ch, r ≠ [] := by
    intro ch
    cases ch <;> decide
  have horder : ∀ ch, Read.ofChannel ch taken = cut ch ++ [[]] := by
    intro ch
    cases ch <;> rfl
  obtain ⟨l, hturns, hdone⟩ := (turns_iff hne).2 horder
  obtain ⟨-, hends, -, -, -, hresult⟩ := turns_streams (fun _ => rfl) hne hturns
  refine ⟨hne, l, hturns, hdone, ((hresult (hends.1 hdone)).2.1 _).trans ?_⟩
  cbv

end Loop

end Capture

/-! ### Processes -/

/-- The bytes that a process wrote to one of its streams. -/
def Piece.bytesOf (ch : Channel) (ps : List Piece) : List UInt8 :=
  (ps.filter (·.channel = ch)).flatMap Piece.bytes

/-- The reads in which these bytes arrive. -/
def Piece.cutOf (ps : List Piece) (ch : Channel) : List (List UInt8) :=
  Read.ofChannel ch (ps.flatMap Read.ofPiece)

namespace Read

theorem ofChannel_ofPiece (ch : Channel) (p : Piece) :
    ofChannel ch (ofPiece p) = if p.channel = ch then slices (maxBytes - 1) p.bytes else [] := by
  rw [ofChannel, ofPiece]
  by_cases h : p.channel = ch <;> simp [List.filter_map, Function.comp_def, h]

theorem flatten_cutOf (ps : List Piece) (ch : Channel) :
    (Piece.cutOf ps ch).flatten = Piece.bytesOf ch ps := by
  induction ps with
  | nil => rfl
  | cons p ps ih =>
    rw [Piece.cutOf] at ih ⊢
    rw [List.flatMap_cons, ofChannel_append, List.flatten_append, ih, ofChannel_ofPiece,
      Piece.bytesOf, Piece.bytesOf]
    by_cases h : p.channel = ch <;> simp [h, flatten_slices]

theorem ne_nil_of_mem_cutOf {ps : List Piece} {ch : Channel} {r : List UInt8}
    (h : r ∈ Piece.cutOf ps ch) : r ≠ [] := by
  rw [Piece.cutOf, mem_ofChannel, List.mem_flatMap] at h
  obtain ⟨p, -, hmem⟩ := h
  rw [ofPiece, List.mem_map] at hmem
  obtain ⟨bytes, hbytes, heq⟩ := hmem
  obtain ⟨-, rfl⟩ := Read.mk.inj heq
  exact (length_of_mem_slices hbytes).1

theorem ofChannel_ofPieces (ps : List Piece) (ch : Channel) :
    ofChannel ch (ofPieces ps) = Piece.cutOf ps ch ++ [[]] := by
  rw [ofPieces, ofChannel_append]
  cases ch <;> rfl

end Read

/-- The result of a process that could be started: its exit code and the lenient reading of all
that it wrote to each stream. -/
theorem Host.runProcess_of_launch {vs : Variables} {h h' : Host} {c : Call} {ps : List Piece}
    {status : ExitStatus} (hlaunch : h.launch vs c = .ok (ps, status, h')) :
    (Host.runProcess vs h c).result = .ok
      { exitCode := status.code, stdout := lossy (Piece.bytesOf .stdout ps),
        stderr := lossy (Piece.bytesOf .stderr ps) } := by
  have hne : ∀ ch, ∀ r ∈ Piece.cutOf ps ch, r ≠ [] := fun _ _ => Read.ne_nil_of_mem_cutOf
  obtain ⟨l, hturns, hdone⟩ :=
    (Capture.Loop.turns_iff hne).2 (Read.ofChannel_ofPieces ps)
  have htracks := hturns.tracks
  have hresult := htracks.result_of_isDone hne (Read.flatten_cutOf ps) hdone status
  rw [← htracks.capture] at hresult
  simp only [runProcess, hlaunch, hresult]

end ScenePreview

import ScenePreview.Process.Collector
import ScenePreview.Proofs.Utf8

/-!
# Collected output

A stream arrives in reads whose borders have nothing to do with its characters.  The text that
comes out is that of all bytes read at once: what a read cuts in two is kept back, and nothing
that was passed on is ever taken back.

## Main definitions

* `Collector.readAll`, `Collector.readToEnd` — one read after another, and the end.
* `Collector.Holds` — a stream of which certain bytes have been read so far.

## Main results

* `Collector.Holds.readAll` — the invariant along any reads.
* `Collector.readAll_cut` — **the text does not depend on how the bytes are cut.**
-/

namespace ScenePreview

open Text.Utf8

namespace Collector

/-- The texts that reads complete one after another, and the stream after them. -/
def readAll (c : Collector) : List (List UInt8) → List String × Collector
  | [] => ([], c)
  | r :: rs =>
    let (text, c) := c.read r
    let (texts, c) := c.readAll rs
    (text.toList ++ texts, c)

@[simp] theorem readAll_nil (c : Collector) : c.readAll [] = ([], c) := rfl

@[simp] theorem readAll_cons (c : Collector) (r : List UInt8) (rs : List (List UInt8)) :
    c.readAll (r :: rs) =
      ((c.read r).1.toList ++ ((c.read r).2.readAll rs).1, ((c.read r).2.readAll rs).2) := rfl

theorem readAll_append (c : Collector) (rs rs' : List (List UInt8)) :
    c.readAll (rs ++ rs') =
      ((c.readAll rs).1 ++ ((c.readAll rs).2.readAll rs').1,
        ((c.readAll rs).2.readAll rs').2) := by
  induction rs generalizing c with
  | nil => rfl
  | cons r rs ih => simp [ih]

/-! ### The collected text and the texts passed on -/

/-- What a read completes is passed on and collected alike. -/
theorem collected_read (c : Collector) (r : List UInt8) :
    (c.read r).2.collected = c.collected ++ String.join (c.read r).1.toList := by
  rw [read]
  generalize (if r = [] then c.decoder.finish else c.decoder.decode r) = next
  by_cases h : next.1 = "" <;> simp [h]

theorem collected_readAll (c : Collector) (rs : List (List UInt8)) :
    (c.readAll rs).2.collected = c.collected ++ String.join (c.readAll rs).1 := by
  induction rs generalizing c with
  | nil => simp
  | cons r rs ih => simp [ih, collected_read, String.append_assoc]

/-! ### The bytes behind a stream -/

/-- A stream of which `bytes` have been read: it has passed on what they hold for certain, and
keeps the rest. -/
structure Holds (c : Collector) (bytes : List UInt8) : Prop where
  /-- The text so far is what the bytes hold for certain. -/
  collected : c.collected = String.ofList (Decoder.settle bytes).1
  /-- What is left is kept. -/
  pending : c.decoder.pending = (Decoder.settle bytes).2

theorem Holds.init : ({} : Collector).Holds [] := by
  constructor <;> rw [Decoder.settle_nil]

/-- One read that is not the end. -/
theorem Holds.read {c : Collector} {bytes r : List UInt8} (h : c.Holds bytes) (hr : r ≠ []) :
    (c.read r).2.Holds (bytes ++ r) := by
  have hs := Decoder.settle_append bytes r
  constructor
  · rw [hs, String.ofList_append, ← h.collected, ← h.pending]
    simp [Collector.read, hr, Decoder.decode]
  · rw [hs, ← h.pending]
    simp [Collector.read, hr, Decoder.decode]

/-- Any reads before the end. -/
theorem Holds.readAll {c : Collector} {bytes : List UInt8} {rs : List (List UInt8)}
    (h : c.Holds bytes) (hne : ∀ r ∈ rs, r ≠ []) :
    (c.readAll rs).2.Holds (bytes ++ rs.flatten) := by
  induction rs generalizing c bytes with
  | nil => simpa using h
  | cons r rs ih =>
    rw [readAll_cons, List.flatten_cons, ← List.append_assoc]
    exact ih (h.read (hne r List.mem_cons_self)) fun r' hr' => hne r' (List.mem_cons_of_mem _ hr')

/-- The end: what is left becomes text too. -/
theorem Holds.collected_end {c : Collector} {bytes : List UInt8} (h : c.Holds bytes) :
    (c.read []).2.collected = lossy bytes := by
  rw [lossy, Decoder.lossyChars_eq_settle, String.ofList_append, ← h.collected, ← h.pending]
  simp [Collector.read, Decoder.finish, lossy]

/-- A stream that is read to its end: the texts that were passed on, and the stream. -/
def readToEnd (cut : List (List UInt8)) : List String × Collector :=
  ({} : Collector).readAll (cut ++ [[]])

theorem collected_readToEnd {bytes : List UInt8} {cut : List (List UInt8)}
    (hcut : cut.flatten = bytes) (hne : ∀ r ∈ cut, r ≠ []) :
    (readToEnd cut).2.collected = lossy bytes := by
  -- before the end all bytes have been read, and some of them may be kept
  have h := Holds.init.readAll hne
  rw [List.nil_append, hcut] at h
  rw [readToEnd, readAll_append]
  exact h.collected_end

theorem join_readToEnd {bytes : List UInt8} {cut : List (List UInt8)}
    (hcut : cut.flatten = bytes) (hne : ∀ r ∈ cut, r ≠ []) :
    String.join (readToEnd cut).1 = lossy bytes := by
  have h := collected_readToEnd hcut hne
  rwa [readToEnd, collected_readAll, String.empty_append] at h

/-- **The text does not depend on how the bytes are cut.**  For every cut of `bytes` into reads,
followed by the end, what is collected and what is passed on are both the lenient reading of
the bytes as a whole: characters as they are written, and one replacement character for each
flaw.  So two cuts give the same text, and the bytes of a text give that text. -/
theorem readAll_cut {bytes : List UInt8} {cut : List (List UInt8)} (hcut : cut.flatten = bytes)
    (hne : ∀ r ∈ cut, r ≠ []) :
    (readToEnd cut).2.collected = lossy bytes ∧
    String.join (readToEnd cut).1 = lossy bytes ∧
    (∀ cs, Reading bytes cs ↔ cs = (readToEnd cut).2.collected.toList) ∧
    (∀ cut' : List (List UInt8), cut'.flatten = bytes → (∀ r ∈ cut', r ≠ []) →
      (readToEnd cut').2.collected = (readToEnd cut).2.collected ∧
        String.join (readToEnd cut').1 = String.join (readToEnd cut).1) ∧
    ∀ s, bytes = encode s →
      (readToEnd cut).2.collected = s ∧ String.join (readToEnd cut).1 = s := by
  have hcollected := collected_readToEnd hcut hne
  have hjoin := join_readToEnd hcut hne
  refine ⟨hcollected, hjoin, fun cs => ?_, fun cut' hcut' hne' => ?_, fun s hs => ?_⟩
  · rw [reading_iff, hcollected, lossy, String.toList_ofList]
  · exact ⟨(collected_readToEnd hcut' hne').trans hcollected.symm,
      (join_readToEnd hcut' hne').trans hjoin.symm⟩
  · rw [hcollected, hjoin, hs, lossy_encode]
    exact ⟨rfl, rfl⟩

/-- A cut inside `é`, one between a beginning and the byte that rules it out, and one inside a
character whose end never comes. -/
theorem readAll_cut_flawed :
    let cut : List (List UInt8) := [[0x68, 0xC3], [0xA9, 0xE2, 0x82], [0xFF, 0xF0], [0x9F]]
    (∀ r ∈ cut, r ≠ []) ∧ (readToEnd cut).2.collected = "hé\uFFFD\uFFFD\uFFFD" := by
  intro cut
  have hne : ∀ r ∈ cut, r ≠ [] := by decide
  refine ⟨hne, (readAll_cut rfl hne).1.trans ?_⟩
  cbv

end Collector

end ScenePreview

import ScenePreview.Proofs.Utf8

/-!
# Reading piece by piece

A decoder gets its bytes in pieces and passes text on as it goes.  It may pass on only what no
later piece can change, and it may keep back only what a later piece can still complete.  Here it
is said which bytes it keeps, in every state that any pieces lead to.

`Decoder.settle` reads character by character.  A reader that looks for the first byte that is no
text, passes on everything before it and then starts over does the same: that reading is described
here pass by pass, by the characters alone, and each pass but the last uses bytes up.

## Main definitions

* `Unfinished` — the beginning of a character whose end is missing.
* `Decoder.Pass`, `Decoder.Passes` — one pass over the bytes at hand, and all of them.
* `Decoder.decodeAll` — one piece after another.

## Main results

* `head_eq_cutOff_iff` — what is kept back is the beginning of a character, and nothing else.
* `Decoder.Pass.length_lt` — a pass that is not the last uses up a byte.
* `Decoder.passes_iff` — the passes end, with what `Decoder.settle` gives.
* `Decoder.decodeAll_settled` — **a decoder passes on what is certain and keeps what is not.**
-/

namespace ScenePreview.Text.Utf8

/-! ### Unfinished characters -/

/-- The beginning of a character whose end is missing. -/
def Unfinished (bytes : List UInt8) : Prop :=
  bytes ≠ [] ∧ ∃ c more, more ≠ [] ∧ String.utf8EncodeChar c = bytes ++ more

/-- No character has more than four bytes. -/
theorem Unfinished.length_le {bytes : List UInt8} (h : Unfinished bytes) : bytes.length ≤ 3 := by
  obtain ⟨-, c, more, hmore, hc⟩ := h
  have hlength := congrArg List.length hc
  rw [String.length_utf8EncodeChar, List.length_append] at hlength
  have hfour := c.utf8Size_le_four
  have hpos := List.length_pos_iff.2 hmore
  omega

/-- Bytes are cut off exactly if they begin a character that is longer than they are. -/
theorem head_eq_cutOff_iff {b : UInt8} {bs : List UInt8} :
    head b bs = .cutOff ↔ Unfinished (b :: bs) := by
  constructor
  · intro h
    have hs := head_spec b bs
    rw [h] at hs
    cases hs with
    | cutOff hmore hc => exact ⟨List.cons_ne_nil _ _, _, _, hmore, hc⟩
  · rintro ⟨-, c, more, hmore, hc⟩
    have hread : head b (bs ++ more) = .char c [] := by
      have hwhole := head_encodeChar (hc.trans (List.cons_append ..)) []
      rwa [List.append_nil] at hwhole
    -- a character or a flaw would still be there when the end of the character is added
    cases h : head b bs with
    | char d rest =>
      rw [head_append_of_char h more, Head.char.injEq, List.append_eq_nil_iff] at hread
      exact absurd hread.2.2 hmore
    | flaw rest =>
      rw [head_append_of_flaw h more] at hread
      cases hread
    | cutOff => rfl

namespace Decoder

/-! ### What is settled -/

theorem settle_encodeChars_append (cs : List Char) (tail : List UInt8) :
    settle (encodeChars cs ++ tail) = (cs ++ (settle tail).1, (settle tail).2) := by
  induction cs with
  | nil => rfl
  | cons c cs ih =>
    obtain ⟨b, bs, hc⟩ := exists_encodeChar_eq_cons c
    have hbytes : encodeChars (c :: cs) ++ tail = b :: (bs ++ (encodeChars cs ++ tail)) := by
      rw [encodeChars, List.flatMap_cons, hc, ← encodeChars, List.append_assoc, List.cons_append]
    rw [hbytes, settle_of_char (head_encodeChar hc _), ih, List.cons_append]

/-- The beginning of a character is kept. -/
theorem settle_of_unfinished {bytes : List UInt8} (h : Unfinished bytes) :
    settle bytes = ([], bytes) := by
  obtain ⟨b, bs, rfl⟩ := List.exists_cons_of_ne_nil h.1
  exact settle_of_cutOff (head_eq_cutOff_iff.2 h)

/-- A flaw that nothing can mend is replaced. -/
theorem settle_append_of_flaw {part rest : List UInt8} (h : Flaw part rest)
    (hopen : ¬ Unfinished (part ++ rest)) :
    settle (part ++ rest) = (replacement :: (settle rest).1, (settle rest).2) := by
  obtain ⟨b, tail, rfl⟩ := List.exists_cons_of_ne_nil h.ne_nil
  rw [List.cons_append]
  have hd : head b (tail ++ rest) = .flaw rest :=
    h.head_cases.resolve_right fun hcut => hopen (head_eq_cutOff_iff.1 hcut)
  exact settle_of_flaw hd

/-- Only the beginning of a character is ever kept. -/
theorem pending_settle (bytes : List UInt8) :
    (settle bytes).2 = [] ∨ Unfinished (settle bytes).2 := by
  induction bytes using headInduction with
  | nil => exact .inl (by rw [settle_nil])
  | char h ih => rwa [settle_of_char h]
  | flaw h ih => rwa [settle_of_flaw h]
  | cutOff h =>
    rw [settle_of_cutOff h]
    exact .inr (head_eq_cutOff_iff.1 h)

/-! ### Passes -/

/-- Whether another pass follows. -/
inductive Verdict where
  /-- This pass was the last. -/
  | stop
  /-- Another one follows. -/
  | again
  deriving Repr, DecidableEq

/-- One pass over the bytes at hand: the text that it passes on, and the bytes that it leaves.
The text is that of all characters up to the first place where there is none. -/
inductive Pass : List UInt8 → List Char → List UInt8 → Verdict → Prop where
  /-- There is no such place. -/
  | whole (cs : List Char) : Pass (encodeChars cs) cs [] .stop
  /-- A character is cut off there: its beginning is left. -/
  | cutOff (cs : List Char) {tail : List UInt8} (h : Unfinished tail) :
      Pass (encodeChars cs ++ tail) cs tail .stop
  /-- There is a flaw that nothing can mend: it is replaced, and what follows it is left. -/
  | flaw (cs : List Char) {part rest : List UInt8} (hf : Flaw part rest)
      (hopen : ¬ Unfinished (part ++ rest)) :
      Pass (encodeChars cs ++ (part ++ rest)) (cs ++ [replacement]) rest .again

/-- All passes over the bytes at hand: the text that they pass on together, and the bytes that
the last one leaves. -/
inductive Passes : List UInt8 → List Char → List UInt8 → Prop where
  /-- The last pass. -/
  | stop {bytes left : List UInt8} {cs : List Char} (h : Pass bytes cs left .stop) :
      Passes bytes cs left
  /-- A pass with others after it. -/
  | again {bytes left left' : List UInt8} {cs cs' : List Char} (h : Pass bytes cs left .again)
      (hs : Passes left cs' left') : Passes bytes (cs ++ cs') left'

section Passes

variable {bytes left : List UInt8} {cs : List Char} {v : Verdict}

/-- A pass that is not the last uses up a byte. -/
theorem Pass.length_lt (h : Pass bytes cs left .again) : left.length < bytes.length := by
  cases h with
  | flaw cs hf hopen =>
    have hpos := List.length_pos_iff.2 hf.ne_nil
    simp only [List.length_append]
    omega

/-- What a pass leaves is all that is still to be settled. -/
theorem Pass.settle_eq (h : Pass bytes cs left v) :
    settle bytes = (cs ++ (settle left).1, (settle left).2) := by
  cases h with
  | whole =>
    have hwhole := settle_encodeChars_append cs []
    rwa [List.append_nil] at hwhole
  | cutOff _ hcut => rw [settle_encodeChars_append]
  | flaw cs hf hopen =>
    rw [settle_encodeChars_append, settle_append_of_flaw hf hopen, List.append_assoc]
    rfl

theorem Pass.settle_left (h : Pass bytes cs left .stop) : settle left = ([], left) := by
  cases h with
  | whole => exact settle_nil
  | cutOff _ hcut => exact settle_of_unfinished hcut

theorem Passes.settle_eq (h : Passes bytes cs left) : settle bytes = (cs, left) := by
  induction h with
  | stop hp => rw [hp.settle_eq, hp.settle_left, List.append_nil]
  | again hp _ ih => rw [hp.settle_eq, ih]

/-- A character in front of the bytes goes to the first pass. -/
theorem Pass.cons (c : Char) (h : Pass bytes cs left v) :
    Pass (String.utf8EncodeChar c ++ bytes) (c :: cs) left v := by
  have hcons : ∀ ds, String.utf8EncodeChar c ++ encodeChars ds = encodeChars (c :: ds) :=
    fun _ => rfl
  cases h with
  | whole =>
    rw [hcons]
    exact .whole (c :: cs)
  | cutOff _ hcut =>
    rw [← List.append_assoc, hcons]
    exact .cutOff (c :: cs) hcut
  | flaw ds hf hopen =>
    rw [← List.append_assoc, hcons]
    exact .flaw (c :: ds) hf hopen

theorem Passes.cons (c : Char) (h : Passes bytes cs left) :
    Passes (String.utf8EncodeChar c ++ bytes) (c :: cs) left := by
  cases h with
  | stop hp => exact .stop (hp.cons c)
  | again hp hs => exact .again (hp.cons c) hs

/-- The passes come to an end. -/
theorem passes_settle (bytes : List UInt8) : Passes bytes (settle bytes).1 (settle bytes).2 := by
  induction bytes using headInduction with
  | nil =>
    rw [settle_nil]
    exact .stop (.whole [])
  | @char b bs c rest h ih =>
    have hs := head_spec b bs
    rw [h] at hs
    rw [settle_of_char h]
    cases hs with
    | char _ hc =>
      rw [← List.cons_append, ← hc]
      exact ih.cons c
  | @flaw b bs rest h ih =>
    have hopen : ¬ Unfinished (b :: bs) := by
      rw [← head_eq_cutOff_iff, h]
      exact nofun
    obtain ⟨part, hbytes, hf⟩ := Flaw.of_flaw h
    rw [settle_of_flaw h]
    rw [hbytes] at hopen ⊢
    exact .again (.flaw [] hf hopen) ih
  | cutOff h =>
    rw [settle_of_cutOff h]
    exact .stop (.cutOff [] (head_eq_cutOff_iff.1 h))

/-- **The passes end, and what they give is what is settled.** -/
theorem passes_iff : Passes bytes cs left ↔ settle bytes = (cs, left) := by
  refine ⟨Passes.settle_eq, fun h => ?_⟩
  have hpasses := passes_settle bytes
  rwa [h] at hpasses

theorem Passes.exists_pass (h : Passes bytes cs left) : ∃ cs' left' v, Pass bytes cs' left' v := by
  cases h with
  | stop hp => exact ⟨_, _, _, hp⟩
  | again hp _ => exact ⟨_, _, _, hp⟩

end Passes

/-! ### One piece after another -/

/-- The text that pieces complete together, and the decoder after them. -/
def decodeAll (d : Decoder) : List (List UInt8) → String × Decoder
  | [] => ("", d)
  | piece :: pieces =>
    let (text, d) := d.decode piece
    let (texts, d) := d.decodeAll pieces
    (text ++ texts, d)

@[simp] theorem decodeAll_nil (d : Decoder) : d.decodeAll [] = ("", d) := rfl

@[simp] theorem decodeAll_cons (d : Decoder) (piece : List UInt8) (pieces : List (List UInt8)) :
    d.decodeAll (piece :: pieces) =
      ((d.decode piece).1 ++ ((d.decode piece).2.decodeAll pieces).1,
        ((d.decode piece).2.decodeAll pieces).2) := rfl

/-- One piece: what it completes comes after what was settled, and the decoder keeps the rest. -/
theorem decode_step {d : Decoder} {bytes : List UInt8} (h : d.pending = (settle bytes).2)
    (piece : List UInt8) :
    (settle (bytes ++ piece)).1 = (settle bytes).1 ++ (d.decode piece).1.toList ∧
      (d.decode piece).2.pending = (settle (bytes ++ piece)).2 := by
  rw [settle_append, ← h, decode]
  simp

/-- Any pieces. -/
theorem decodeAll_run {d : Decoder} {bytes : List UInt8} (h : d.pending = (settle bytes).2)
    (pieces : List (List UInt8)) :
    (settle (bytes ++ pieces.flatten)).1 = (settle bytes).1 ++ (d.decodeAll pieces).1.toList ∧
      (d.decodeAll pieces).2.pending = (settle (bytes ++ pieces.flatten)).2 := by
  induction pieces generalizing d bytes with
  | nil => simp [h]
  | cons piece pieces ih =>
    obtain ⟨htext, hpending⟩ := decode_step h piece
    obtain ⟨htexts, hlast⟩ := ih hpending
    rw [List.flatten_cons, ← List.append_assoc, decodeAll_cons]
    refine ⟨?_, hlast⟩
    rw [htexts, htext, String.toList_append, List.append_assoc]

/-- Every decoder has passed on what its bytes hold for certain, and keeps the rest. -/
theorem decodeAll_eq_settle (pieces : List (List UInt8)) :
    ((({} : Decoder).decodeAll pieces).1.toList, (({} : Decoder).decodeAll pieces).2.pending) =
      settle pieces.flatten := by
  have hinit : ({} : Decoder).pending = (settle []).2 := by rw [settle_nil]
  obtain ⟨htext, hpending⟩ := decodeAll_run hinit pieces
  rw [List.nil_append, settle_nil, List.nil_append] at htext
  rw [List.nil_append] at hpending
  exact Prod.ext htext.symm hpending

/-- What was settled is read first, whatever follows. -/
theorem settle_prefix_lossyChars (bytes more : List UInt8) :
    (settle bytes).1 <+: lossyChars (bytes ++ more) := by
  rw [lossyChars_eq_settle, settle_append, List.append_assoc]
  exact List.prefix_append _ _

/-- The end: one replacement character for what was kept, if anything was. -/
theorem finish_eq {d : Decoder} (h : d.pending = [] ∨ Unfinished d.pending) :
    d.finish = (if d.pending = [] then "" else "\uFFFD", {}) := by
  obtain ⟨pending⟩ := d
  rw [finish, lossy]
  rcases h with hnil | hopen
  · rw [show pending = [] from hnil, lossyChars_nil]
    rfl
  · obtain ⟨b, bs, rfl⟩ := List.exists_cons_of_ne_nil hopen.1
    rw [lossyChars_of_cutOff (head_eq_cutOff_iff.2 hopen), if_neg hopen.1]
    rfl

/-- **A decoder passes on what is certain and keeps what is not.**  After any pieces, empty ones
included, it keeps nothing or the beginning of a character, which has one to three bytes.  What it
has passed on is the start of the lenient reading of all bytes so far and of anything that may
follow them.  The end gives nothing more if nothing was kept and one replacement character
otherwise, so that all bytes have been read, and leaves a new decoder.  The next piece is read in
passes that come to an end: over any bytes there is a pass, every pass is the last or leaves fewer
bytes to the next, and all passes together give the text and the bytes that the decoder gives. -/
theorem decodeAll_settled (pieces : List (List UInt8)) :
    let (text, d) := ({} : Decoder).decodeAll pieces
    (d.pending = [] ∨ Unfinished d.pending ∧ 1 ≤ d.pending.length ∧ d.pending.length ≤ 3) ∧
    (∀ more cs, Reading (pieces.flatten ++ more) cs → text.toList <+: cs) ∧
    d.finish = (if d.pending = [] then "" else "\uFFFD", {}) ∧
    text ++ d.finish.1 = lossy pieces.flatten ∧
    (∀ piece cs left, Passes (d.pending ++ piece) cs left ↔
      d.decode piece = (String.ofList cs, ⟨left⟩)) ∧
    ∀ bytes, (∃ cs left v, Pass bytes cs left v) ∧
      ∀ cs left, Pass bytes cs left .again → left.length < bytes.length := by
  have hall := decodeAll_eq_settle pieces
  generalize ({} : Decoder).decodeAll pieces = result at hall
  obtain ⟨text, d⟩ := result
  have htext : text.toList = (settle pieces.flatten).1 := congrArg Prod.fst hall
  have hpending : d.pending = (settle pieces.flatten).2 := congrArg Prod.snd hall
  have hkept : d.pending = [] ∨ Unfinished d.pending := by
    rw [hpending]
    exact pending_settle pieces.flatten
  refine ⟨hkept.imp_right fun hopen => ⟨hopen, List.length_pos_iff.2 hopen.1, hopen.length_le⟩,
    fun more cs hcs => ?_, finish_eq hkept, ?_, fun piece cs left => ?_, fun bytes => ?_⟩
  · rw [reading_iff.1 hcs, htext]
    exact settle_prefix_lossyChars pieces.flatten more
  · rw [← String.toList_inj, String.toList_append, htext, finish, hpending, lossy, lossy,
      String.toList_ofList, String.toList_ofList]
    exact (lossyChars_eq_settle pieces.flatten).symm
  · rw [passes_iff, decode]
    constructor
    · intro h
      rw [h]
    · intro h
      obtain ⟨hcs, hleft⟩ := Prod.mk.inj h
      exact Prod.ext (by simpa using congrArg String.toList hcs) (congrArg Decoder.pending hleft)
  · refine ⟨(passes_settle bytes).exists_pass, ?_⟩
    intro cs left hp
    exact hp.length_lt

/-- A character of four bytes whose first three arrive in two pieces, with an empty one between
them: they are kept, and the piece that completes it also holds a flaw, so it takes two passes. -/
theorem decodeAll_settled_smile :
    let pieces : List (List UInt8) := [[0x61, 0xF0], [], [0x9F, 0x98]]
    let d : Decoder := ⟨[0xF0, 0x9F, 0x98]⟩
    ({} : Decoder).decodeAll pieces = ("a", d) ∧ Unfinished d.pending ∧
      d.finish = ("\uFFFD", {}) ∧
      (∀ more cs, Reading (pieces.flatten ++ more) cs → ['a'] <+: cs) ∧
      d.decode [0x80, 0xFF, 0x62] = ("😀\uFFFDb", {}) ∧
      Passes (d.pending ++ [0x80, 0xFF, 0x62]) ['😀', '\uFFFD', 'b'] [] := by
  intro pieces d
  have hall : ({} : Decoder).decodeAll pieces = ("a", d) := by cbv
  have hdecode : d.decode [0x80, 0xFF, 0x62] = ("😀\uFFFDb", {}) := by cbv
  have h := decodeAll_settled pieces
  rw [hall] at h
  obtain ⟨hkept, hread, hfinish, -, hpasses, -⟩ := h
  refine ⟨hall, ?_, hfinish, hread, hdecode, (hpasses _ _ _).2 hdecode⟩
  exact (hkept.resolve_left (List.cons_ne_nil _ _)).1

end Decoder

end ScenePreview.Text.Utf8

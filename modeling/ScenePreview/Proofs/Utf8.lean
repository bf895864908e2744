import Mathlib
import ScenePreview.Text.Utf8

/-!
# Reading UTF-8

`lossy` finds out byte by byte what a list of bytes begins with.  Here lenient reading is
said without any of these steps, by the characters alone: bytes are read as a character
when they are what that character is written as, and any other beginning is a *flaw*, the
longest part that begins some character, or a single byte.  The two agree, and reading
piece by piece agrees with both.  Strict reading takes back what was written, and nothing else.

## Main definitions

* `Shape` — the byte lists that are characters, by their ranges.
* `HeadSpec` — everything that `head` can answer, and when.
* `Flaw`, `Reading` — lenient reading said by the characters alone.

## Main results

* `head_spec` — the inversion of `head`.
* `reading_iff` — `lossyChars` is lenient reading.
* `lossyChars_encodeChars` — a text is read as it was written.
* `lossyChars_append_cons` — what stands before a byte of its own does not touch what is after.
* `decode?_eq_some_iff` — strict reading gives a text exactly for the bytes of that text.
* `Decoder.settle_append`, `Decoder.lossyChars_eq_settle` — what is kept of one piece is all
  that the next pieces need.
-/

namespace ScenePreview.Text.Utf8

/-! ### Ranges of bytes -/

theorem isTail_iff (b : UInt8) : isTail b = true ↔ 0x80 ≤ b.toNat ∧ b.toNat ≤ 0xBF := by
  simp [isTail, UInt8.le_iff_toNat_le]

theorem isSecondOf3_iff (b b2 : UInt8) : isSecondOf3 b b2 = true ↔
    0x80 ≤ b2.toNat ∧ b2.toNat ≤ 0xBF ∧ (b.toNat = 0xE0 → 0xA0 ≤ b2.toNat)
      ∧ (b.toNat = 0xED → b2.toNat ≤ 0x9F) := by
  simp only [isSecondOf3, isTail, UInt8.le_iff_toNat_le, ← UInt8.toNat_inj]
  split
  · simp_all
    omega
  · split
    · simp_all
      omega
    · simp_all

theorem isSecondOf4_iff (b b2 : UInt8) : isSecondOf4 b b2 = true ↔
    0x80 ≤ b2.toNat ∧ b2.toNat ≤ 0xBF ∧ (b.toNat = 0xF0 → 0x90 ≤ b2.toNat)
      ∧ (b.toNat = 0xF4 → b2.toNat ≤ 0x8F) := by
  simp only [isSecondOf4, isTail, UInt8.le_iff_toNat_le, ← UInt8.toNat_inj]
  split
  · simp_all
    omega
  · split
    · simp_all
      omega
    · simp_all

theorem isTail_least : isTail 0x80 := by decide

theorem exists_isSecondOf3 (b : UInt8) : ∃ b2, isSecondOf3 b b2 := by
  by_cases h : b.toNat = 0xE0
  · exact ⟨0xA0, by simp [isSecondOf3_iff, h]⟩
  · exact ⟨0x80, by simp [isSecondOf3_iff, h]⟩

theorem exists_isSecondOf4 (b : UInt8) : ∃ b2, isSecondOf4 b b2 := by
  by_cases h : b.toNat = 0xF0
  · exact ⟨0x90, by simp [isSecondOf4_iff, h]⟩
  · exact ⟨0x80, by simp [isSecondOf4_iff, h]⟩

/-- The ranges of a first byte: of one, two, three or four bytes, or of none. -/
theorem lead_cases (b : UInt8) : b.toNat < 0x80 ∨ (0xC2 ≤ b.toNat ∧ b.toNat ≤ 0xDF) ∨
    (0xE0 ≤ b.toNat ∧ b.toNat ≤ 0xEF) ∨ (0xF0 ≤ b.toNat ∧ b.toNat ≤ 0xF4) ∨
      (0x80 ≤ b.toNat ∧ b.toNat < 0xC2 ∨ 0xF4 < b.toNat) := by
  omega

section Lead

variable {b : UInt8} (bs : List UInt8)

theorem head_one (h : b.toNat < 0x80) : head b bs = .char (Char.ofNat b.toNat) bs := by
  rw [head, if_pos (UInt8.lt_iff_toNat_lt.2 h)]

theorem head_two (h : 0xC2 ≤ b.toNat ∧ b.toNat ≤ 0xDF) : head b bs = headOf2 b bs := by
  simp only [head, UInt8.lt_iff_toNat_lt, UInt8.le_iff_toNat_le, UInt8.reduceToNat,
    Bool.and_eq_true, decide_eq_true_eq]
  rw [if_neg (by omega), if_pos h]

theorem head_three (h : 0xE0 ≤ b.toNat ∧ b.toNat ≤ 0xEF) : head b bs = headOf3 b bs := by
  simp only [head, UInt8.lt_iff_toNat_lt, UInt8.le_iff_toNat_le, UInt8.reduceToNat,
    Bool.and_eq_true, decide_eq_true_eq]
  rw [if_neg (by omega), if_neg (by omega), if_pos h]

theorem head_four (h : 0xF0 ≤ b.toNat ∧ b.toNat ≤ 0xF4) : head b bs = headOf4 b bs := by
  simp only [head, UInt8.lt_iff_toNat_lt, UInt8.le_iff_toNat_le, UInt8.reduceToNat,
    Bool.and_eq_true, decide_eq_true_eq]
  rw [if_neg (by omega), if_neg (by omega), if_neg (by omega), if_pos h]

theorem head_none (h : 0x80 ≤ b.toNat ∧ b.toNat < 0xC2 ∨ 0xF4 < b.toNat) :
    head b bs = .flaw bs := by
  simp only [head, UInt8.lt_iff_toNat_lt, UInt8.le_iff_toNat_le, UInt8.reduceToNat,
    Bool.and_eq_true, decide_eq_true_eq]
  rw [if_neg (by omega), if_neg (by omega), if_neg (by omega), if_neg (by omega)]

end Lead

/-! ### The bytes of characters -/

theorem toNat_val_ofNat {n : Nat} (h : n.isValidChar) : (Char.ofNat n).val.toNat = n := by
  rw [Char.ofNat, dif_pos h]
  rfl

theorem encodeChar_of_one {b : UInt8} (hb : b.toNat < 0x80) :
    String.utf8EncodeChar (Char.ofNat b.toNat) = [b] := by
  have hv : b.toNat.isValidChar := by
    simp only [Nat.isValidChar]
    omega
  simp only [String.utf8EncodeChar, toNat_val_ofNat hv]
  rw [if_pos (by omega), UInt8.ofNat_toNat]

theorem encodeChar_of_two {b b2 : UInt8} (hb : 0xC2 ≤ b.toNat ∧ b.toNat ≤ 0xDF)
    (h2 : isTail b2) :
    String.utf8EncodeChar (Char.ofNat (b.toNat % 32 * 64 + tailBits b2)) = [b, b2] := by
  rw [isTail_iff] at h2
  have hv : (b.toNat % 32 * 64 + b2.toNat % 64).isValidChar := by
    simp only [Nat.isValidChar]
    omega
  simp only [String.utf8EncodeChar, tailBits, toNat_val_ofNat hv]
  rw [if_neg (by omega), if_pos (by omega)]
  simp only [← UInt8.toNat_inj, List.cons.injEq, UInt8.toNat_ofNat', and_true]
  omega

theorem encodeChar_of_three {b b2 b3 : UInt8} (hb : 0xE0 ≤ b.toNat ∧ b.toNat ≤ 0xEF)
    (h2 : isSecondOf3 b b2) (h3 : isTail b3) :
    String.utf8EncodeChar
      (Char.ofNat ((b.toNat % 16 * 64 + tailBits b2) * 64 + tailBits b3)) = [b, b2, b3] := by
  rw [isSecondOf3_iff] at h2
  rw [isTail_iff] at h3
  -- after `0xED` the range of the second byte ends before the surrogates
  have hv : ((b.toNat % 16 * 64 + b2.toNat % 64) * 64 + b3.toNat % 64).isValidChar := by
    simp only [Nat.isValidChar]
    omega
  simp only [String.utf8EncodeChar, tailBits, toNat_val_ofNat hv]
  rw [if_neg (by omega), if_neg (by omega), if_pos (by omega)]
  simp only [← UInt8.toNat_inj, List.cons.injEq, UInt8.toNat_ofNat', and_true]
  omega

theorem encodeChar_of_four {b b2 b3 b4 : UInt8} (hb : 0xF0 ≤ b.toNat ∧ b.toNat ≤ 0xF4)
    (h2 : isSecondOf4 b b2) (h3 : isTail b3) (h4 : isTail b4) :
    String.utf8EncodeChar (Char.ofNat
      (((b.toNat % 8 * 64 + tailBits b2) * 64 + tailBits b3) * 64 + tailBits b4))
        = [b, b2, b3, b4] := by
  rw [isSecondOf4_iff] at h2
  rw [isTail_iff] at h3 h4
  -- after `0xF4` the range of the second byte ends with the last character
  have hv : (((b.toNat % 8 * 64 + b2.toNat % 64) * 64 + b3.toNat % 64) * 64
      + b4.toNat % 64).isValidChar := by
    simp only [Nat.isValidChar]
    omega
  simp only [String.utf8EncodeChar, tailBits, toNat_val_ofNat hv]
  rw [if_neg (by omega), if_neg (by omega), if_neg (by omega)]
  simp only [← UInt8.toNat_inj, List.cons.injEq, UInt8.toNat_ofNat', and_true]
  omega

/-- The byte lists that are characters.  The first byte tells their number; the ranges of the
second leave out overlong forms, surrogates and values beyond the last character. -/
inductive Shape : List UInt8 → Prop where
  | one {b : UInt8} (hb : b.toNat < 0x80) : Shape [b]
  | two {b b2 : UInt8} (hb : 0xC2 ≤ b.toNat ∧ b.toNat ≤ 0xDF) (h2 : isTail b2) :
      Shape [b, b2]
  | three {b b2 b3 : UInt8} (hb : 0xE0 ≤ b.toNat ∧ b.toNat ≤ 0xEF) (h2 : isSecondOf3 b b2)
      (h3 : isTail b3) : Shape [b, b2, b3]
  | four {b b2 b3 b4 : UInt8} (hb : 0xF0 ≤ b.toNat ∧ b.toNat ≤ 0xF4) (h2 : isSecondOf4 b b2)
      (h3 : isTail b3) (h4 : isTail b4) : Shape [b, b2, b3, b4]

/-- Every character has one of the shapes. -/
theorem shape_encodeChar (c : Char) : Shape (String.utf8EncodeChar c) := by
  have hv : c.val.toNat < 0xD800 ∨ 0xDFFF < c.val.toNat ∧ c.val.toNat < 0x110000 := c.valid
  rw [String.utf8EncodeChar]
  generalize c.val.toNat = v at hv
  -- one range of values after the other, by the number of bytes
  split
  · exact .one (by rw [UInt8.toNat_ofNat']; omega)
  split
  · refine .two ?_ ?_
    · rw [UInt8.toNat_ofNat']; omega
    · rw [isTail_iff, UInt8.toNat_ofNat']; omega
  split
  · refine .three ?_ ?_ ?_
    · rw [UInt8.toNat_ofNat']; omega
    · rw [isSecondOf3_iff, UInt8.toNat_ofNat', UInt8.toNat_ofNat']; omega
    · rw [isTail_iff, UInt8.toNat_ofNat']; omega
  · refine .four ?_ ?_ ?_ ?_
    · rw [UInt8.toNat_ofNat']; omega
    · rw [isSecondOf4_iff, UInt8.toNat_ofNat', UInt8.toNat_ofNat']; omega
    · rw [isTail_iff, UInt8.toNat_ofNat']; omega
    · rw [isTail_iff, UInt8.toNat_ofNat']; omega

/-- Bytes of a shape are read as a character, which is written as they are. -/
theorem head_of_shape {b : UInt8} {bs : List UInt8} (h : Shape (b :: bs)) (rest : List UInt8) :
    ∃ c, head b (bs ++ rest) = .char c rest ∧ String.utf8EncodeChar c = b :: bs := by
  cases h with
  | one hb => exact ⟨_, head_one _ hb, encodeChar_of_one hb⟩
  | two hb h2 => exact ⟨_, by simp [head_two _ hb, headOf2, h2], encodeChar_of_two hb h2⟩
  | three hb h2 h3 =>
    exact ⟨_, by simp [head_three _ hb, headOf3, h2, h3], encodeChar_of_three hb h2 h3⟩
  | four hb h2 h3 h4 =>
    exact ⟨_, by simp [head_four _ hb, headOf4, h2, h3, h4], encodeChar_of_four hb h2 h3 h4⟩

theorem exists_encodeChar {b : UInt8} {bs : List UInt8} (h : Shape (b :: bs)) :
    ∃ c, String.utf8EncodeChar c = b :: bs := by
  obtain ⟨c, -, hc⟩ := head_of_shape h []
  exact ⟨c, hc⟩

theorem encodeChar_injective {c d : Char}
    (h : String.utf8EncodeChar c = String.utf8EncodeChar d) : c = d := by
  have hc := ByteArray.utf8DecodeChar?_utf8EncodeChar_append (b := .empty) (c := c)
  have hd := ByteArray.utf8DecodeChar?_utf8EncodeChar_append (b := .empty) (c := d)
  rw [h, hd] at hc
  exact (Option.some.inj hc).symm

theorem exists_encodeChar_eq_cons (c : Char) : ∃ b bs, String.utf8EncodeChar c = b :: bs := by
  have hs := shape_encodeChar c
  cases h : String.utf8EncodeChar c with
  | nil =>
    rw [h] at hs
    cases hs
  | cons b bs => exact ⟨b, bs, rfl⟩

/-! ### The beginning of a byte list -/

/-- What the bytes after `b` make of it. -/
inductive HeadSpec (b : UInt8) : List UInt8 → Head → Prop where
  /-- They complete a character. -/
  | char {c : Char} {tail : List UInt8} (rest : List UInt8)
      (hc : String.utf8EncodeChar c = b :: tail) : HeadSpec b (tail ++ rest) (.char c rest)
  /-- They leave a character incomplete. -/
  | cutOff {c : Char} {bs more : List UInt8} (hm : more ≠ [])
      (hc : String.utf8EncodeChar c = b :: bs ++ more) : HeadSpec b bs .cutOff
  /-- The byte after `tail` rules every character out, and what follows it does not matter. -/
  | flaw (tail rest : List UInt8) (hpart : tail = [] ∨ head b tail = .cutOff)
      (hnext : ∀ ys, (∀ x ∈ rest.head?, x ∈ ys.head?) → head b (tail ++ ys) = .flaw ys) :
      HeadSpec b (tail ++ rest) (.flaw rest)

/-- A character at the front is read as it is written, whatever follows. -/
theorem head_encodeChar {c : Char} {b : UInt8} {tail : List UInt8}
    (h : String.utf8EncodeChar c = b :: tail) (rest : List UInt8) :
    head b (tail ++ rest) = .char c rest := by
  obtain ⟨d, hd, he⟩ := head_of_shape (h ▸ shape_encodeChar c) rest
  rw [hd, encodeChar_injective (he.trans h.symm)]

namespace HeadSpec

variable {b : UInt8}

theorem of_char {c : Char} {tail : List UInt8} (rest : List UInt8)
    (hc : String.utf8EncodeChar c = b :: tail) :
    HeadSpec b (tail ++ rest) (head b (tail ++ rest)) := by
  rw [head_encodeChar hc]
  exact .char rest hc

theorem of_cutOff {bs more : List UInt8} (h : head b bs = .cutOff)
    (hs : Shape (b :: bs ++ more)) (hm : more ≠ []) : HeadSpec b bs (head b bs) := by
  obtain ⟨c, hc⟩ := exists_encodeChar hs
  rw [h]
  exact .cutOff hm hc

theorem of_flaw {x : UInt8} (tail rest : List UInt8) (hpart : tail = [] ∨ head b tail = .cutOff)
    (h : ∀ ys, head b (tail ++ x :: ys) = .flaw (x :: ys)) :
    HeadSpec b (tail ++ x :: rest) (head b (tail ++ x :: rest)) := by
  rw [h]
  refine .flaw _ _ hpart fun ys hy => ?_
  obtain ⟨ys, rfl⟩ := List.head?_eq_some_iff.1 (hy x rfl)
  exact h ys

end HeadSpec

theorem headSpec_two {b : UInt8} (hb : 0xC2 ≤ b.toNat ∧ b.toNat ≤ 0xDF) :
    ∀ bs, HeadSpec b bs (head b bs)
  | [] =>
    .of_cutOff (by simp [head_two _ hb, headOf2]) (.two hb isTail_least) (List.cons_ne_nil _ _)
  | b2 :: bs => by
    by_cases h2 : isTail b2
    · exact .of_char bs (encodeChar_of_two hb h2)
    · exact .of_flaw [] bs (.inl rfl) fun ys => by simp [head_two _ hb, headOf2, h2]

theorem headSpec_three {b : UInt8} (hb : 0xE0 ≤ b.toNat ∧ b.toNat ≤ 0xEF) :
    ∀ bs, HeadSpec b bs (head b bs)
  | [] => by
    obtain ⟨b2, h2⟩ := exists_isSecondOf3 b
    exact .of_cutOff (by simp [head_three _ hb, headOf3]) (.three hb h2 isTail_least)
      (List.cons_ne_nil _ _)
  | b2 :: bs => by
    -- each byte completes the character, goes on with it or rules it out
    by_cases h2 : isSecondOf3 b b2
    case neg =>
      exact .of_flaw [] bs (.inl rfl) fun ys => by simp [head_three _ hb, headOf3, h2]
    have hpart : head b [b2] = .cutOff := by simp [head_three _ hb, headOf3, h2]
    cases bs with
    | nil => exact .of_cutOff hpart (.three hb h2 isTail_least) (List.cons_ne_nil _ _)
    | cons b3 bs =>
      by_cases h3 : isTail b3
      · exact .of_char bs (encodeChar_of_three hb h2 h3)
      · exact .of_flaw [b2] bs (.inr hpart) fun ys => by simp [head_three _ hb, headOf3, h2, h3]

theorem headSpec_four {b : UInt8} (hb : 0xF0 ≤ b.toNat ∧ b.toNat ≤ 0xF4) :
    ∀ bs, HeadSpec b bs (head b bs)
  | [] => by
    obtain ⟨b2, h2⟩ := exists_isSecondOf4 b
    exact .of_cutOff (by simp [head_four _ hb, headOf4])
      (.four hb h2 isTail_least isTail_least) (List.cons_ne_nil _ _)
  | b2 :: bs => by
    by_cases h2 : isSecondOf4 b b2
    case neg => exact .of_flaw [] bs (.inl rfl) fun ys => by simp [head_four _ hb, headOf4, h2]
    have hpart : head b [b2] = .cutOff := by simp [head_four _ hb, headOf4, h2]
    cases bs with
    | nil =>
      exact .of_cutOff hpart (.four hb h2 isTail_least isTail_least) (List.cons_ne_nil _ _)
    | cons b3 bs =>
      by_cases h3 : isTail b3
      case neg =>
        exact .of_flaw [b2] bs (.inr hpart) fun ys => by simp [head_four _ hb, headOf4, h2, h3]
      have hpart : head b [b2, b3] = .cutOff := by simp [head_four _ hb, headOf4, h2, h3]
      cases bs with
      | nil => exact .of_cutOff hpart (.four hb h2 h3 isTail_least) (List.cons_ne_nil _ _)
      | cons b4 bs =>
        by_cases h4 : isTail b4
        · exact .of_char bs (encodeChar_of_four hb h2 h3 h4)
        · exact .of_flaw [b2, b3] bs (.inr hpart) fun ys => by
            simp [head_four _ hb, headOf4, h2, h3, h4]

/-- **The inversion of `head`**: its answer is one of three, each for its own reason. -/
theorem head_spec (b : UInt8) (bs : List UInt8) : HeadSpec b bs (head b bs) := by
  rcases lead_cases b with hb | hb | hb | hb | hb
  · exact .of_char bs (encodeChar_of_one hb)
  · exact headSpec_two hb bs
  · exact headSpec_three hb bs
  · exact headSpec_four hb bs
  · rw [head_none _ hb]
    exact .flaw [] bs (.inl rfl) fun ys _ => head_none ys hb

/-- A character that was read stays the same whatever is added. -/
theorem head_append_of_char {b : UInt8} {bs rest : List UInt8} {c : Char}
    (h : head b bs = .char c rest) (more : List UInt8) :
    head b (bs ++ more) = .char c (rest ++ more) := by
  have hs := head_spec b bs
  rw [h] at hs
  cases hs with
  | char _ hc => rw [List.append_assoc, head_encodeChar hc]

/-- A flaw that was found stays the same whatever is added. -/
theorem head_append_of_flaw {b : UInt8} {bs rest : List UInt8}
    (h : head b bs = .flaw rest) (more : List UInt8) :
    head b (bs ++ more) = .flaw (rest ++ more) := by
  have hs := head_spec b bs
  rw [h] at hs
  cases hs with
  | flaw _ _ _ hnext =>
    -- the byte that rules every character out is still the next one
    rw [List.append_assoc]
    exact hnext _ fun x hx => by simp_all [List.head?_append]

/-- No character goes on with a byte of its own, such as a slash. -/
theorem head_append_of_cutOff {b x : UInt8} {bs : List UInt8} (h : head b bs = .cutOff)
    (hx : x.toNat < 0x80) (ys : List UInt8) : head b (bs ++ x :: ys) = .flaw (x :: ys) := by
  have htail : isTail x = false := by
    rw [Bool.eq_false_iff, ne_eq, isTail_iff]
    omega
  have hthree : isSecondOf3 b x = false := by
    rw [Bool.eq_false_iff, ne_eq, isSecondOf3_iff]
    omega
  have hfour : isSecondOf4 b x = false := by
    rw [Bool.eq_false_iff, ne_eq, isSecondOf4_iff]
    omega
  rcases lead_cases b with hb | hb | hb | hb | hb
  · rw [head_one _ hb] at h
    cases h
  · rw [head_two _ hb] at h ⊢
    unfold headOf2 at h
    split at h
    · simp [headOf2, htail]
    · split at h <;> cases h
  · rw [head_three _ hb] at h ⊢
    unfold headOf3 at h
    split at h
    · simp [headOf3, hthree]
    · next b2 bs =>
      split at h
      · cases h
      · next h2 =>
        split at h
        · simp_all [headOf3]
        · split at h <;> cases h
  · rw [head_four _ hb] at h ⊢
    unfold headOf4 at h
    split at h
    · simp [headOf4, hfour]
    · next b2 bs =>
      split at h
      · cases h
      · next h2 =>
        split at h
        · simp_all [headOf4]
        · next b3 bs =>
          split at h
          · cases h
          · next h3 =>
            split at h
            · simp_all [headOf4]
            · split at h <;> cases h
  · rw [head_none _ hb] at h
    cases h

theorem head_of_encodeChar_append {b : UInt8} {bs rest : List UInt8} {c : Char}
    (h : String.utf8EncodeChar c ++ rest = b :: bs) : head b bs = .char c rest := by
  obtain ⟨b', tail, hc⟩ := exists_encodeChar_eq_cons c
  rw [hc, List.cons_append, List.cons.injEq] at h
  obtain ⟨rfl, rfl⟩ := h
  exact head_encodeChar hc rest

/-! ### Lenient reading by characters -/

/-- `part` is a flaw at the front of `part ++ rest`: no character stands there, and `part` is
the longest part that begins one, or a single byte if none does. -/
structure Flaw (part rest : List UInt8) : Prop where
  /-- No character stands at the front. -/
  unreadable : ∀ c, ¬ String.utf8EncodeChar c <+: part ++ rest
  /-- The part is a single byte or begins a character. -/
  isPart : part.length = 1 ∨ part ≠ [] ∧ ∃ c, part <+: String.utf8EncodeChar c
  /-- Nothing longer begins a character. -/
  longest : ∀ q, q <+: part ++ rest → part.length < q.length →
    ∀ c, ¬ q <+: String.utf8EncodeChar c

/-- Lenient reading: characters as they are written, and one replacement character for each
flaw. -/
inductive Reading : List UInt8 → List Char → Prop where
  /-- Nothing is left. -/
  | nil : Reading [] []
  /-- A character. -/
  | char {c : Char} {rest : List UInt8} {cs : List Char} (hr : Reading rest cs) :
      Reading (String.utf8EncodeChar c ++ rest) (c :: cs)
  /-- A flaw. -/
  | flaw {part rest : List UInt8} {cs : List Char} (hf : Flaw part rest) (hr : Reading rest cs) :
      Reading (part ++ rest) (replacement :: cs)

namespace Flaw

variable {part rest part' rest' : List UInt8}

theorem ne_nil (h : Flaw part rest) : part ≠ [] := by
  rcases h.isPart with h | h
  · intro hp
    simp [hp] at h
  · exact h.1

theorem length_le (h : Flaw part rest) (h' : Flaw part' rest')
    (he : part ++ rest = part' ++ rest') : part'.length ≤ part.length := by
  refine Nat.le_of_not_lt fun hlt => ?_
  rcases h'.isPart with hone | ⟨-, c, hc⟩
  · have := List.length_pos_iff.2 h.ne_nil
    omega
  · exact h.longest part' (he ▸ List.prefix_append _ _) hlt c hc

/-- There is only one flaw at the front. -/
theorem unique (h : Flaw part rest) (h' : Flaw part' rest')
    (he : part ++ rest = part' ++ rest') : rest = rest' :=
  (List.append_inj he (Nat.le_antisymm (h'.length_le h he.symm) (h.length_le h' he))).2

theorem of_cutOff {b : UInt8} {bs : List UInt8} (h : head b bs = .cutOff) :
    Flaw (b :: bs) [] := by
  have hs := head_spec b bs
  rw [h] at hs
  cases hs with
  | cutOff hm hc =>
    refine ⟨?_, .inr ⟨List.cons_ne_nil _ _, _, hc ▸ List.prefix_append _ _⟩, ?_⟩
    · rintro d ⟨r, hr⟩
      rw [List.append_nil] at hr
      rw [head_of_encodeChar_append hr] at h
      cases h
    · intro q hq hlt
      have := hq.length_le
      rw [List.append_nil] at this
      omega

theorem of_flaw {b : UInt8} {bs : List UInt8} (h : head b bs = .flaw rest) :
    ∃ part, b :: bs = part ++ rest ∧ Flaw part rest := by
  have hs := head_spec b bs
  rw [h] at hs
  cases hs with
  | flaw tail _ hpart hnext =>
    refine ⟨b :: tail, rfl, ?_, ?_, ?_⟩
    · rintro c ⟨r, hr⟩
      rw [List.cons_append] at hr
      rw [head_of_encodeChar_append hr] at h
      cases h
    · rcases hpart with rfl | hcut
      · exact .inl rfl
      · exact (of_cutOff hcut).isPart
    · -- a longer beginning holds the byte that rules every character out
      rintro q ⟨r, hr⟩ hlt c ⟨more, hmore⟩
      obtain ⟨ys, rfl⟩ : ∃ ys, q = b :: tail ++ ys :=
        ⟨_, (List.prefix_iff_eq_append.1 (List.prefix_of_prefix_length_le
          (List.prefix_append _ _) ⟨r, hr⟩ (Nat.le_of_lt hlt))).symm⟩
      have hys : ys ≠ [] := by
        rintro rfl
        simp at hlt
      have hrest : ys ++ r = rest := by simpa using hr
      have hflaw : head b (tail ++ ys) = .flaw ys := by
        refine hnext ys fun x hx => ?_
        rw [← hrest, List.head?_append] at hx
        cases ys with
        | nil => exact absurd rfl hys
        | cons y ys => exact hx
      rw [List.append_assoc, List.cons_append] at hmore
      have hread := head_encodeChar hmore.symm []
      rw [List.append_nil, ← List.append_assoc, head_append_of_flaw hflaw] at hread
      cases hread

end Flaw

/-! ### Reading a whole -/

@[simp] theorem lossyChars_nil : lossyChars [] = [] := by
  rw [lossyChars]

theorem lossyChars_of_char {b : UInt8} {bs rest : List UInt8} {c : Char}
    (h : head b bs = .char c rest) : lossyChars (b :: bs) = c :: lossyChars rest := by
  rw [lossyChars]
  split <;> simp_all

theorem lossyChars_of_flaw {b : UInt8} {bs rest : List UInt8} (h : head b bs = .flaw rest) :
    lossyChars (b :: bs) = replacement :: lossyChars rest := by
  rw [lossyChars]
  split <;> simp_all

theorem lossyChars_of_cutOff {b : UInt8} {bs : List UInt8} (h : head b bs = .cutOff) :
    lossyChars (b :: bs) = [replacement] := by
  rw [lossyChars]
  split <;> simp_all

/-- Induction along what the bytes begin with. -/
theorem headInduction {motive : List UInt8 → Prop} (nil : motive [])
    (char : ∀ {b bs c rest}, head b bs = .char c rest → motive rest → motive (b :: bs))
    (flaw : ∀ {b bs rest}, head b bs = .flaw rest → motive rest → motive (b :: bs))
    (cutOff : ∀ {b bs}, head b bs = .cutOff → motive (b :: bs)) (bytes : List UInt8) :
    motive bytes := by
  induction hn : bytes.length using Nat.strongRecOn generalizing bytes with
  | ind n ih =>
    subst hn
    cases bytes with
    | nil => exact nil
    | cons b bs =>
      have hle := length_rest_head_le b bs
      cases h : head b bs with
      | char c rest =>
        rw [h] at hle
        exact char h (ih rest.length (Nat.lt_succ_of_le hle) rest rfl)
      | flaw rest =>
        rw [h] at hle
        exact flaw h (ih rest.length (Nat.lt_succ_of_le hle) rest rfl)
      | cutOff => exact cutOff h

theorem reading_lossyChars (bytes : List UInt8) : Reading bytes (lossyChars bytes) := by
  induction bytes using headInduction with
  | nil => rw [lossyChars_nil]; exact .nil
  | @char b bs c rest h ih =>
    rw [lossyChars_of_char h]
    have hs := head_spec b bs
    rw [h] at hs
    cases hs with
    | char _ hc =>
      rw [← List.cons_append, ← hc]
      exact .char ih
  | flaw h ih =>
    obtain ⟨part, hbytes, hf⟩ := Flaw.of_flaw h
    rw [lossyChars_of_flaw h, hbytes]
    exact .flaw hf ih
  | @cutOff b bs h =>
    rw [lossyChars_of_cutOff h, ← List.append_nil (b :: bs)]
    exact .flaw (.of_cutOff h) .nil

/-- A character at the front is read first. -/
theorem lossyChars_encodeChar_append (c : Char) (rest : List UInt8) :
    lossyChars (String.utf8EncodeChar c ++ rest) = c :: lossyChars rest := by
  obtain ⟨b, tail, hc⟩ := exists_encodeChar_eq_cons c
  rw [hc, List.cons_append]
  exact lossyChars_of_char (head_encodeChar hc rest)

/-- A flaw at the front is what `head` finds there, or all bytes together are cut off. -/
theorem Flaw.head_cases {b : UInt8} {tail rest : List UInt8} (h : Flaw (b :: tail) rest) :
    head b (tail ++ rest) = .flaw rest ∨ head b (tail ++ rest) = .cutOff := by
  cases hd : head b (tail ++ rest) with
  | char c rest' =>
    -- the front of a flaw is no character
    have hs := head_spec b (tail ++ rest)
    rw [hd] at hs
    generalize hbs : tail ++ rest = bs at hs
    cases hs with
    | char _ hc => exact absurd ⟨_, by rw [hc, List.cons_append, ← hbs]; rfl⟩ (h.unreadable c)
  | flaw rest' =>
    obtain ⟨part', hbytes, hf⟩ := Flaw.of_flaw hd
    left
    rw [h.unique hf (by rw [List.cons_append, hbytes])]
  | cutOff => exact .inr rfl

/-- A flaw at the front is replaced by one character. -/
theorem lossyChars_append_of_flaw {part rest : List UInt8} (h : Flaw part rest) :
    lossyChars (part ++ rest) = replacement :: lossyChars rest := by
  obtain ⟨b, tail, rfl⟩ := List.exists_cons_of_ne_nil h.ne_nil
  rw [List.cons_append]
  rcases h.head_cases with hd | hd
  · exact lossyChars_of_flaw hd
  · -- all bytes together are a flaw, so `part` is all of them
    have hrest : rest = [] := h.unique (.of_cutOff hd) (by simp)
    rw [lossyChars_of_cutOff hd, hrest, lossyChars_nil]

/-- A byte that is a character of its own parts what is read before it from what is read after. -/
theorem lossyChars_append_cons {x : UInt8} (hx : x.toNat < 0x80) (bs ys : List UInt8) :
    lossyChars (bs ++ x :: ys) = lossyChars bs ++ lossyChars (x :: ys) := by
  induction bs using headInduction with
  | nil => simp
  | char h ih =>
    rw [List.cons_append, lossyChars_of_char (head_append_of_char h _), lossyChars_of_char h, ih]
    rfl
  | flaw h ih =>
    rw [List.cons_append, lossyChars_of_flaw (head_append_of_flaw h _), lossyChars_of_flaw h, ih]
    rfl
  | cutOff h =>
    rw [List.cons_append, lossyChars_of_flaw (head_append_of_cutOff h hx ys),
      lossyChars_of_cutOff h]
    rfl

/-- **Lenient reading is what the characters say it is**, and nothing else. -/
theorem reading_iff {bytes : List UInt8} {cs : List Char} :
    Reading bytes cs ↔ cs = lossyChars bytes := by
  refine ⟨fun h => ?_, fun h => h ▸ reading_lossyChars bytes⟩
  induction h with
  | nil => rw [lossyChars_nil]
  | char _ ih => rw [lossyChars_encodeChar_append, ← ih]
  | flaw hf _ ih => rw [lossyChars_append_of_flaw hf, ← ih]

/-- A text is read as it was written. -/
theorem lossyChars_encodeChars (cs : List Char) : lossyChars (encodeChars cs) = cs := by
  induction cs with
  | nil => exact lossyChars_nil
  | cons c cs ih =>
    rw [encodeChars, List.flatMap_cons, lossyChars_encodeChar_append]
    exact congrArg _ ih

theorem lossy_encode (s : String) : lossy (encode s) = s := by
  rw [lossy, encode, lossyChars_encodeChars, String.ofList_toList]

/-! ### Strict reading -/

@[simp] theorem decodeChars?_nil : decodeChars? [] = some [] := by
  rw [decodeChars?]

theorem decodeChars?_of_char {b : UInt8} {bs rest : List UInt8} {c : Char}
    (h : head b bs = .char c rest) :
    decodeChars? (b :: bs) = (decodeChars? rest).map (c :: ·) := by
  rw [decodeChars?]
  split <;> simp_all

theorem decodeChars?_of_flaw {b : UInt8} {bs rest : List UInt8} (h : head b bs = .flaw rest) :
    decodeChars? (b :: bs) = none := by
  rw [decodeChars?]
  split <;> simp_all

theorem decodeChars?_of_cutOff {b : UInt8} {bs : List UInt8} (h : head b bs = .cutOff) :
    decodeChars? (b :: bs) = none := by
  rw [decodeChars?]
  split <;> simp_all

theorem decodeChars?_encodeChars (cs : List Char) : decodeChars? (encodeChars cs) = some cs := by
  induction cs with
  | nil => exact decodeChars?_nil
  | cons c cs ih =>
    obtain ⟨b, tail, hc⟩ := exists_encodeChar_eq_cons c
    have hbytes : encodeChars (c :: cs) = b :: (tail ++ encodeChars cs) := by
      rw [encodeChars, List.flatMap_cons, hc]
      rfl
    rw [hbytes, decodeChars?_of_char (head_encodeChar hc _), ih, Option.map_some]

/-- What strict reading gives is written as it was read. -/
theorem encodeChars_of_decodeChars? {bytes : List UInt8} {cs : List Char}
    (h : decodeChars? bytes = some cs) : encodeChars cs = bytes := by
  induction bytes using headInduction generalizing cs with
  | nil =>
    rw [decodeChars?_nil] at h
    rw [← Option.some.inj h]
    rfl
  | @char b bs c rest hhead ih =>
    rw [decodeChars?_of_char hhead] at h
    obtain ⟨ds, hds, rfl⟩ := Option.map_eq_some_iff.1 h
    have hs := head_spec b bs
    rw [hhead] at hs
    cases hs with
    | char _ hc =>
      rw [encodeChars, List.flatMap_cons, hc, ← encodeChars, ih hds]
      rfl
  | flaw hhead _ =>
    rw [decodeChars?_of_flaw hhead] at h
    cases h
  | cutOff hhead =>
    rw [decodeChars?_of_cutOff hhead] at h
    cases h

/-- **Strict reading gives a text exactly for the bytes of that text.** -/
theorem decode?_eq_some_iff {bytes : List UInt8} {s : String} :
    decode? bytes = some s ↔ bytes = encode s := by
  rw [decode?, Option.map_eq_some_iff]
  constructor
  · rintro ⟨cs, hcs, rfl⟩
    rw [encode, String.toList_ofList, encodeChars_of_decodeChars? hcs]
  · rintro rfl
    exact ⟨s.toList, decodeChars?_encodeChars _, String.ofList_toList⟩

/-- A character that is no control is written without bytes below the blank. -/
theorem le_toNat_of_mem_encodeChar {c : Char} (hc : 0x20 ≤ c.toNat) {b : UInt8}
    (hb : b ∈ String.utf8EncodeChar c) : 0x20 ≤ b.toNat := by
  have hs := shape_encodeChar c
  generalize hbytes : String.utf8EncodeChar c = bytes at hs hb
  cases hs with
  | one hone =>
    rw [List.mem_singleton] at hb
    subst hb
    rw [encodeChar_injective (hbytes.trans (encodeChar_of_one hone).symm)] at hc
    exact hc.trans_eq (toNat_val_ofNat (.inl (by omega)))
  | two hlead h2 =>
    rw [isTail_iff] at h2
    simp only [List.mem_cons, List.not_mem_nil, or_false] at hb
    rcases hb with rfl | rfl <;> omega
  | three hlead h2 h3 =>
    rw [isSecondOf3_iff] at h2
    rw [isTail_iff] at h3
    simp only [List.mem_cons, List.not_mem_nil, or_false] at hb
    rcases hb with rfl | rfl | rfl <;> omega
  | four hlead h2 h3 h4 =>
    rw [isSecondOf4_iff] at h2
    rw [isTail_iff] at h3 h4
    simp only [List.mem_cons, List.not_mem_nil, or_false] at hb
    rcases hb with rfl | rfl | rfl | rfl <;> omega

/-! ### Reading piece by piece -/

namespace Decoder

@[simp] theorem settle_nil : settle [] = ([], []) := by
  rw [settle]

theorem settle_of_char {b : UInt8} {bs rest : List UInt8} {c : Char}
    (h : head b bs = .char c rest) :
    settle (b :: bs) = (c :: (settle rest).1, (settle rest).2) := by
  rw [settle]
  split <;> simp_all

theorem settle_of_flaw {b : UInt8} {bs rest : List UInt8} (h : head b bs = .flaw rest) :
    settle (b :: bs) = (replacement :: (settle rest).1, (settle rest).2) := by
  rw [settle]
  split <;> simp_all

theorem settle_of_cutOff {b : UInt8} {bs : List UInt8} (h : head b bs = .cutOff) :
    settle (b :: bs) = ([], b :: bs) := by
  rw [settle]
  split <;> simp_all

/-- **What is kept of one piece is all that the next needs**: reading `xs ++ ys` is reading
`xs`, and then what is left of it together with `ys`. -/
theorem settle_append (xs ys : List UInt8) :
    settle (xs ++ ys) =
      ((settle xs).1 ++ (settle ((settle xs).2 ++ ys)).1, (settle ((settle xs).2 ++ ys)).2) := by
  -- what was read of `xs` stays the same when `ys` is added, up to a beginning that is cut off
  induction xs using headInduction with
  | nil => simp
  | char h ih =>
    rw [List.cons_append, settle_of_char (head_append_of_char h ys), settle_of_char h, ih]
    rfl
  | flaw h ih =>
    rw [List.cons_append, settle_of_flaw (head_append_of_flaw h ys), settle_of_flaw h, ih]
    rfl
  | cutOff h => rw [settle_of_cutOff h, List.nil_append]

/-- Reading a whole is reading for certain, and then what is left. -/
theorem lossyChars_eq_settle (bytes : List UInt8) :
    lossyChars bytes = (settle bytes).1 ++ lossyChars (settle bytes).2 := by
  induction bytes using headInduction with
  | nil => simp
  | char h ih =>
    rw [lossyChars_of_char h, settle_of_char h, ih]
    rfl
  | flaw h ih =>
    rw [lossyChars_of_flaw h, settle_of_flaw h, ih]
    rfl
  | cutOff h => rw [settle_of_cutOff h, List.nil_append]

end Decoder

end ScenePreview.Text.Utf8

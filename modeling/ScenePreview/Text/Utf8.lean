/-!
# UTF-8

Text as bytes, and bytes as text. Bytes that are no text are read in two ways: strictly,
where any flaw refuses the whole, and leniently, where each flaw gives one replacement
character.

A flaw is a *maximal ill-formed part*: the longest run of bytes that begins some encoding
and cannot be continued to one by the byte after it, or a single byte that begins none.

## Main definitions

* `encode` — the bytes of a text.
* `Head`, `head` — what the bytes begin with: a character, a flaw, or the beginning of a
  character that the bytes do not complete.
* `decode?` — strict reading.
* `lossy` — lenient reading of a whole.
* `Decoder` — lenient reading piece by piece: what may still become a character is kept
  until the next piece.

## References

`Decoder` is the reference's `Utf8Decoder`.
-/

namespace ScenePreview.Text.Utf8

/-- The character that stands for bytes which are no text. -/
def replacement : Char := '\uFFFD'

/-- The bytes of a list of characters. -/
def encodeChars (cs : List Char) : List UInt8 := cs.flatMap String.utf8EncodeChar

/-- The bytes of a text. -/
def encode (s : String) : List UInt8 := encodeChars s.toList

/-! ### The beginning of a byte list -/

/-- What a non-empty list of bytes begins with. -/
inductive Head where
  /-- A character, and the bytes after it. -/
  | char (c : Char) (rest : List UInt8)
  /-- A maximal ill-formed part, and the bytes after it. -/
  | flaw (rest : List UInt8)
  /-- All bytes are the beginning of a character whose end is missing. -/
  | cutOff
  deriving Repr, DecidableEq

/-- The bytes after the first one of a character. -/
def isTail (b : UInt8) : Bool := 0x80 ≤ b && b ≤ 0xBF

/-- The six bits that a byte after the first one carries. -/
def tailBits (b : UInt8) : Nat := b.toNat % 64

/-- The second bytes that may follow `b` in a character of three bytes: neither overlong
forms nor surrogates. -/
def isSecondOf3 (b b2 : UInt8) : Bool :=
  if b = 0xE0 then 0xA0 ≤ b2 && b2 ≤ 0xBF
  else if b = 0xED then 0x80 ≤ b2 && b2 ≤ 0x9F
  else isTail b2

/-- The second bytes that may follow `b` in a character of four bytes: neither overlong
forms nor values above U+10FFFF. -/
def isSecondOf4 (b b2 : UInt8) : Bool :=
  if b = 0xF0 then 0x90 ≤ b2 && b2 ≤ 0xBF
  else if b = 0xF4 then 0x80 ≤ b2 && b2 ≤ 0x8F
  else isTail b2

/-- What a list of bytes with first byte `b` and others `bs` begins with, for `b` the first
byte of a two-byte character. -/
def headOf2 (b : UInt8) : List UInt8 → Head
  | [] => .cutOff
  | b2 :: bs =>
    if isTail b2 then .char (Char.ofNat (b.toNat % 32 * 64 + tailBits b2)) bs
    else .flaw (b2 :: bs)

/-- What a list of bytes with first byte `b` and others `bs` begins with, for `b` the first
byte of a three-byte character. -/
def headOf3 (b : UInt8) : List UInt8 → Head
  | [] => .cutOff
  | b2 :: bs =>
    if !isSecondOf3 b b2 then .flaw (b2 :: bs)
    else match bs with
      | [] => .cutOff
      | b3 :: bs =>
        if !isTail b3 then .flaw (b3 :: bs)
        else .char (Char.ofNat ((b.toNat % 16 * 64 + tailBits b2) * 64 + tailBits b3)) bs

/-- What a list of bytes with first byte `b` and others `bs` begins with, for `b` the first
byte of a four-byte character. -/
def headOf4 (b : UInt8) : List UInt8 → Head
  | [] => .cutOff
  | b2 :: bs =>
    if !isSecondOf4 b b2 then .flaw (b2 :: bs)
    else match bs with
      | [] => .cutOff
      | b3 :: bs =>
        if !isTail b3 then .flaw (b3 :: bs)
        else match bs with
          | [] => .cutOff
          | b4 :: bs =>
            if !isTail b4 then .flaw (b4 :: bs)
            else
              .char (Char.ofNat
                (((b.toNat % 8 * 64 + tailBits b2) * 64 + tailBits b3) * 64 + tailBits b4)) bs

/-- What the bytes `b :: bs` begin with. -/
def head (b : UInt8) (bs : List UInt8) : Head :=
  if b < 0x80 then .char (Char.ofNat b.toNat) bs
  else if 0xC2 ≤ b && b ≤ 0xDF then headOf2 b bs
  else if 0xE0 ≤ b && b ≤ 0xEF then headOf3 b bs
  else if 0xF0 ≤ b && b ≤ 0xF4 then headOf4 b bs
  else .flaw bs

/-- The bytes after a character or a flaw. -/
def Head.rest : Head → List UInt8
  | .char _ rest => rest
  | .flaw rest => rest
  | .cutOff => []

/-- A character or a flaw takes at least the first byte. -/
theorem length_rest_head_le (b : UInt8) (bs : List UInt8) :
    (head b bs).rest.length ≤ bs.length := by
  unfold head headOf2 headOf3 headOf4
  repeat' split
  all_goals simp_all only [Head.rest, List.length_cons, List.length_nil]
  all_goals omega

/-! ### Reading a whole -/

/-- The text whose bytes these are, if they are the bytes of a text. -/
def decodeChars? (bytes : List UInt8) : Option (List Char) :=
  match bytes with
  | [] => some []
  | b :: bs =>
    match h : head b bs with
    | .char c rest =>
      have : rest.length ≤ bs.length := by simpa [h, Head.rest] using length_rest_head_le b bs
      (decodeChars? rest).map (c :: ·)
    | .flaw _ => none
    | .cutOff => none
termination_by bytes.length

/-- The text whose bytes these are, if they are the bytes of a text. -/
def decode? (bytes : List UInt8) : Option String := (decodeChars? bytes).map String.ofList

/-- Lenient reading: each flaw, and a character that the end cuts off, gives one
replacement character. -/
def lossyChars (bytes : List UInt8) : List Char :=
  match bytes with
  | [] => []
  | b :: bs =>
    match h : head b bs with
    | .char c rest =>
      have : rest.length ≤ bs.length := by simpa [h, Head.rest] using length_rest_head_le b bs
      c :: lossyChars rest
    | .flaw rest =>
      have : rest.length ≤ bs.length := by simpa [h, Head.rest] using length_rest_head_le b bs
      replacement :: lossyChars rest
    | .cutOff => [replacement]
termination_by bytes.length

/-- Lenient reading of a whole. -/
def lossy (bytes : List UInt8) : String := String.ofList (lossyChars bytes)

/-! ### Reading piece by piece -/

/-- A lenient reader between two pieces. -/
structure Decoder where
  /-- The beginning of a character that the pieces so far do not complete. -/
  pending : List UInt8 := []
  deriving Repr, DecidableEq

namespace Decoder

/-- The characters that `bytes` hold for certain, whatever follows, and the bytes at the
end that may still become a character. -/
def settle (bytes : List UInt8) : List Char × List UInt8 :=
  match bytes with
  | [] => ([], [])
  | b :: bs =>
    match h : head b bs with
    | .char c rest =>
      have : rest.length ≤ bs.length := by simpa [h, Head.rest] using length_rest_head_le b bs
      let (cs, pending) := settle rest
      (c :: cs, pending)
    | .flaw rest =>
      have : rest.length ≤ bs.length := by simpa [h, Head.rest] using length_rest_head_le b bs
      let (cs, pending) := settle rest
      (replacement :: cs, pending)
    | .cutOff => ([], b :: bs)
termination_by bytes.length

/-- The text that the next piece completes, and the reader after it. -/
def decode (d : Decoder) (piece : List UInt8) : String × Decoder :=
  let (cs, pending) := settle (d.pending ++ piece)
  (String.ofList cs, ⟨pending⟩)

/-- The text that the end of the pieces leaves, and the reader after it. -/
def finish (d : Decoder) : String × Decoder := (lossy d.pending, {})

end Decoder

end ScenePreview.Text.Utf8

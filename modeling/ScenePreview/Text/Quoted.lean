import ScenePreview.Text.Hex
import ScenePreview.Text.Invisible
import ScenePreview.Text.Utf8

/-!
# Quoted text

Bytes in double quotes, as error messages show them: quotes, backslashes and everything that
does not show by itself is escaped, and so is every byte that is no text.
-/

namespace ScenePreview.Text

/-- A number in hexadecimal digits without leading zeros. -/
def hexDigits (n : Nat) : List Char := Nat.toDigits 16 n

/-- One character in double quotes. -/
def quoteChar (c : Char) : List Char :=
  if c = '\x00' then ['\\', '0']
  else if c = '\t' then ['\\', 't']
  else if c = '\r' then ['\\', 'r']
  else if c = '\n' then ['\\', 'n']
  else if c = '\\' ∨ c = '"' ∨ c = '\'' then ['\\', c]
  else if isExtending c || isNonprinting c then
    ['\\', 'u', '{'] ++ hexDigits c.toNat ++ ['}']
  else [c]

/-- One byte that is no text in double quotes. -/
def quoteByte (b : UInt8) : List Char := '\\' :: 'x' :: (hexByte b).map Char.toUpper

/-- Bytes as they stand between double quotes. -/
def quoteBytes (bytes : List UInt8) : List Char :=
  match bytes with
  | [] => []
  | b :: bs =>
    match h : Utf8.head b bs with
    | .char c rest =>
      have : rest.length ≤ bs.length := by
        simpa [h, Utf8.Head.rest] using Utf8.length_rest_head_le b bs
      quoteChar c ++ quoteBytes rest
    | .flaw rest =>
      have : rest.length ≤ bs.length := by
        simpa [h, Utf8.Head.rest] using Utf8.length_rest_head_le b bs
      ((b :: bs).take (bs.length + 1 - rest.length)).flatMap quoteByte ++ quoteBytes rest
    | .cutOff => (b :: bs).flatMap quoteByte
termination_by bytes.length

/-- Bytes in double quotes. -/
def quoted (bytes : List UInt8) : String := String.ofList ('"' :: quoteBytes bytes ++ ['"'])

end ScenePreview.Text

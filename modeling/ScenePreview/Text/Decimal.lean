/-!
# Decimal text

Natural numbers and integers in base ten, written and read.

## Main definitions

* `decimal` — the digits of a natural number, without leading zeros.
* `padded` — the same, filled with zeros on the left up to a width.
* `ofDigits?` — the number that a non-empty list of digits stands for.
-/

namespace ScenePreview.Text

/-- The digits of a natural number, most significant first. -/
def digits (n : Nat) : List Char := Nat.toDigits 10 n

/-- A natural number in base ten, without leading zeros. -/
def decimal (n : Nat) : String := String.ofList (digits n)

/-- An integer in base ten, a minus sign before the digits of a negative one. -/
def signedDecimal : Int → String
  | .ofNat n => decimal n
  | .negSucc n => "-" ++ decimal (n + 1)

/-- The digits of `n`, with zeros on the left up to `width` digits. -/
def padded (width n : Nat) : List Char :=
  List.replicate (width - (digits n).length) '0' ++ digits n

/-- The value of a digit. -/
def digitValue (c : Char) : Nat := c.toNat - '0'.toNat

/-- The number that a list of digits stands for; the empty list stands for zero. -/
def ofDigits (cs : List Char) : Nat := cs.foldl (fun n c => 10 * n + digitValue c) 0

/-- The number that a non-empty list of digits stands for. -/
def ofDigits? (cs : List Char) : Option Nat :=
  if cs ≠ [] ∧ cs.all Char.isDigit then some (ofDigits cs) else none

end ScenePreview.Text

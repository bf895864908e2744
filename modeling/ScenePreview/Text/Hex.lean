/-!
# Hexadecimal digits

Digits in base sixteen, written in lower case and read in either case.
-/

namespace ScenePreview.Text

/-- A hexadecimal digit in lower case. -/
def hexChar (d : Fin 16) : Char := Nat.digitChar d

/-- The value of a hexadecimal digit in either case. -/
def hexValue? (c : Char) : Option (Fin 16) :=
  if c.isDigit then some (Fin.ofNat 16 (c.toNat - '0'.toNat))
  else if 'a' ≤ c ∧ c ≤ 'f' then some (Fin.ofNat 16 (c.toNat - 'a'.toNat + 10))
  else if 'A' ≤ c ∧ c ≤ 'F' then some (Fin.ofNat 16 (c.toNat - 'A'.toNat + 10))
  else none

/-- The two hexadecimal digits of a byte. -/
def hexByte (b : UInt8) : List Char :=
  [hexChar (Fin.ofNat 16 (b.toNat / 16)), hexChar (Fin.ofNat 16 b.toNat)]

/-- The number that hexadecimal digits stand for. -/
def ofHexDigits (ds : List (Fin 16)) : Nat := ds.foldl (fun n d => 16 * n + d.val) 0

/-- A number below `16 ^ width` as `width` hexadecimal digits. -/
def hexPadded : Nat → Nat → List Char
  | 0, _ => []
  | width + 1, n => hexPadded width (n / 16) ++ [hexChar (Fin.ofNat 16 n)]

end ScenePreview.Text

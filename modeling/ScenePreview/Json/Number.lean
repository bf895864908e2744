import ScenePreview.Json.Basic
import ScenePreview.Text.Decimal

/-!
# The range of JSON numbers

Some readers turn every number into a double: a 64-bit significand times a power of ten.
Here is the exact condition under which that does not exceed the largest double.

## Main definitions

* `Json.Number.significand` — the significand and the power of ten.
* `Json.Number.inRange` — whether the product is a finite double.
* `Json.isWhole` — whether every string is text and every number is in range.
-/

namespace ScenePreview.Json

namespace Number

/-- The largest significand. -/
def maxSignificand : Nat := Nat.pow 2 64 - 1

/-- A significand with the next digit, if it still fits. -/
def push? (m : Nat) (c : Char) : Option Nat :=
  let m' := m * 10 + Text.digitValue c
  if m' ≤ maxSignificand then some m' else none

/-- The longest front part of the digits that fits, and how many digits are left. -/
def fill : Nat → List Char → Nat × Nat
  | m, [] => (m, 0)
  | m, c :: cs =>
    match push? m c with
    | some m' => fill m' cs
    | none => (m, cs.length + 1)

/-- The significand and the power of ten of a number. Digits before the point that do not
fit raise the power; those after it are dropped. -/
def significand (n : Number) : Nat × Int :=
  let (m, excess) := fill 0 n.integer
  let (m', dropped) := fill m n.fraction
  let shift : Int := excess - ((n.fraction.length - dropped : Nat) : Int)
  let exp : Int := match n.exponent with
    | some (true, ds) => -(Text.ofDigits ds : Int)
    | some (false, ds) => Text.ofDigits ds
    | none => 0
  (m', shift + exp)

/-- A number rounded to 53 binary digits, a tie to the even neighbour. -/
def round53 (n : Nat) : Nat :=
  let shift := n.log2 - 52
  let unit := Nat.pow 2 shift
  let q := n / unit
  let r := n % unit
  let up := unit < 2 * r ∨ (2 * r = unit ∧ q % 2 = 1)
  (if up then q + 1 else q) * unit

/-- The least number that rounds to no finite double. -/
def overflow : Nat := Nat.pow 2 1024 - Nat.pow 2 970

/-- Whether a number is in the range of doubles. -/
def inRange (n : Number) : Bool :=
  let (m, e) := n.significand
  if m = 0 ∨ e < 0 then true
  else if e > 308 then false
  else round53 m * round53 (Nat.pow 10 e.toNat) < overflow

end Number

mutual

/-- Whether every string is text and every number is in range. -/
def isWhole : Json → Bool
  | .number n => n.inRange
  | .string s => s.isSome
  | .array items => areWhole items
  | .object members => membersAreWhole members
  | _ => true

/-- Whether all of some items are whole. -/
def areWhole : List Json → Bool
  | [] => true
  | v :: vs => isWhole v && areWhole vs

/-- Whether the keys of some members are text and their values whole. -/
def membersAreWhole : List (Option String × Json) → Bool
  | [] => true
  | (k, v) :: ms => k.isSome && isWhole v && membersAreWhole ms

end

end ScenePreview.Json

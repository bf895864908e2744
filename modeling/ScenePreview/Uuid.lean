import ScenePreview.Text.Hex

/-!
# Universally unique identifiers

An identifier is 32 hexadecimal digits. It is written in lower case with hyphens, and read
in four spellings and either case.

## Main definitions

* `Uuid`, `Uuid.render` — an identifier and its written form.
* `Uuid.parse?` — reading plain, hyphenated, braced and `urn:uuid:` spellings.
-/

namespace ScenePreview

/-- An identifier of 128 bits, as its hexadecimal digits. -/
structure Uuid where
  /-- The digits, most significant first. -/
  digits : List (Fin 16)
  /-- There are 32 digits. -/
  length_digits : digits.length = 32
  deriving Repr, DecidableEq

namespace Uuid

/-- The identifier with all digits zero. -/
def nil : Uuid := ⟨List.replicate 32 ⟨0, by decide⟩, List.length_replicate⟩

instance : Inhabited Uuid := ⟨nil⟩

/-- The sizes of the groups between hyphens. -/
def groups : List Nat := [8, 4, 4, 4, 12]

/-- A list cut into groups with hyphens between them. -/
def hyphenate : List Nat → List Char → List Char
  | [], cs => cs
  | [_], cs => cs
  | n :: ns, cs => cs.take n ++ '-' :: hyphenate ns (cs.drop n)

/-- The characters of a hyphenated spelling without the hyphens, which must stand between
the groups. -/
def unhyphenate? : List Nat → List Char → Option (List Char)
  | [], cs => if cs = [] then some [] else none
  | [n], cs => if cs.length = n then some cs else none
  | n :: ns, cs =>
    match cs.drop n with
    | '-' :: rest => (unhyphenate? ns rest).map (cs.take n ++ ·)
    | _ => none

/-- An identifier in lower case with hyphens. -/
def render (u : Uuid) : String := String.ofList (hyphenate groups (u.digits.map Text.hexChar))

/-- The identifier with the given digits. -/
def ofHex? (cs : List Char) : Option Uuid :=
  (cs.mapM Text.hexValue?).bind fun ds =>
    if h : ds.length = 32 then some ⟨ds, h⟩ else none

/-- The hyphenated spelling inside the braced or prefixed one, told apart by length. -/
def core? (cs : List Char) : Option (List Char) :=
  if cs.length = 32 then some cs
  else if cs.length = 36 then unhyphenate? groups cs
  else if cs.length = 38 then
    if cs.head? = some '{' ∧ cs.getLast? = some '}' then
      unhyphenate? groups ((cs.drop 1).take 36)
    else none
  else if cs.length = 45 then
    if cs.take 9 = "urn:uuid:".toList then unhyphenate? groups (cs.drop 9) else none
  else none

/-- The identifier that a text spells. -/
def parse? (s : String) : Option Uuid := (core? s.toList).bind ofHex?

end Uuid

end ScenePreview

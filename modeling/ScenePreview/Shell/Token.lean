import ScenePreview.Shell.Syntax
import ScenePreview.Text.Utf8

/-!
# The tokens of shell scripts

A script is read byte by byte, each byte taken for the character with its number.

## Main definitions

* `Token` — words, signs between commands, and signs of redirections, with their lines.
* `Token.scan?` — the tokens of a script.
-/

namespace ScenePreview.Shell

/-- A sign between commands. -/
inductive Sign where
  /-- The end of a line. -/
  | newline
  /-- A semicolon. -/
  | semicolon
  /-- Two ampersands. -/
  | and
  /-- Two bars. -/
  | or
  deriving Repr, DecidableEq

/-- The smallest part of a script that has a meaning. -/
inductive Token.Kind where
  /-- A word. -/
  | word (w : Word)
  /-- A sign between commands. -/
  | sign (s : Sign)
  /-- A sign of a redirection, with the number of the stream. -/
  | redirect (stream : Nat) (kind : Redirect.Kind)
  deriving Repr, DecidableEq

/-- A token with its line. -/
structure Token where
  /-- The line that it begins on. -/
  line : Nat
  /-- What it is. -/
  kind : Token.Kind
  deriving Repr, DecidableEq

/-- A byte as the character with its number. -/
def charOfByte (b : UInt8) : Char := Char.ofNat b.toNat

/-- The byte that a character with a small number stands for. -/
def byteOfChar (c : Char) : UInt8 := UInt8.ofNat c.toNat

/-- Characters with small numbers as bytes. -/
def bytesOf (cs : List Char) : List UInt8 := cs.map byteOfChar

namespace Token

/-- The mark around text in which nothing has a meaning. -/
def apostrophe : Char := Char.ofNat 39

/-- Whether a character begins the name of a variable. -/
def isNameStart (c : Char) : Bool := c.isAlpha || c == '_'

/-- Whether a character goes on with the name of a variable. -/
def isNameRest (c : Char) : Bool := c.isAlphanum || c == '_'

/-- Whether a character ends a word that is not quoted. -/
def endsWord (c : Char) : Bool := " \t\n;&|<>()".toList.contains c

/-- The characters that a backslash takes the meaning from inside of quotes. -/
def escapable (c : Char) : Bool := c == '$' || c == '"' || c == '\\' || c == Char.ofNat 96

/-! ### Parameters -/

/-- The parameter that one character stands for. -/
def special? (c : Char) : Option Parameter :=
  match c with
  | '#' => some .count
  | '@' => some .each
  | '*' => some .joined
  | '?' => some .status
  | '$' => some .process
  | c => if c.isDigit then some (.argument (c.toNat - '0'.toNat)) else none

/-- The parameter at the front, and what follows it. -/
def parameter? (cs : List Char) : Option (Parameter × List Char) :=
  match cs with
  | [] => none
  | c :: rest =>
    if isNameStart c then
      some (.named (bytesOf (c :: rest.takeWhile isNameRest)), rest.dropWhile isNameRest)
    else (special? c).map (·, rest)

/-- What follows the parameter between braces. -/
def modifier? (cs : List Char) : Option Modifier :=
  match cs with
  | [] => some .plain
  | ':' :: '-' :: text => some (.fallback (bytesOf text))
  | ':' :: '+' :: text => some (.alternative (bytesOf text))
  | '%' :: '%' :: pattern => some (.cutEnd true (bytesOf pattern))
  | '%' :: pattern => some (.cutEnd false (bytesOf pattern))
  | '#' :: '#' :: pattern => some (.cutFront true (bytesOf pattern))
  | '#' :: pattern => some (.cutFront false (bytesOf pattern))
  | _ => none

/-- The parameter with its modifier between braces. -/
def braced? (cs : List Char) : Option (Parameter × Modifier) :=
  match cs with
  | '#' :: name@(_ :: _) => do
    match ← parameter? name with
    | (p, []) => return (p, .length)
    | _ => none
  | _ => do
    let (p, rest) ← parameter? cs
    return (p, ← modifier? rest)

/-- What stands after a dollar sign, and what follows it. A dollar sign before anything else
is one. -/
def dollar? (quoted : Bool) (cs : List Char) : Option (Part × List Char) :=
  let brace := Char.ofNat 123
  let closing := Char.ofNat 125
  match cs with
  | [] => some (.text (bytesOf ['$']) quoted, [])
  | c :: rest =>
    if c = brace then
      match rest.dropWhile (· != closing) with
      | [] => none
      | _ :: after => do
        let (p, m) ← braced? (rest.takeWhile (· != closing))
        return (.value p m quoted, after)
    else if c = '(' then none
    else match parameter? cs with
      | some (p, after) => some (.value p .plain quoted, after)
      | none => some (.text (bytesOf ['$']) quoted, cs)

/-! ### Words -/

/-- The parts of the word at the front, and what follows it. Inside of quotes the word ends
with the closing one. -/
def word? : Nat → Bool → List Char → Option (Word × List Char)
  | 0, _, _ => none
  | _, true, [] => none
  | _, false, [] => some ([], [])
  | fuel + 1, quoted, c :: rest =>
    if c = '"' then
      if quoted then some ([], rest)
      else do
        let (inner, rest) ← word? fuel true rest
        let (more, rest) ← word? fuel false rest
        return ((if inner = [] then [.text [] true] else inner) ++ more, rest)
    else if c = apostrophe ∧ !quoted then
      match rest.dropWhile (· != apostrophe) with
      | [] => none
      | _ :: after => do
        let (more, after) ← word? fuel false after
        return (.text (bytesOf (rest.takeWhile (· != apostrophe))) true :: more, after)
    else if c = '$' then do
      let (part, rest) ← dollar? quoted rest
      let (more, rest) ← word? fuel quoted rest
      return (part :: more, rest)
    else if c = '\\' then
      match rest with
      | [] => some ([.text (bytesOf [c]) true], [])
      | d :: rest => do
        let (more, rest) ← word? fuel quoted rest
        if d = '\n' then return (more, rest)
        else if quoted ∧ !escapable d then return (.text (bytesOf [c, d]) true :: more, rest)
        else return (.text (bytesOf [d]) true :: more, rest)
    else if endsWord c ∧ !quoted then some ([], c :: rest)
    else do
      let (more, rest) ← word? fuel quoted rest
      return (.text (bytesOf [c]) quoted :: more, rest)

/-! ### Scripts -/

/-- The sign at the front that is no part of a word, and what follows it. -/
def sign? (stream : Option Nat) (cs : List Char) : Option (Kind × List Char) :=
  match cs with
  | '\n' :: rest => some (.sign .newline, rest)
  | ';' :: rest => some (.sign .semicolon, rest)
  | '&' :: '&' :: rest => some (.sign .and, rest)
  | '|' :: '|' :: rest => some (.sign .or, rest)
  | '>' :: '>' :: rest => some (.redirect (stream.getD 1) .append, rest)
  | '>' :: '&' :: rest => some (.redirect (stream.getD 1) .duplicate, rest)
  | '>' :: rest => some (.redirect (stream.getD 1) .output, rest)
  | '<' :: rest => some (.redirect (stream.getD 0) .input, rest)
  | _ => none

/-- The number of a stream before the sign of a redirection, and what follows it. -/
def stream? (cs : List Char) : Option (Nat × List Char) :=
  match cs with
  | c :: rest =>
    if c.isDigit ∧ (rest.head? = some '>' ∨ rest.head? = some '<') then
      some (c.toNat - '0'.toNat, rest)
    else none
  | [] => none

/-- How many lines end between two points of a script. -/
def linesBetween (start stop : List Char) : Nat :=
  (start.take (start.length - stop.length)).count '\n'

/-- The tokens from a line on. -/
def scanFrom : Nat → Nat → List Char → Option (List Token)
  | 0, _, _ => none
  | _, _, [] => some []
  | fuel + 1, line, c :: rest =>
    let go (kind : Kind) (after : List Char) : Option (List Token) := do
      let more ← scanFrom fuel (line + linesBetween (c :: rest) after) after
      return ⟨line, kind⟩ :: more
    if c = ' ' ∨ c = '\t' then scanFrom fuel line rest
    else if c = '\\' ∧ rest.head? = some '\n' then scanFrom fuel (line + 1) (rest.drop 1)
    else if c = '#' then scanFrom fuel line (rest.dropWhile (· != '\n'))
    else match stream? (c :: rest) with
      | some (n, after) => do
        let (kind, after) ← sign? (some n) after
        go kind after
      | none =>
        if endsWord c then do
          let (kind, after) ← sign? none (c :: rest)
          go kind after
        else do
          let (w, after) ← word? (rest.length + 2) false (c :: rest)
          go (.word w) after

/-- The tokens of a script, if it has only such as are known. -/
def scan? (script : List UInt8) : Option (List Token) :=
  let cs := script.map charOfByte
  scanFrom (cs.length + 1) 1 cs

end Token

end ScenePreview.Shell

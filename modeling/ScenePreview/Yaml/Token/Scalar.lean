import ScenePreview.Text.Hex
import ScenePreview.Yaml.Token.Cursor

/-!
# Scalars of YAML

Plain, quoted and block scalars, with their escapes and the folding of their lines.

## Main definitions

* `Gap`, `Gap.fold` — blanks and line ends between two words, and what they stand for.
* `Reader.quotedScalar`, `Reader.plainScalar`, `Reader.blockScalar` — the three kinds.
-/

namespace ScenePreview.Yaml

/-! ### Blanks and line ends inside a scalar -/

/-- Blanks and line ends between two words. -/
structure Gap where
  /-- The blanks before the first line end. -/
  blanks : List Char := []
  /-- Whether a line ended. -/
  broken : Bool := false
  /-- What the first line end stands for. -/
  first : List Char := []
  /-- What the other line ends stand for. -/
  others : List Char := []
  deriving Repr, DecidableEq

/-- What a gap stands for: the blanks, or one blank for a single line end, or all line ends
but the first. -/
def Gap.fold (g : Gap) : List Char :=
  if !g.broken then g.blanks
  else if g.first.head? = some '\n' then (if g.others = [] then [' '] else g.others)
  else g.first ++ g.others

namespace Reader

/-- Reads a gap that continues `g`. Where lines ended, a tab left of column `indent` is
refused. -/
def gapFrom (indent : Int) : Nat → Gap → Reader Gap
  | 0, g => return g
  | fuel + 1, g => do
    match ← peek with
    | none => return g
    | some c =>
      if isBlank c then
        if g.broken && c == '\t' && (← get).column < indent then failure
        skip 1
        gapFrom indent fuel (if g.broken then g else { g with blanks := g.blanks ++ [c] })
      else if isBreak c then
        let b ← lineBreak
        gapFrom indent fuel
          (if g.broken then { g with others := g.others ++ b }
           else { g with blanks := [], broken := true, first := b })
      else return g

/-- Reads the blanks and line ends that follow. -/
def gap (indent : Int) (g : Gap) : Reader Gap := do
  gapFrom indent ((← get).rest.length + 1) g

/-! ### Quoted scalars -/

/-- The character that an escape of one letter stands for. -/
def escaped? (c : Char) : Option Char :=
  match c with
  | '0' => some '\x00'
  | 'a' => some '\x07'
  | 'b' => some '\x08'
  | 't' => some '\t'
  | '\t' => some '\t'
  | 'n' => some '\n'
  | 'v' => some '\x0b'
  | 'f' => some '\x0c'
  | 'r' => some '\r'
  | 'e' => some '\x1b'
  | ' ' => some ' '
  | '"' => some '"'
  | '/' => some '/'
  | '\\' => some '\\'
  | 'N' => some '\u0085'
  | '_' => some '\u00a0'
  | 'L' => some '\u2028'
  | 'P' => some '\u2029'
  | _ => none

/-- How many hexadecimal digits follow the letter of an escape. -/
def escapeLength? (c : Char) : Option Nat :=
  match c with
  | 'x' => some 2
  | 'u' => some 4
  | 'U' => some 8
  | _ => none

/-- Reads a character given by `n` hexadecimal digits. -/
def codePoint (n : Nat) : Reader Char := do
  match ((← get).rest.take n).mapM Text.hexValue? with
  | none => failure
  | some ds =>
    let value := Text.ofHexDigits ds
    if ds.length < n || (0xD800 ≤ value && value ≤ 0xDFFF) || 0x10FFFF < value then failure
    skip n
    return Char.ofNat value

/-- Reads an escape after its backslash. -/
def escape : Reader Char := do
  match ← peek with
  | none => failure
  | some c =>
    skip 1
    match escaped? c, escapeLength? c with
    | some e, _ => return e
    | none, some n => codePoint n
    | none, none => failure

/-- Reads a run without blanks in double quotes; the flag says that an escaped line end
finished it. -/
def doubleRun : Nat → List Char → Reader (List Char × Bool)
  | 0, _ => failure
  | fuel + 1, acc => do
    match ← peek with
    | none => return (acc.reverse, false)
    | some c =>
      if isGap c || c == '"' then return (acc.reverse, false)
      else if c == '\\' then
        skip 1
        match ← peek with
        | some b =>
          if isBreak b then
            let _ ← lineBreak
            return (acc.reverse, true)
          else doubleRun fuel ((← escape) :: acc)
        | none => failure
      else
        skip 1
        doubleRun fuel (c :: acc)

/-- Reads a run without blanks in single quotes, where two quotes stand for one. -/
def singleRun : Nat → List Char → Reader (List Char × Bool)
  | 0, _ => failure
  | fuel + 1, acc => do
    let c ← get
    match c.peek with
    | none => return (acc.reverse, false)
    | some q =>
      if isGap q then return (acc.reverse, false)
      else if q == '\'' then
        if c.peekAt 1 == some '\'' then
          skip 2
          singleRun fuel ('\'' :: acc)
        else return (acc.reverse, false)
      else
        skip 1
        singleRun fuel (q :: acc)

/-- Reads a quoted scalar after its opening quote, up to and with the closing one. -/
def quotedFrom (quote : Char) : Nat → List Char → Reader (List Char)
  | 0, _ => failure
  | fuel + 1, acc => do
    let c ← get
    if c.atDocumentMark || c.rest = [] then failure
    let (run, joined) ←
      if quote == '\'' then singleRun (c.rest.length + 1) []
      else doubleRun (c.rest.length + 1) []
    let acc := acc ++ run
    if (← peek) == some quote then
      skip 1
      return acc
    let g ← gap 0 { broken := joined }
    quotedFrom quote fuel (acc ++ g.fold)

/-- Reads a quoted scalar. -/
def quotedScalar (quote : Char) : Reader (List Char) := do
  skip 1
  quotedFrom quote ((← get).rest.length + 1) []

/-! ### Plain scalars -/

/-- Reads a run without blanks of a plain scalar. In a flow collection its marks end the run,
and a colon before one of them is refused. -/
def plainRun (inFlow : Bool) : List Char → Option (List Char × List Char)
  | [] => some ([], [])
  | c :: cs =>
    if isGap c then some ([], c :: cs)
    else if inFlow && c == ':' && (match cs with
        | d :: _ => isFlowMark d || d == '?'
        | [] => false) then none
    else if (c == ':' && endsWord cs.head?) || (inFlow && isFlowMark c) then some ([], c :: cs)
    else (plainRun inFlow cs).map fun (run, rest) => (c :: run, rest)

/-- Reads a plain scalar that continues `acc` after a gap. The flag says whether the gap at
its end holds a line end. -/
def plainFrom (inFlow : Bool) (indent : Int) : Nat → List Char → Gap → Reader (List Char × Bool)
  | 0, _, _ => failure
  | fuel + 1, acc, g => do
    let c ← get
    if c.atDocumentMark || c.peek == some '#' then return (acc, g.broken)
    match plainRun inFlow c.rest with
    | none => failure
    | some (run, _) =>
      skip run.length
      let acc := if run = [] then acc else acc ++ g.fold ++ run
      let g := if run = [] then g else {}
      match ← peek with
      | none => return (acc, g.broken)
      | some d =>
        if !isGap d then return (acc, g.broken)
        let g ← gap indent g
        if !inFlow && (← get).column < indent then return (acc, g.broken)
        plainFrom inFlow indent fuel acc g

/-- Reads a plain scalar in a block of the given indentation. -/
def plainScalar (inFlow : Bool) (indent : Int) : Reader (List Char × Bool) := do
  plainFrom inFlow (indent + 1) ((← get).rest.length + 1) [] {}

/-! ### Block scalars -/

/-- What becomes of the line ends at the end of a block scalar. -/
inductive Chomp where
  /-- All but the first go. -/
  | clip
  /-- All go. -/
  | strip
  /-- All stay. -/
  | keep
  deriving Repr, DecidableEq

/-- Reads an indicator for the end of a block scalar, if there is one. -/
def chompMark : Reader (Option Chomp) := do
  match ← peek with
  | some '+' => skip 1; return some .keep
  | some '-' => skip 1; return some .strip
  | _ => return none

/-- Reads an indicator for the indentation of a block scalar, if there is one; zero is refused. -/
def indentMark : Reader (Option Nat) := do
  match ← peek with
  | some c =>
    if c.isDigit then
      if c == '0' then failure
      skip 1
      return some (c.toNat - '0'.toNat)
    else return none
  | none => return none

/-- Reads the two indicators of a block scalar in either order. -/
def blockHeader : Reader (Chomp × Option Nat) := do
  match ← chompMark with
  | some chomp => return (chomp, ← indentMark)
  | none =>
    match ← indentMark with
    | some n => return ((← chompMark).getD .clip, some n)
    | none => return (.clip, none)

/-- Reads empty lines and the indentation after them: what their ends stand for, and the
largest column reached. `indent` is absent while it is still to be found. -/
def emptyLines (indent : Option Int) : Nat → List Char → Nat → Reader (List Char × Nat)
  | 0, _, _ => failure
  | fuel + 1, breaks, widest => do
    let c ← get
    let room := match indent with
      | some n => (n - c.column).toNat
      | none => c.rest.length
    let spaces := (c.rest.take room).takeWhile (· == ' ')
    skip spaces.length
    let c ← get
    let widest := max widest c.column
    let inIndent := match indent with
      | some n => (c.column : Int) < n
      | none => true
    match c.peek with
    | none => return (breaks, widest)
    | some d =>
      if inIndent && d == '\t' then failure
      if !isBreak d then return (breaks, widest)
      let b ← lineBreak
      emptyLines indent fuel (breaks ++ b) widest

/-- Reads the lines of a block scalar. `first` is the end of the line before, `others` the
ends of the empty lines after it, and `blank` whether that line started with a blank. -/
def blockLines (folded : Bool) (indent : Int) :
    Nat → List Char → List Char → List Char → Bool → Reader (List Char × List Char × List Char)
  | 0, _, _, _, _ => failure
  | fuel + 1, acc, first, others, blank => do
    let c ← get
    match c.peek with
    | none => return (acc, first, others)
    | some d =>
      if (c.column : Int) ≠ indent then return (acc, first, others)
      let joined :=
        if folded && first.head? = some '\n' && !blank && !isBlank d then
          (if others = [] then [' '] else [])
        else first
      let line ← takeWhile (!isBreak ·)
      let first' ← lineBreak
      let (others', _) ← emptyLines (some indent) ((← get).rest.length + 1) [] 0
      blockLines folded indent fuel (acc ++ joined ++ others ++ line) first' others' (isBlank d)

/-- Reads a block scalar in a block of the given indentation. -/
def blockScalar (folded : Bool) (parentIndent : Int) : Reader (List Char) := do
  skip 1
  let (chomp, increment) ← blockHeader
  finishLine
  let given : Option Int := increment.map fun n =>
    if 0 ≤ parentIndent then parentIndent + n else n
  let (breaks, widest) ← emptyLines given ((← get).rest.length + 1) [] 0
  let indent : Int := given.getD (max (max widest (parentIndent + 1)) 1)
  let (text, first, others) ←
    blockLines folded indent ((← get).rest.length + 1) [] [] breaks false
  return match chomp with
    | .strip => text
    | .clip => text ++ first
    | .keep => text ++ first ++ others

end Reader

end ScenePreview.Yaml

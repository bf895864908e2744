import ScenePreview.Yaml.Token.Property
import ScenePreview.Yaml.Token.Scalar

/-!
# From characters to tokens

A key of a mapping is only known for one when its colon is reached. So each place where a key
may have started is remembered as a `Candidate`, with the number of tokens before it; when a
colon confirms it, the tokens that announce the key are put in at that place. Indentation
opens and closes blocks in the same way.

## Main definitions

* `Candidate`, `Scanner` — the state between two tokens.
* `Scanner.next` — the next token.
* `scan?` — all tokens of a stream.
-/

namespace ScenePreview.Yaml

/-- A place where a key may have started. -/
structure Candidate where
  /-- How many tokens came before it. -/
  number : Nat
  /-- How many characters came before it. -/
  index : Nat
  /-- Its line. -/
  line : Nat
  /-- Its column. -/
  column : Nat
  /-- Whether nothing but a key can stand there. -/
  required : Bool
  deriving Repr, DecidableEq

/-- The state between two tokens. -/
structure Scanner where
  /-- The place in the stream. -/
  cursor : Cursor
  /-- The tokens so far. -/
  tokens : List Token := []
  /-- The column of the innermost block. -/
  indent : Int := -1
  /-- The columns of the blocks around it. -/
  outer : List Int := []
  /-- Whether a key may start here. -/
  keyAllowed : Bool := true
  /-- The candidate of the innermost collection. -/
  candidate : Option Candidate := none
  /-- The candidates of the collections around it; one for each flow collection. -/
  enclosing : List (Option Candidate) := []
  deriving Repr, DecidableEq

/-- Changes the state between two tokens, or fails. -/
abbrev Step := StateT Scanner Option

namespace Scanner

/-- Whether the place is in a flow collection. -/
def inFlow (s : Scanner) : Bool := !s.enclosing.isEmpty

/-- The tokens with one put in after the first `n`. -/
def insertAt (n : Nat) (t : Token) (ts : List Token) : List Token := ts.take n ++ t :: ts.drop n

/-- Reads from the place in the stream. -/
def read {α : Type} (r : Reader α) : Step α := fun s =>
  (r s.cursor).map fun (a, c) => (a, { s with cursor := c })

/-- Adds a token. -/
def emit (t : Token) : Step Unit := modify fun s => { s with tokens := s.tokens ++ [t] }

/-- Allows or forbids a key to start here. -/
def allowKey (b : Bool) : Step Unit := modify fun s => { s with keyAllowed := b }

/-! ### Candidates -/

/-- Forgets the candidate of the innermost collection; one that must be a key is missed. -/
def dropCandidate : Step Unit := do
  match (← get).candidate with
  | some k => if k.required then failure
  | none => pure ()
  modify fun s => { s with candidate := none }

/-- Remembers that a key may start here. -/
def markCandidate : Step Unit := do
  let s ← get
  if s.keyAllowed then
    dropCandidate
    modify fun s => { s with candidate := some {
      number := s.tokens.length
      index := s.cursor.index
      line := s.cursor.line
      column := s.cursor.column
      required := !s.inFlow && s.indent == s.cursor.column } }

/-- Whether a candidate is out of reach: on an earlier line or more than 1024 characters
back. -/
def isStale (c : Cursor) (k : Candidate) : Bool :=
  k.line < c.line || k.index + 1024 < c.index

/-- A candidate unless it is out of reach; one that must be a key is missed. -/
def refresh (c : Cursor) : Option Candidate → Option (Option Candidate)
  | none => some none
  | some k => if isStale c k then (if k.required then none else some none) else some (some k)

/-- Forgets all candidates that are out of reach. -/
def dropStale : Step Unit := fun s => do
  let candidate ← refresh s.cursor s.candidate
  let enclosing ← s.enclosing.mapM (refresh s.cursor)
  return ((), { s with candidate, enclosing })

/-! ### Indentation -/

/-- Opens a block at a column right of the innermost one, its token after the first `n`. -/
def openBlock (column : Int) (n : Nat) (t : Token) : Step Unit := modify fun s =>
  if s.inFlow || column ≤ s.indent then s
  else { s with outer := s.indent :: s.outer, indent := column, tokens := insertAt n t s.tokens }

/-- Closes blocks right of a column, given the columns around the innermost. -/
def closeBlocks (column : Int) : List Int → Int → List Token → List Token × Int × List Int
  | [], indent, ts => if column < indent then (ts ++ [.blockEnd], -1, []) else (ts, indent, [])
  | o :: os, indent, ts =>
    if column < indent then closeBlocks column os o (ts ++ [.blockEnd]) else (ts, indent, o :: os)

/-- Closes the blocks right of a column. -/
def closeTo (column : Int) : Step Unit := modify fun s =>
  if s.inFlow then s
  else
    let (tokens, indent, outer) := closeBlocks column s.outer s.indent s.tokens
    { s with tokens, indent, outer }

/-! ### Tokens -/

/-- Skips blanks, comments and line ends. A tab is a blank only where no key may start. -/
def skipGap : Nat → Step Unit
  | 0 => failure
  | fuel + 1 => do
    let s ← get
    if s.cursor.index == 0 && s.cursor.peek == some byteOrderMark then read (Reader.skip 1)
    read (Reader.skipWhile fun c => c == ' ' || (c == '\t' && (s.inFlow || !s.keyAllowed)))
    if (← read Reader.peek) == some '#' then read (Reader.skipWhile (!isBreak ·))
    match ← read Reader.peek with
    | some c =>
      if isBreak c then
        let _ ← read Reader.lineBreak
        if !s.inFlow then allowKey true
        skipGap fuel
    | none => pure ()

/-- The end of all blocks, before a token that stands outside of them. -/
def leaveBlocks : Step Unit := do
  closeTo (-1)
  dropCandidate
  allowKey false

/-- The end of the stream. -/
def streamEnd : Step Unit := do
  modify fun s => if s.cursor.column == 0 then s else { s with cursor := s.cursor.nextLine 0 }
  leaveBlocks
  emit .streamEnd

/-- A mark of a document. -/
def documentMark (t : Token) : Step Unit := do
  leaveBlocks
  read (Reader.skip 3)
  emit t

/-- The start of a flow collection. -/
def openFlow (t : Token) : Step Unit := do
  markCandidate
  modify fun s => { s with enclosing := s.candidate :: s.enclosing, candidate := none }
  allowKey true
  read (Reader.skip 1)
  emit t

/-- The end of a flow collection. -/
def closeFlow (t : Token) : Step Unit := do
  dropCandidate
  modify fun s => match s.enclosing with
    | k :: ks => { s with candidate := k, enclosing := ks }
    | [] => s
  allowKey false
  read (Reader.skip 1)
  emit t

/-- A comma in a flow collection. -/
def flowEntry : Step Unit := do
  dropCandidate
  allowKey true
  read (Reader.skip 1)
  emit .flowEntry

/-- Opens a block for a mark of one here, where outside of flow collections a key must be
allowed. -/
def openHere (t : Token) : Step Unit := do
  let s ← get
  if !s.inFlow then
    if !s.keyAllowed then failure
    openBlock s.cursor.column s.tokens.length t

/-- A hyphen before an item. -/
def blockEntry : Step Unit := do
  openHere .blockSequenceStart
  dropCandidate
  allowKey true
  read (Reader.skip 1)
  emit .blockEntry

/-- A question mark before a key. -/
def keyMark : Step Unit := do
  openHere .blockMappingStart
  dropCandidate
  allowKey (!(← get).inFlow)
  read (Reader.skip 1)
  emit .key

/-- A colon before a value: it makes the candidate a key, if there is one. -/
def valueMark : Step Unit := do
  match (← get).candidate with
  | some k =>
    modify fun s => { s with tokens := insertAt k.number .key s.tokens, candidate := none }
    openBlock k.column k.number .blockMappingStart
    allowKey false
  | none =>
    openHere .blockMappingStart
    allowKey (!(← get).inFlow)
  read (Reader.skip 1)
  emit .value

/-- A token that a key may start with. -/
def property (r : Reader Token) : Step Unit := do
  markCandidate
  allowKey false
  emit (← read r)

/-- A scalar in quotes. -/
def quoted (quote : Char) : Step Unit :=
  property do return .scalar (String.ofList (← Reader.quotedScalar quote)) .quoted

/-- A plain scalar; a key may follow it if it ends on a line before. -/
def plain : Step Unit := do
  markCandidate
  allowKey false
  let s ← get
  let (text, broken) ← read (Reader.plainScalar s.inFlow s.indent)
  if broken then allowKey true
  emit (.scalar (String.ofList text) .plain)

/-- A block scalar. -/
def block (folded : Bool) : Step Unit := do
  dropCandidate
  allowKey true
  let text ← read (Reader.blockScalar folded (← get).indent)
  emit (.scalar (String.ofList text) (if folded then .folded else .literal))

/-- Whether a plain scalar can start with `c` before `next`. -/
def startsPlain (inFlow : Bool) (c : Char) (next : Option Char) : Bool :=
  !(isGap c || isIndicator c)
    || (c == '-' && !(match next with
      | some d => isBlank d
      | none => false))
    || (!inFlow && (c == '?' || c == ':') && !endsWord next)

/-- The token that starts with `c`. -/
def tokenAt (s : Scanner) (c : Char) : Step Unit :=
  let next := s.cursor.peekAt 1
  if s.cursor.column == 0 && c == '%' then do
    leaveBlocks
    emit (← read Reader.directive)
  else if s.cursor.atMark '-' then documentMark .documentStart
  else if s.cursor.atMark '.' then documentMark .documentEnd
  else if c == '[' then openFlow .flowSequenceStart
  else if c == '{' then openFlow .flowMappingStart
  else if c == ']' then closeFlow .flowSequenceEnd
  else if c == '}' then closeFlow .flowMappingEnd
  else if c == ',' then flowEntry
  else if c == '-' && endsWord next then blockEntry
  else if c == '?' && (s.inFlow || endsWord next) then keyMark
  else if c == ':' && (s.inFlow || endsWord next) then valueMark
  else if c == '*' then property do return .alias (← Reader.anchorName)
  else if c == '&' then property do return .anchor (← Reader.anchorName)
  else if c == '!' then property (Reader.tag s.inFlow)
  else if c == '|' && !s.inFlow then block false
  else if c == '>' && !s.inFlow then block true
  else if c == '\'' || c == '"' then quoted c
  else if startsPlain s.inFlow c next then plain
  else failure

/-- The next token with all that it opens and closes; the flag says whether the stream ended. -/
def next : Step Bool := do
  skipGap ((← get).cursor.rest.length + 1)
  dropStale
  closeTo (← get).cursor.column
  let s ← get
  match s.cursor.peek with
  | none =>
    streamEnd
    return true
  | some c =>
    tokenAt s c
    return false

/-- Tokens up to the end of the stream. -/
def run : Nat → Step Unit
  | 0 => failure
  | fuel + 1 => do if !(← next) then run fuel

end Scanner

/-- All tokens of a stream. -/
def scan? (cs : List Char) : Option (List Token) :=
  if cs.all isAllowed then
    (Scanner.run (cs.length + 1) { cursor := { rest := cs } }).map (·.2.tokens)
  else none

end ScenePreview.Yaml

import ScenePreview.Shell.Token

/-!
# Reading shell scripts

## Main definitions

* `Statement.ofTokens?` — the command that tokens spell.
* `Statement.parse?` — the command that a script is.
-/

namespace ScenePreview.Shell

/-- The text of a part without quotes and parameters. -/
def plainPart? : Part → Option (List UInt8)
  | .text bytes false => some bytes
  | _ => none

/-- The text of a word without quotes and parameters. -/
def Word.plain? (w : Word) : Option (List UInt8) :=
  (w.mapM plainPart?).map List.flatten

/-- Whether a word is a given one, without quotes. -/
def Word.isKeyword (w : Word) (s : String) : Bool :=
  Word.plain? w == some (Text.Utf8.encode s)

/-- The assignment that a word is: a name, an equals sign and a value. -/
def Word.assignment? (w : Word) : Option (List UInt8 × Word) :=
  let isPlain : Part → Bool := fun
    | .text [b] false => b != byteOfChar '='
    | _ => false
  let name := ((w.takeWhile isPlain).filterMap fun
    | .text [b] _ => some (charOfByte b)
    | _ => none)
  match w.dropWhile isPlain, name with
  | .text [61] false :: value, c :: cs =>
    if Token.isNameStart c ∧ cs.all Token.isNameRest then some (bytesOf (c :: cs), value) else none
  | _, _ => none

namespace Statement

/-- The words that end a list of commands. -/
def closers : List String := ["then", "elif", "else", "fi", "do", "done", "\x7d"]

/-- Whether the next token is a given word. -/
def nextIs (s : String) : List Token → Bool
  | ⟨_, .word w⟩ :: _ => w.isKeyword s
  | _ => false

/-- What follows a given word. -/
def expect (s : String) (ts : List Token) : Option (List Token) :=
  if nextIs s ts then some (ts.drop 1) else none

/-- Whether a token separates two commands. -/
def separates (t : Token) : Bool := t.kind == .sign .newline || t.kind == .sign .semicolon

/-- What follows line ends. -/
def skipLines (ts : List Token) : List Token := ts.dropWhile (·.kind == .sign .newline)

/-- A simple command, where `s` was read of it. -/
def simple? (s : Simple) : List Token → Option (Simple × List Token)
  | ⟨_, .word w⟩ :: ts =>
    match if s.words = [] then w.assignment? else none with
    | some a => simple? { s with assignments := s.assignments ++ [a] } ts
    | none => simple? { s with words := s.words ++ [w] } ts
  | ⟨_, .redirect stream kind⟩ :: ⟨_, .word w⟩ :: ts =>
    simple? { s with redirects := s.redirects ++ [⟨stream, kind, w⟩] } ts
  | ⟨_, .redirect ..⟩ :: _ => none
  | ts => some (s, ts)

/-- The words up to the end of a line or a semicolon. -/
def wordList : List Token → List Word × List Token
  | ⟨_, .word w⟩ :: ts =>
    let (ws, ts) := wordList ts
    (w :: ws, ts)
  | ts => ([], ts)

mutual

/-- The list of commands at the front. -/
def list? : Nat → List Token → Option (Statement × List Token)
  | 0, _ => none
  | fuel + 1, ts =>
    let ts := ts.dropWhile separates
    if ts = [] ∨ closers.any (nextIs · ts) then some (.skip, ts)
    else do
      let (first, ts) ← chain? fuel ts
      match ts with
      | [] => return (first, [])
      | t :: _ =>
        if separates t ∨ closers.any (nextIs · ts) then
          let (more, ts) ← list? fuel ts
          return (.seq first more, ts)
        else none

/-- The commands at the front that depend on each other's end. -/
def chain? : Nat → List Token → Option (Statement × List Token)
  | 0, _ => none
  | fuel + 1, ts => do
    let (first, ts) ← command? fuel ts
    chainRest? fuel first ts

/-- The commands after the first one that depend on it. -/
def chainRest? : Nat → Statement → List Token → Option (Statement × List Token)
  | 0, _, _ => none
  | fuel + 1, first, ts =>
    match ts with
    | ⟨_, .sign .and⟩ :: ts => do
      let (second, ts) ← command? fuel (skipLines ts)
      chainRest? fuel (.andThen first second) ts
    | ⟨_, .sign .or⟩ :: ts => do
      let (second, ts) ← command? fuel (skipLines ts)
      chainRest? fuel (.orElse first second) ts
    | ts => some (first, ts)

/-- The command at the front. -/
def command? : Nat → List Token → Option (Statement × List Token)
  | 0, _ => none
  | fuel + 1, ts =>
    if nextIs "!" ts then do
      let (s, ts) ← command? fuel (ts.drop 1)
      return (.negation s, ts)
    else if nextIs "\x7b" ts then do
      let (s, ts) ← list? fuel (ts.drop 1)
      return (s, ← expect "\x7d" ts)
    else if nextIs "if" ts then do
      let (s, ts) ← branches? fuel (ts.drop 1)
      return (s, ← expect "fi" ts)
    else if nextIs "while" ts then loop? fuel true (ts.drop 1)
    else if nextIs "until" ts then loop? fuel false (ts.drop 1)
    else if nextIs "for" ts then
      match ts.drop 1 with
      | ⟨_, .word w⟩ :: ts => do
        let name ← w.plain?
        let (items, ts) := if nextIs "in" ts then
            let (ws, ts) := wordList (ts.drop 1)
            (some ws, ts)
          else (none, ts)
        let (body, ts) ← list? fuel (← expect "do" (ts.dropWhile separates))
        return (.each name items body, ← expect "done" ts)
      | _ => none
    else match ts with
      | [] => none
      | t :: _ => do
        let (s, rest) ← simple? { line := t.line } ts
        if s.words = [] ∧ s.assignments = [] ∧ s.redirects = [] then none
        else return (.simple s, rest)

/-- A test with its loop. -/
def loop? : Nat → Bool → List Token → Option (Statement × List Token)
  | 0, _, _ => none
  | fuel + 1, wanted, ts => do
    let (test, ts) ← list? fuel ts
    let (body, ts) ← list? fuel (← expect "do" ts)
    return (.loop test body wanted, ← expect "done" ts)

/-- A test with its branches, up to the word that ends them. -/
def branches? : Nat → List Token → Option (Statement × List Token)
  | 0, _ => none
  | fuel + 1, ts => do
    let (test, ts) ← list? fuel ts
    let (yes, ts) ← list? fuel (← expect "then" ts)
    if nextIs "elif" ts then
      let (no, ts) ← branches? fuel (ts.drop 1)
      return (.choice test yes no, ts)
    else if nextIs "else" ts then
      let (no, ts) ← list? fuel (ts.drop 1)
      return (.choice test yes no, ts)
    else return (.choice test yes .skip, ts)

end

/-- The command that tokens spell. Each call takes a token or goes one level down, of which
there are fewer than six for each. -/
def ofTokens? (ts : List Token) : Option Statement :=
  match list? (6 * ts.length + 6) ts with
  | some (s, []) => some s
  | _ => none

/-- The command that a script is, if it is one. -/
def parse? (script : List UInt8) : Option Statement := (Token.scan? script).bind ofTokens?

end Statement

end ScenePreview.Shell

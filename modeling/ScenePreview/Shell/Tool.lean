import ScenePreview.Shell.Context
import ScenePreview.Text.Decimal

/-!
# What tools do

Each tool takes its arguments, without its own name, and gives the code that it ends with.

## Main definitions

* `echoText`, `formatText` — what is shown of arguments.
* `Test.holds` — conditions.
* `Tool.perform` — what a tool does.
-/

namespace ScenePreview.Shell

/-! ### Text with escapes -/

/-- The byte that an escape of one letter stands for. -/
def letterEscape? (b : UInt8) : Option UInt8 :=
  match b with
  | 92 => some 92
  | 97 => some 7
  | 98 => some 8
  | 102 => some 12
  | 110 => some 10
  | 114 => some 13
  | 116 => some 9
  | 118 => some 11
  | _ => none

/-- Whether a byte is an octal digit. -/
def isOctal (b : UInt8) : Bool := 48 ≤ b && b ≤ 55

/-- The byte with an octal number. -/
def ofOctal (digits : List UInt8) : UInt8 :=
  UInt8.ofNat (digits.foldl (fun n d => 8 * n + (d.toNat - 48)) 0)

/-- The octal digits at the front, at most three. -/
def octals (bytes : List UInt8) : List UInt8 := (bytes.take 3).takeWhile isOctal

/-- What an escape stands for, and what follows it. -/
def escape (bytes : List UInt8) : List UInt8 × List UInt8 :=
  match bytes with
  | [] => ([92], [])
  | b :: rest =>
    match letterEscape? b with
    | some e => ([e], rest)
    | none =>
      if isOctal b then ([ofOctal (octals bytes)], bytes.drop (octals bytes).length)
      else ([92, b], rest)

/-- A text with its escapes replaced. One escape ends the text, and all text after it: then
the second part is set. -/
def unescape : Nat → List UInt8 → List UInt8 × Bool
  | 0, bytes => (bytes, false)
  | _, [] => ([], false)
  | fuel + 1, b :: rest =>
    if b ≠ 92 then
      let (more, stop) := unescape fuel rest
      (b :: more, stop)
    else if rest.head? = some 99 then ([], true)
    else
      let (e, rest) := match rest with
        | 48 :: digits => ([ofOctal (octals digits)], digits.drop (octals digits).length)
        | _ => escape rest
      let (more, stop) := unescape fuel rest
      (e ++ more, stop)

/-- What is shown of arguments, with a blank between each two and an end of the line. -/
def echoText (args : List Field) : List UInt8 :=
  let (args, ending) : List Field × List UInt8 := match args with
    | [45, 110] :: args => (args, [])
    | args => (args, [10])
  let (text, stop) := (fun t => unescape (t.length + 1) t) ([32].intercalate args)
  if stop then text else text ++ ending

/-- The decimal number that a field is, or zero. -/
def numberOf (f : Field) : Int :=
  let value (ds : List UInt8) : Nat :=
    (Text.ofDigits? (ds.map fun b => Char.ofNat b.toNat)).getD 0
  match f with
  | 45 :: ds => -(value ds : Int)
  | 43 :: ds => value ds
  | ds => value ds

/-- What a directive shows of an argument. -/
def directive? (d : UInt8) (arg : Field) : Option (List UInt8) :=
  match d with
  | 115 => some arg
  | 98 => some (unescape (arg.length + 1) arg).1
  | 99 => some (arg.take 1)
  | 100 => some (field (Text.signedDecimal (numberOf arg)))
  | 105 => some (field (Text.signedDecimal (numberOf arg)))
  | 117 => some (field (Text.signedDecimal (numberOf arg)))
  | _ => none

/-- What a format shows of arguments in one pass, and the arguments that are left. -/
def formatPass : Nat → List UInt8 → List Field → List UInt8 × List Field
  | 0, _, args => ([], args)
  | _, [], args => ([], args)
  | fuel + 1, 92 :: rest, args =>
    let (e, rest) := escape rest
    let (more, left) := formatPass fuel rest args
    (e ++ more, left)
  | fuel + 1, 37 :: 37 :: rest, args =>
    let (more, left) := formatPass fuel rest args
    (37 :: more, left)
  | fuel + 1, 37 :: d :: rest, args =>
    match directive? d (args.headD []) with
    | some shown =>
      let (more, left) := formatPass fuel rest (args.drop 1)
      (shown ++ more, left)
    | none =>
      let (more, left) := formatPass fuel rest args
      (37 :: d :: more, left)
  | fuel + 1, b :: rest, args =>
    let (more, left) := formatPass fuel rest args
    (b :: more, left)

/-- What a format shows of arguments. It is used again as long as arguments are left and it
takes some. -/
def formatText : Nat → List UInt8 → List Field → List UInt8
  | 0, _, _ => []
  | fuel + 1, format, args =>
    let (text, left) := formatPass (format.length + 1) format args
    if left = [] ∨ left.length = args.length then text else text ++ formatText fuel format left

/-! ### Conditions -/

/-- Whether a condition on one field holds. -/
def Test.unary? (c : Context) (op : Field) (a : Field) : Option Bool :=
  if op = field "-n" then some (a ≠ [])
  else if op = field "-z" then some (a = [])
  else if op = field "-e" then some (c.tree.exists c.cwd ⟨a⟩)
  else if op = field "-f" then some (c.tree.isFile c.cwd ⟨a⟩)
  else if op = field "-d" then some (c.tree.isDir c.cwd ⟨a⟩)
  else none

/-- Whether a condition on two fields holds. -/
def Test.binary? (a op b : Field) : Option Bool :=
  if op = field "=" then some (a = b)
  else if op = field "!=" then some (a ≠ b)
  else if op = field "-eq" then some (numberOf a = numberOf b)
  else if op = field "-ne" then some (numberOf a ≠ numberOf b)
  else if op = field "-lt" then some (numberOf a < numberOf b)
  else if op = field "-le" then some (numberOf a ≤ numberOf b)
  else if op = field "-gt" then some (numberOf b < numberOf a)
  else if op = field "-ge" then some (numberOf b ≤ numberOf a)
  else none

/-- Whether a condition holds, if it is one. -/
def Test.holds? (c : Context) : List Field → Option Bool
  | [] => some false
  | [a] => some (a ≠ [])
  | op :: rest =>
    match rest, (if op = field "!" then Test.holds? c rest else none) with
    | _, some b => some (!b)
    | [a], none => Test.unary? c op a
    | [o, b], none => Test.binary? op o b
    | _, none => none

/-- The code of a test. -/
def Test.code (c : Context) (args : List Field) : Nat :=
  match Test.holds? c args with
  | some true => 0
  | some false => 1
  | none => 2

/-! ### Files -/

/-- A field between quotes. -/
def quote (f : Field) : Field := [39] ++ f ++ [39]

/-- Why something failed. -/
def reason : IoError → Field
  | .os e => field e.reason
  | .other text => field text

/-- Whether a field is an option. -/
def isOption (f : Field) : Bool := f.head? == some 45 && f.length > 1

/-- The code of a list of actions: zero if each gave zero. -/
def forEach {α : Type} (xs : List α) (act : Context → α → Nat × Context) (c : Context) :
    Nat × Context :=
  xs.foldl (fun (code, c) x =>
    let (code', c) := act c x
    (max code code', c)) (0, c)

/-- Shows the files, or standard input. -/
def cat (args : List Field) (c : Context) : Nat × Context :=
  forEach (if args = [] then [[45]] else args) (fun c a =>
    if a = [45] then (0, { c with input := [] }.write .stdout c.input)
    else match c.load ⟨a⟩ with
      | .ok content => (0, c.write .stdout content)
      | .error e => (1, c.complain [field "cat: ", a, field ": ", reason e])) c

/-- Where a file goes that is copied or moved: below a directory under its own name. -/
def destination (c : Context) (source target : Path) : Path :=
  if c.tree.isDir c.cwd target then target.join ⟨source.fileName?.getD []⟩ else target

/-- Copies one file. -/
def copyFile (source target : Path) (c : Context) : Nat × Context :=
  match c.tree.stat c.cwd source with
  | .error e => (1, c.complain [field "cp: cannot stat ", quote source.bytes, field ": ", reason e])
  | .ok (_, .file content executable) =>
    let target := destination c source target
    let isNew := !c.tree.exists c.cwd target
    match c.tree.writeFile c.cwd target content with
    | .error e => (1, c.complain
        [field "cp: cannot create regular file ", quote target.bytes, field ": ", reason e])
    | .ok tree =>
      (0, { c with tree := if executable ∧ isNew then tree.makeExecutable c.cwd target else tree })
  | .ok _ => (1, c.complain [field "cp: -r not specified; omitting directory ", quote source.bytes])

/-- Moves one file. -/
def moveFile (source target : Path) (c : Context) : Nat × Context :=
  match c.tree.stat c.cwd source with
  | .error e => (1, c.complain [field "mv: cannot stat ", quote source.bytes, field ": ", reason e])
  | .ok _ =>
    let (code, c) := copyFile source target c
    (code, if code = 0 then { c with tree := c.tree.removeAll c.cwd source } else c)

/-- Copies or moves files to the last of the paths. -/
def transfer (act : Path → Path → Context → Nat × Context) (args : List Field) (c : Context) :
    Nat × Context :=
  match (args.filter (!isOption ·)).getLast? with
  | none => (1, c)
  | some target =>
    forEach (args.filter (!isOption ·)).dropLast (fun c a => act ⟨a⟩ ⟨target⟩ c) c

/-- Makes directories, with those that lead to them if that is asked for. -/
def makeDirs (args : List Field) (c : Context) : Nat × Context :=
  let deep := args.contains (field "-p")
  forEach (args.filter (!isOption ·)) (fun c a =>
    let fail (e : IoError) : Nat × Context :=
      (1, c.complain [field "mkdir: cannot create directory ", quote a, field ": ", reason e])
    if deep then
      let tree := c.tree.makeDirs c.cwd ⟨a⟩
      if tree.isDir c.cwd ⟨a⟩ then (0, { c with tree })
      else fail (.os (if tree.exists c.cwd ⟨a⟩ then .alreadyExists else .notADirectory))
    else match c.tree.makeDir c.cwd ⟨a⟩ with
      | .ok tree => (0, { c with tree })
      | .error e => fail e) c

/-- Removes files. -/
def removeFiles (args : List Field) (c : Context) : Nat × Context :=
  let options := (args.filter isOption).flatten
  forEach (args.filter (!isOption ·)) (fun c a =>
    let fail (e : IoError) : Nat × Context :=
      (1, c.complain [field "rm: cannot remove ", quote a, field ": ", reason e])
    match c.tree.lstat c.cwd ⟨a⟩ with
    | .error e => if options.contains 102 then (0, c) else fail e
    | .ok (_, .directory) =>
      if options.contains 114 then (0, { c with tree := c.tree.removeAll c.cwd ⟨a⟩ })
      else fail (.os .isADirectory)
    | .ok _ => (0, { c with tree := c.tree.removeAll c.cwd ⟨a⟩ })) c

/-- Makes empty files where there are none. -/
def touchFiles (args : List Field) (c : Context) : Nat × Context :=
  forEach (args.filter (!isOption ·)) (fun c a =>
    if c.tree.exists c.cwd ⟨a⟩ then (0, c)
    else match c.tree.writeFile c.cwd ⟨a⟩ [] with
      | .ok tree => (0, { c with tree })
      | .error e => (1, c.complain [field "touch: cannot touch ", quote a, field ": ", reason e])) c

/-! ### Tools -/

/-- What a tool does that starts no other: the code that it ends with, and the process after
it. -/
def perform (tool : Tool) (name : Field) (args : List Field) (c : Context) : Nat × Context :=
  match tool with
  | .cat => cat args c
  | .copy => transfer copyFile args c
  | .move => transfer moveFile args c
  | .remove => removeFiles args c
  | .makeDir => makeDirs args c
  | .touch => touchFiles args c
  | .echo => (0, c.write .stdout (echoText args))
  | .format =>
    match args with
    | [] => (2, c.complain [field "printf: usage: printf format [arg ...]"])
    | format :: args => (0, c.write .stdout (formatText (args.length + 1) format args))
  | .test => (Test.code c (if name = field "[" then args.dropLast else args), c)
  | .directory => (0, c.write .stdout (c.cwd.toPath.bytes ++ [10]))
  | .fail => (1, c)
  | .succeed | .wait | .shell | .env => (0, c)

end ScenePreview.Shell

import ScenePreview.Host

/-!
# Programs

A program is a file that may be run. It is one of the tools of the host, or a script whose
first line names the program that reads it.

## Main definitions

* `Tool` — the tools of the host, and the content of their files.
* `Program.interpreter?` — what the first line of a script says.
* `Program.load` — the tool that a path leads to in the end, with its arguments.
* `Program.find` — the same, where a plain name is looked for in the directories of a search
  path.
-/

namespace ScenePreview

/-! ### Tools -/

/-- A tool of the host. -/
inductive Tool where
  /-- Runs shell scripts. -/
  | shell
  /-- Runs a program with other variables. -/
  | env
  /-- Shows files. -/
  | cat
  /-- Copies files. -/
  | copy
  /-- Moves files. -/
  | move
  /-- Removes files. -/
  | remove
  /-- Makes directories. -/
  | makeDir
  /-- Makes empty files. -/
  | touch
  /-- Shows its arguments. -/
  | echo
  /-- Shows its arguments in a format. -/
  | format
  /-- Tells whether a condition holds. -/
  | test
  /-- Shows the directory. -/
  | directory
  /-- Ends well. -/
  | succeed
  /-- Does not end well. -/
  | fail
  /-- Waits. -/
  | wait
  deriving Repr, DecidableEq

namespace Tool

/-- The names of the tools. -/
def names : List (String × Tool) :=
  [("sh", .shell), ("dash", .shell), ("env", .env), ("cat", .cat), ("cp", .copy), ("mv", .move),
    ("rm", .remove), ("mkdir", .makeDir), ("touch", .touch), ("echo", .echo),
    ("printf", .format), ("test", .test), ("[", .test), ("pwd", .directory), ("true", .succeed),
    ("false", .fail), ("sleep", .wait)]

/-- What the file of a tool begins with. -/
def signature : List UInt8 := 0x7F :: Text.Utf8.encode "ELF"

/-- The content of the file of a tool. -/
def image (name : String) : List UInt8 := signature ++ Text.Utf8.encode name

/-- The tool whose file has this content. -/
def ofImage? (content : List UInt8) : Option Tool :=
  (names.find? fun n => image n.1 == content).map (·.2)

/-- The directories that tools are in. -/
def directories : List Path := [Path.ofString "/bin", Path.ofString "/usr/bin"]

/-- The host with its tools. -/
def install (h : Host) : Host :=
  h.edits (directories.flatMap fun dir => names.map fun n => .program (dir.child n.1) (image n.1))

end Tool

/-! ### Programs -/

namespace Program

/-- How many scripts may read each other. -/
def maxScripts : Nat := 5

/-- The most bytes of an argument. -/
def maxArgument : Nat := 131071

/-- The most bytes of the first line of a script that count. -/
def maxFirstLine : Nat := 256

/-- Whether a byte is a blank on the first line of a script. -/
def isBlankByte (b : UInt8) : Bool := b == 32 || b == 9

/-- The program that reads a script, and the argument that it gets before the path of the
script. -/
def interpreter? (content : List UInt8) : Option (List UInt8 × Option (List UInt8)) :=
  match content.take maxFirstLine with
  | 35 :: 33 :: rest =>
    let line := ((rest.takeWhile (· != 10)).reverse.dropWhile isBlankByte).reverse
    let line := line.dropWhile isBlankByte
    let program := line.takeWhile (!isBlankByte ·)
    let argument := (line.dropWhile (!isBlankByte ·)).dropWhile isBlankByte
    if program = [] then none
    else some (program, if argument = [] then none else some argument)
  | _ => none

/-- The tool that a path leads to, and its arguments, its own name among them. -/
def loadFrom (t : FileTree) (cwd : Place) : Nat → Path → List (List UInt8) →
    Except IoError (Tool × List (List UInt8))
  | depth, path, argv =>
    match t.stat cwd path with
    | .error e => .error e
    | .ok (_, .file content true) =>
      match Tool.ofImage? content, interpreter? content, depth with
      | some tool, _, _ => .ok (tool, argv)
      | none, none, _ => .error (.os .execFormat)
      | none, some _, 0 => .error (.os .tooManyLinks)
      | none, some (program, argument), depth + 1 =>
        loadFrom t cwd depth ⟨program⟩
          (program :: argument.toList ++ path.bytes :: argv.drop 1)
    | .ok _ => .error (.os .permissionDenied)

/-- The tool that a path leads to, and its arguments, its own name among them. -/
def load (t : FileTree) (cwd : Place) (path : Path) (argv : List (List UInt8)) :
    Except IoError (Tool × List (List UInt8)) :=
  if argv.any (maxArgument < ·.length) then .error (.os .argumentsTooLong)
  else loadFrom t cwd maxScripts path argv

/-- One more byte in front of the parts between colons. -/
def addToParts (b : UInt8) : List (List UInt8) → List (List UInt8)
  | [] => [[b]]
  | part :: parts => if b = 58 then [] :: part :: parts else (b :: part) :: parts

/-- The directories of a search path, which stand between colons. An empty part is the current
directory. -/
def searchPath (bytes : List UInt8) : List Path := (bytes.foldr addToParts [[]]).map Path.mk

/-- Looks for a name in directories. One that is there but may not be run is remembered, and
`last` is what is said if there is none. -/
def search (t : FileTree) (cwd : Place) (argv : List (List UInt8)) (name : List UInt8) :
    Bool → IoError → List Path → Except IoError (Tool × List (List UInt8))
  | denied, last, [] => .error (if denied then .os .permissionDenied else last)
  | denied, last, dir :: dirs =>
    match load t cwd (dir.join ⟨name⟩) argv with
    | .ok r => .ok r
    | .error (.os .permissionDenied) => search t cwd argv name true last dirs
    | .error (.os .notFound) => search t cwd argv name denied (.os .notFound) dirs
    | .error (.os .notADirectory) => search t cwd argv name denied (.os .notADirectory) dirs
    | .error e => .error e

/-- The tool that a program is in the end. A name with a slash is a path; any other is looked
for in the directories of the search path. -/
def find (t : FileTree) (cwd : Place) (path : List UInt8) (argv : List (List UInt8)) :
    Except IoError (Tool × List (List UInt8)) :=
  match argv with
  | [] => .error (.os .notFound)
  | name :: _ =>
    if name = [] then .error (.os .notFound)
    else if name.contains Path.slash then load t cwd ⟨name⟩ argv
    else search t cwd argv name false (.os .notFound) (searchPath path)

end Program

end ScenePreview

import ScenePreview.CommandLine.Execute
import ScenePreview.Process.Launch

/-!
# The program

Takes a picture of the files that a command may look at, executes the command on it, prints
what it prints and writes back the files that it made. Processes run on the picture too, so
that a tool is a shell script or one of the tools of the host.

## Main definitions

* `Picture.paths` — the files to look at.
* `Picture.made` — the files that were made.
* `main` — the program.

## References

The reference's `main` and `Cli`.
-/

namespace ScenePreview.Picture

/-- The files that a command may look at before it runs: those that may hold the
configuration, and the script. -/
def paths (h : Host) (vs : Variables) (args : List String) : List Path :=
  (ConfigFile.upwards h.cwd).map ConfigFile.ofProject ++ (ConfigFile.ofUser? h vs).toList
    ++ (match Command.parse none args with
      | .ok (.render c) => c.file.toList
      | _ => [])

/-- The files that the configuration names. -/
def toolPaths (h : Host) (vs : Variables) : List Path :=
  match Configuration.load h vs with
  | .ok c => [c.settings.transformer, Path.ofString c.settings.interpreter,
      Path.ofString c.settings.renderer, Path.ofString c.settings.launcher]
  | .error _ => []

/-- The directory that the configuration names for working directories. -/
def rootPaths (h : Host) (vs : Variables) : List Path :=
  match Configuration.load h vs with
  | .ok c => c.settings.tempRoot.toList
  | .error _ => []

/-- The host with one more file. What begins with the name of the program that reads it may be
run. -/
def add (h : Host) (p : Path) (content : List UInt8) : Host :=
  h.edits [if (Program.interpreter? content).isSome then .program p content else .write p content]

/-- The files that were made or changed, with their content. -/
def made (before after : FileTree) : List (Path × List UInt8) :=
  after.entries.filterMap fun (place, e) =>
    match e with
    | .file content _ => if before.get? place = some e then none else some (place.toPath, content)
    | _ => none

/-- The directories that were made. -/
def madeDirs (before after : FileTree) : List Path :=
  after.entries.filterMap fun (place, e) =>
    if e = .directory ∧ before.get? place = none then some place.toPath else none

/-- Six letters from a number of the clock and the number of an attempt. -/
def nameEnd (now n : Nat) : String :=
  String.ofList ((List.range 6).map fun k => Char.ofNat ('a'.toNat + (now + n) / Nat.pow 26 k % 26))

/-- The number of the user, from what is told of a process. -/
def userNumber? (status : String) : Option String :=
  (status.splitOn "\n").findSome? fun line =>
    match line.splitOn "\t" with
    | "Uid:" :: number :: _ => some number
    | _ => none

/-- The home directory of the user with a number, from the records of all users. -/
def homeOf? (records number : String) : Option Path :=
  (records.splitOn "\n").findSome? fun line =>
    match line.splitOn ":" with
    | [_, _, n, _, _, home, _] => if n = number then some (Path.ofString home) else none
    | _ => none

/-! ### Taking and giving back -/

/-- The variables that the program looks at. -/
def readVariables : IO Variables :=
  [ConfigFile.environmentVariable, ConfigFile.transformerVariable, "XDG_CONFIG_HOME", "HOME",
    "PATH", "TMPDIR"].filterMapM fun name => do return (← IO.getEnv name).map (name, ·)

/-- The home directory that is on record for the user. -/
def readHome : IO (Option Path) := do
  try
    let status ← IO.FS.readFile "/proc/self/status"
    let records ← IO.FS.readFile "/etc/passwd"
    return (userNumber? status).bind (homeOf? records)
  catch _ => return none

/-- Adds those of the files to the picture that are there.  One that cannot be read is a directory
in the picture, so that it is found and cannot be read there either. -/
def takeFiles (h : Host) (ps : List Path) : IO Host :=
  ps.foldlM (fun h p => do
    let file := (← IO.currentDir) / (h.absolute p).display
    try
      let content ← IO.FS.readBinFile file
      return add h p content.toList
    catch _ =>
      if ← file.pathExists then return h.edits [.dir p]
      return h) h

/-- Adds those of the directories to the picture that are there. -/
def takeDirs (h : Host) (ps : List Path) : IO Host :=
  ps.foldlM (fun h p => do
    try
      let _ ← ((← IO.currentDir) / (h.absolute p).display).readDir
      return h.edits [.dir p]
    catch _ => return h) h

/-- The picture for a command. -/
def take (vs : Variables) (args : List String) : IO Host := do
  let cwd : Place := FileTree.stepsOf (Path.ofString (← IO.currentDir).toString)
  let tempDir := Path.ofString ((vs.get? "TMPDIR").getD "/tmp")
  let home? ← readHome
  let h ← takeDirs (Tool.install { cwd, tempDir, home? }) [cwd.toPath, tempDir]
  let h ← takeFiles h (paths h vs args)
  takeDirs (← takeFiles h (toolPaths h vs)) (rootPaths h vs)

/-- Writes back what was made. -/
def giveBack (before after : FileTree) : IO Unit := do
  for dir in madeDirs before after do
    IO.FS.createDirAll dir.display
  for (p, content) in made before after do
    IO.FS.writeBinFile p.display (ByteArray.mk content.toArray)

/-- Standard input, if the command reads it. -/
def readInput (args : List String) : IO (List UInt8) := do
  match Command.parse none args with
  | .ok (.render c) =>
    if c.file.isNone || c.stdin then return (← (← IO.getStdin).readBinToEnd).toList
    return []
  | _ => return []

end ScenePreview.Picture

open ScenePreview in
/-- The program: takes the picture, executes the command on it, gives back and prints. -/
def main (args : List String) : IO UInt32 := do
  let vars ← Picture.readVariables
  let host ← Picture.take vars args
  let input ← Picture.readInput args
  let now ← IO.monoNanosNow
  let surroundings : Surroundings := {
    host, vars, input
    runner := Host.runProcess vars
    chance := { suffixes := Picture.nameEnd now } }
  match execute args surroundings with
  | .error e => return UInt32.ofNat e.exitCode
  | .ok f =>
    Picture.giveBack host.tree f.host.tree
    IO.print f.stdout
    IO.eprint f.stderr
    return UInt32.ofNat f.exitCode

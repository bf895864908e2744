import ScenePreview.Config.Layers
import ScenePreview.Variables

/-!
# Finding and loading the configuration

The file of the innermost project around the current directory is read, or else that of the
user. Only that one file is read: if it cannot be, that is an error.

## Main definitions

* `ConfigFile.locate?` — the file to read.
* `ConfigError` — why it cannot be read.
* `Configuration.load` — the configuration that holds.

## References

The reference's `find_config_file`, `load_config_file` and `load_config`; `ConfigFile.userDir?` is
the `config_dir` that it calls.
-/

namespace ScenePreview

namespace ConfigFile

/-- The variable that names the environment. -/
def environmentVariable : String := "SLICE_PREVIEW_ENV"

/-- The variable that names the transformer. -/
def transformerVariable : String := "SLICE_PREVIEW_TRANSFORMER"

/-- The directory of a project's configuration. -/
def dirName : String := ".slice-preview"

/-- The directory of a user's configuration. -/
def userDirName : String := "slice-preview"

/-- The name of a configuration file. -/
def fileName : String := "config.yaml"

/-- A place and those above it, up to the root. -/
def upwards (p : Place) : List Place :=
  (List.range (p.length + 1)).map fun n => p.take (p.length - n)

/-- The file of the project in a directory. -/
def ofProject (p : Place) : Path := (p.toPath.child dirName).child fileName

/-- The home directory of the user: what the variable says, or else what is on record. -/
def homeDir? (h : Host) (vs : Variables) : Option Path :=
  ((vs.get? "HOME").filter (· ≠ "")).map Path.ofString <|> h.home?

/-- The directory of all user configuration. -/
def userDir? (h : Host) (vs : Variables) : Option Path :=
  ((vs.get? "XDG_CONFIG_HOME").map Path.ofString).filter Path.isAbsolute
    <|> (homeDir? h vs).map (·.child ".config")

/-- The file of the user. -/
def ofUser? (h : Host) (vs : Variables) : Option Path :=
  (userDir? h vs).map fun dir => (dir.child userDirName).child fileName

/-- The file to read: that of the innermost project, or else that of the user. -/
def locate? (h : Host) (vs : Variables) : Option Path :=
  ((upwards h.cwd).map ofProject).find? h.exists <|> (ofUser? h vs).filter h.exists

end ConfigFile

/-- Why a configuration file cannot be read. -/
inductive ConfigError where
  /-- The file cannot be read. -/
  | unreadable (path : Path) (cause : IoError)
  /-- The file does not hold a configuration. -/
  | malformed (path : Path)
  deriving Repr, DecidableEq

/-- The text of the error.  What the parser has to say of a malformed file, which comes after the
path, is left out. -/
def ConfigError.message : ConfigError → String
  | .unreadable path cause =>
    "Failed to read config file: " ++ path.display ++ ": " ++ cause.message
  | .malformed path => "Failed to parse config file: " ++ path.display

/-- What reading text says to bytes that are none. -/
def notTextError : IoError := .other "stream did not contain valid UTF-8"

/-- The text of a file. -/
def Host.readText (h : Host) (p : Path) : Except IoError String := do
  match Text.Utf8.decode? (← h.tree.readFile h.cwd p) with
  | some s => return s
  | none => throw notTextError

namespace ConfigFile

/-- The content of a configuration file. -/
def read (h : Host) (p : Path) : Except ConfigError ConfigFile :=
  match h.readText p with
  | .error e => .error (.unreadable p e)
  | .ok s =>
    match parse? s with
    | some f => .ok f
    | none => .error (.malformed p)

end ConfigFile

/-- What the variables say. -/
def Overrides.ofVariables (vs : Variables) : Overrides :=
  { environment := vs.get? ConfigFile.environmentVariable
    transformer := vs.get? ConfigFile.transformerVariable }

/-- The configuration that holds. -/
def Configuration.load (h : Host) (vs : Variables) : Except ConfigError Configuration := do
  let o := Overrides.ofVariables vs
  match ConfigFile.locate? h vs with
  | some p => return ofLayers h (some (p, ← ConfigFile.read h p)) o
  | none => return ofLayers h none o

end ScenePreview

import ScenePreview.Config.File
import ScenePreview.Host
import ScenePreview.Request
import ScenePreview.Settings

/-!
# Layers of configuration

Variables of the surroundings come before the configuration file, and the file before the
defaults. A present layer wins even where it is blank.

## Main definitions

* `Overrides` — what the surroundings say.
* `Configuration` — what holds in the end.
* `Configuration.ofLayers` — the layers put together.

## References

The reference's `EnvOverrides`, `ResolvedConfig` and `resolve_path`.
-/

namespace ScenePreview

/-- What the surroundings say. -/
structure Overrides where
  /-- The environment to run tools in. -/
  environment : Option String := none
  /-- The transformer. -/
  transformer : Option String := none
  deriving Repr, DecidableEq

/-- The configuration that holds in the end. -/
structure Configuration where
  /-- The environment to run tools in; none for tools run directly. -/
  environment : Option String
  /-- The tools and the place of files. -/
  settings : Settings
  /-- The file that was read. -/
  configFile : Option Path
  deriving Repr, DecidableEq

namespace Configuration

/-- The directory of the project: the one that holds the directory of the file. -/
def projectDir (file : Option Path) : Path :=
  ((file.bind Path.parent?).bind Path.parent?).getD (Path.ofString ".")

/-- A path of the file, relative to the project. One that leads somewhere loses its links. -/
def pathFrom (h : Host) (base : Path) (text : String) : Path :=
  let p := Path.ofString text
  if p.isAbsolute then p
  else
    let joined := base.join p
    match h.tree.canonicalize h.cwd joined with
    | .ok q => q
    | .error _ => joined

/-- The transformer: from the surroundings as it is, from the file relative to the project,
or the default. -/
def transformer (h : Host) (base : Path) (fromVars fromFile : Option String) : Path :=
  match fromVars, fromFile with
  | some p, _ => Path.ofString p
  | none, some p => pathFrom h base p
  | none, none => ({} : Settings).transformer

/-- The layers put together. -/
def ofLayers (h : Host) (source : Option (Path × ConfigFile)) (o : Overrides) : Configuration :=
  let file := (source.map (·.2)).getD {}
  let configFile := source.map (·.1)
  let base := projectDir configFile
  let defaults : Settings := {}
  { environment := Request.environmentName? (o.environment <|> file.environment.name)
    settings := {
      launcher := file.environment.launcher.getD defaults.launcher
      interpreter := file.tools.interpreter.getD defaults.interpreter
      transformer := transformer h base o.transformer file.tools.transformer
      renderer := file.tools.renderer.getD defaults.renderer
      workdirPrefix := file.workdir.namePrefix.getD defaults.workdirPrefix
      tempRoot := file.workdir.root.map (pathFrom h base)
      keepFailedWorkdir := file.workdir.keepFailed }
    configFile }

end Configuration

end ScenePreview

import ScenePreview.Artifact
import ScenePreview.Artifact.Search
import ScenePreview.CommandLine.Arguments
import ScenePreview.CommandLine.Command
import ScenePreview.CommandLine.Execute
import ScenePreview.Config.File
import ScenePreview.Config.Layers
import ScenePreview.Config.Locate
import ScenePreview.Display.Console
import ScenePreview.Display.JsonLines
import ScenePreview.Display.Recorder
import ScenePreview.Event
import ScenePreview.Event.Json
import ScenePreview.Failure
import ScenePreview.FileTree.Basic
import ScenePreview.FileTree.Edit
import ScenePreview.FileTree.Listing
import ScenePreview.FileTree.Lookup
import ScenePreview.Host
import ScenePreview.Invocation
import ScenePreview.Json.Basic
import ScenePreview.Json.Number
import ScenePreview.Json.Reader
import ScenePreview.Json.Writer
import ScenePreview.Main
import ScenePreview.OsError
import ScenePreview.Path
import ScenePreview.Pipeline.Conduct
import ScenePreview.Pipeline.Job
import ScenePreview.Pipeline.Orchestrator
import ScenePreview.Pipeline.Rehearsal
import ScenePreview.Process.Act
import ScenePreview.Process.Collector
import ScenePreview.Process.Launch
import ScenePreview.Process.Output
import ScenePreview.Process.Program
import ScenePreview.Process.Runner
import ScenePreview.Proofs.Calls
import ScenePreview.Proofs.Capture
import ScenePreview.Proofs.Collector
import ScenePreview.Proofs.Conduct
import ScenePreview.Proofs.Deeds
import ScenePreview.Proofs.FileTree
import ScenePreview.Proofs.History
import ScenePreview.Proofs.Interleaving
import ScenePreview.Proofs.Outcome
import ScenePreview.Proofs.Path
import ScenePreview.Proofs.Rounds
import ScenePreview.Proofs.Utf8
import ScenePreview.Proofs.WorkDir
import ScenePreview.Render
import ScenePreview.Request
import ScenePreview.Run
import ScenePreview.Run.Json
import ScenePreview.RunState
import ScenePreview.Settings
import ScenePreview.Shell.Builtin
import ScenePreview.Shell.Context
import ScenePreview.Shell.Expansion
import ScenePreview.Shell.Parser
import ScenePreview.Shell.Run
import ScenePreview.Shell.Syntax
import ScenePreview.Shell.Token
import ScenePreview.Shell.Tool
import ScenePreview.Slice
import ScenePreview.Text.Blank
import ScenePreview.Text.Decimal
import ScenePreview.Text.Hex
import ScenePreview.Text.Invisible
import ScenePreview.Text.Quoted
import ScenePreview.Text.Scan
import ScenePreview.Text.Utf8
import ScenePreview.Timestamp
import ScenePreview.Uuid
import ScenePreview.Variables
import ScenePreview.Warning
import ScenePreview.WorkDir
import ScenePreview.Yaml.Char
import ScenePreview.Yaml.Node
import ScenePreview.Yaml.Token
import ScenePreview.Yaml.Token.Cursor
import ScenePreview.Yaml.Token.Property
import ScenePreview.Yaml.Token.Scalar
import ScenePreview.Yaml.Token.Scan
import ScenePreview.Proofs.Locator
import ScenePreview.Proofs.Video
import ScenePreview.Proofs.Json
import ScenePreview.Proofs.Display
import ScenePreview.Proofs.RunRecord
import ScenePreview.Proofs.Seclusion
import ScenePreview.Proofs.Position
import ScenePreview.Proofs.Solitude
import ScenePreview.Proofs.Duet
import ScenePreview.Proofs.Content
import ScenePreview.Proofs.Nearest
import ScenePreview.Proofs.Layers
import ScenePreview.Proofs.Plan
import ScenePreview.Proofs.Console
import ScenePreview.Proofs.Search
import ScenePreview.Proofs.Layout
import ScenePreview.Proofs.Writing
import ScenePreview.Proofs.Lines
import ScenePreview.Proofs.Summary
import ScenePreview.Proofs.MissingScene
import ScenePreview.Proofs.OneLine
import ScenePreview.Proofs.Notices
import ScenePreview.Proofs.Requests
import ScenePreview.Proofs.Words
import ScenePreview.Proofs.Decoder
import ScenePreview.Proofs.FileName
import ScenePreview.Proofs.Start
import ScenePreview.Proofs.Names
import ScenePreview.Proofs.Arrival

import BuildRecipe.Artifact
import BuildRecipe.Cli.Commands
import BuildRecipe.Cli.Grammar
import BuildRecipe.Cli.Parse
import BuildRecipe.Cli.Program
import BuildRecipe.Cli.Request
import BuildRecipe.Command
import BuildRecipe.Consumer
import BuildRecipe.Decimal.Binary64
import BuildRecipe.Decimal.Shortest
import BuildRecipe.Dictionary
import BuildRecipe.Error
import BuildRecipe.Fetch
import BuildRecipe.FileTree.Basic
import BuildRecipe.FileTree.Edit
import BuildRecipe.FileTree.Walk
import BuildRecipe.Glob.Pattern
import BuildRecipe.Glob.Search
import BuildRecipe.Json
import BuildRecipe.Layout
import BuildRecipe.Lifecycle.Artifacts
import BuildRecipe.Lifecycle.Export
import BuildRecipe.Lifecycle.Generate
import BuildRecipe.Lifecycle.Headers
import BuildRecipe.Lifecycle.MachineShell
import BuildRecipe.Lifecycle.Orchestrator
import BuildRecipe.Lifecycle.Programs
import BuildRecipe.Lifecycle.Simulated
import BuildRecipe.Lifecycle.Tools
import BuildRecipe.Machine
import BuildRecipe.Main
import BuildRecipe.PackageId
import BuildRecipe.Path
import BuildRecipe.Program
import BuildRecipe.Proofs.Act.Frame
import BuildRecipe.Proofs.Artifact.Names
import BuildRecipe.Proofs.Artifact.Search
import BuildRecipe.Proofs.Consumer.PkgConfig
import BuildRecipe.Proofs.Dictionary.Order
import BuildRecipe.Proofs.FileTree.Folders
import BuildRecipe.Proofs.FileTree.Frame
import BuildRecipe.Proofs.FileTree.Resolve
import BuildRecipe.Proofs.FileTree.SortedWalk
import BuildRecipe.Proofs.FileTree.Invariant
import BuildRecipe.Proofs.Hooks.Registration
import BuildRecipe.Proofs.Layout.Containment
import BuildRecipe.Proofs.Lifecycle.Calls
import BuildRecipe.Proofs.Lifecycle.CloneFolder
import BuildRecipe.Proofs.Lifecycle.Export
import BuildRecipe.Proofs.Lifecycle.HeaderCopy
import BuildRecipe.Proofs.Lifecycle.Packaging
import BuildRecipe.Proofs.Lifecycle.Phases
import BuildRecipe.Proofs.Lifecycle.Rebasing
import BuildRecipe.Proofs.Lifecycle.Script
import BuildRecipe.Proofs.Lifecycle.Staging
import BuildRecipe.Proofs.Options.Resolve
import BuildRecipe.Proofs.Options.Selection
import BuildRecipe.Proofs.PackageId.Lines
import BuildRecipe.Proofs.Path.Canonical
import BuildRecipe.Proofs.Path.Lexical
import BuildRecipe.Proofs.PkgConfig.Lines
import BuildRecipe.Proofs.Recipe.Substitution
import BuildRecipe.Proofs.Recipe.Validation
import BuildRecipe.Proofs.Settings.Overrides
import BuildRecipe.Proofs.Toolchain.NativeFile
import BuildRecipe.Recipe.Basic
import BuildRecipe.Recipe.Builtin
import BuildRecipe.Recipe.Context
import BuildRecipe.Recipe.Decode
import BuildRecipe.Recipe.File
import BuildRecipe.Recipe.Option
import BuildRecipe.Recipe.Stage
import BuildRecipe.Recipe.Validate
import BuildRecipe.Settings
import BuildRecipe.Sha256
import BuildRecipe.Shell.Arith
import BuildRecipe.Shell.Builtin
import BuildRecipe.Shell.Fields
import BuildRecipe.Shell.Number
import BuildRecipe.Shell.Parse
import BuildRecipe.Shell.Pattern
import BuildRecipe.Shell.Printf
import BuildRecipe.Shell.Run
import BuildRecipe.Shell.Session
import BuildRecipe.Shell.Syntax
import BuildRecipe.Shell.Test
import BuildRecipe.Text.Blank
import BuildRecipe.Text.Bytes
import BuildRecipe.Text.Printable
import BuildRecipe.Text.Quoted
import BuildRecipe.Text.Regex
import BuildRecipe.Text.Replace
import BuildRecipe.Text.Similarity
import BuildRecipe.Toml.Builder
import BuildRecipe.Toml.Cursor
import BuildRecipe.Toml.Datetime
import BuildRecipe.Toml.Diagnostic
import BuildRecipe.Toml.Document
import BuildRecipe.Toml.Failure
import BuildRecipe.Toml.Item
import BuildRecipe.Toml.Key
import BuildRecipe.Toml.Number
import BuildRecipe.Toml.Strings
import BuildRecipe.Toml.Trivia
import BuildRecipe.Toml.Value
import BuildRecipe.Toolchain.NativeFile
import BuildRecipe.Utility.Basic
import BuildRecipe.Utility.Columns
import BuildRecipe.Utility.Files
import BuildRecipe.Utility.Listing
import BuildRecipe.Utility.Mode
import BuildRecipe.Utility.Names
import BuildRecipe.Utility.Options
import BuildRecipe.Utility.Run
import BuildRecipe.Utility.Search
import BuildRecipe.Utility.Sequence
import BuildRecipe.Utility.Sort
import BuildRecipe.Utility.Text
import BuildRecipe.Utility.Translate
import BuildRecipe.Version

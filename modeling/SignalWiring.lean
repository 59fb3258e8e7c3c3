import SignalWiring.Artifact
import SignalWiring.Assignment
import SignalWiring.BuiltinEvent
import SignalWiring.CSharp.Lexeme
import SignalWiring.CSharp.Mask
import SignalWiring.CSharp.Outline
import SignalWiring.CSharp.Piece
import SignalWiring.Cache
import SignalWiring.Cli.Arguments
import SignalWiring.Cli.Command
import SignalWiring.Cli.Usage
import SignalWiring.Config
import SignalWiring.ConfigFile
import SignalWiring.Context
import SignalWiring.Decimal.Shortest
import SignalWiring.Diagnostic
import SignalWiring.Digest.Sha256
import SignalWiring.Discovery
import SignalWiring.Emission
import SignalWiring.Extraction
import SignalWiring.Fault
import SignalWiring.FileTree
import SignalWiring.Fragment
import SignalWiring.Generation
import SignalWiring.Given
import SignalWiring.Handler
import SignalWiring.IdTable
import SignalWiring.Ledger
import SignalWiring.Location
import SignalWiring.Log
import SignalWiring.Log.Format
import SignalWiring.Log.Setup
import SignalWiring.Main
import SignalWiring.Path
import SignalWiring.Pipeline
import SignalWiring.Proofs.Emission
import SignalWiring.Proofs.Incremental
import SignalWiring.Proofs.Ledger
import SignalWiring.Proofs.Numbering
import SignalWiring.Proofs.Refusal
import SignalWiring.Proofs.Registry
import SignalWiring.Proofs.Relocation
import SignalWiring.Proofs.Returns
import SignalWiring.Proofs.Scanning
import SignalWiring.Proofs.Session
import SignalWiring.Proofs.Transparency
import SignalWiring.Proofs.Wiring
import SignalWiring.Registry
import SignalWiring.Report.Console
import SignalWiring.Report.Grid
import SignalWiring.Report.Markup
import SignalWiring.Report.Plain
import SignalWiring.Report.Style
import SignalWiring.Setting
import SignalWiring.Text.Blank
import SignalWiring.Text.DecimalDigit
import SignalWiring.Text.Identifier
import SignalWiring.Text.IdentifierRanges
import SignalWiring.Text.Json
import SignalWiring.Text.PrintableRanges
import SignalWiring.Text.Quoted
import SignalWiring.Text.Ranges
import SignalWiring.Text.Split
import SignalWiring.Text.Utf8
import SignalWiring.Text.Width
import SignalWiring.Text.WidthRanges
import SignalWiring.Text.Wrap
import SignalWiring.Toml.Document
import SignalWiring.Toml.Scalar
import SignalWiring.Tree.Attribute
import SignalWiring.Tree.Basic
import SignalWiring.Tree.Container
import SignalWiring.Tree.Delegate
import SignalWiring.Tree.Namespace
import SignalWiring.Tree.Walk
import SignalWiring.Writer
import SignalWiring.Proofs.Answers
import SignalWiring.Proofs.Transition
import SignalWiring.Proofs.Locality
import SignalWiring.Proofs.Places
import SignalWiring.Proofs.Readable
import SignalWiring.Proofs.Coverage
import SignalWiring.Proofs.Fragments
import SignalWiring.Proofs.Reordering
import SignalWiring.Proofs.Noninterference
import SignalWiring.Proofs.Decoding
import SignalWiring.Proofs.Files
import SignalWiring.Proofs.Sources
import SignalWiring.Proofs.Writing
import SignalWiring.Proofs.Rerun
import SignalWiring.Proofs.Registration
import SignalWiring.Proofs.Stability
import SignalWiring.Proofs.Repetition
import SignalWiring.Proofs.Checks
import SignalWiring.Proofs.Acceptance
import SignalWiring.Proofs.Duplicates
import SignalWiring.Proofs.Texts
import SignalWiring.Proofs.Delegates
import SignalWiring.Proofs.AttributeNames
import SignalWiring.Proofs.Injectivity
import SignalWiring.Proofs.OutputNames
import SignalWiring.Proofs.ChangeDetection
import SignalWiring.Proofs.Outputs
import SignalWiring.Proofs.UnreadableFiles
import SignalWiring.Proofs.Bijection
import SignalWiring.Proofs.Caching
import SignalWiring.Proofs.Namespaces
import SignalWiring.Proofs.Discovery
import SignalWiring.Proofs.Preorder
import SignalWiring.Proofs.ExitCodes
import SignalWiring.Proofs.Layout
import SignalWiring.Proofs.Escaping
import SignalWiring.Proofs.Verbatim
import SignalWiring.Proofs.ConsoleReport

import MessageHarvest.Catalog.Entry
import MessageHarvest.Catalog.File
import MessageHarvest.Catalog.Quoted
import MessageHarvest.Catalog.Reference
import MessageHarvest.Catalog.Render
import MessageHarvest.Command.Arguments
import MessageHarvest.Command.Help
import MessageHarvest.Command.Report
import MessageHarvest.Command.Run
import MessageHarvest.Config.Basic
import MessageHarvest.Config.Check
import MessageHarvest.Config.Load
import MessageHarvest.Config.Record
import MessageHarvest.Constant.Evaluator
import MessageHarvest.Constant.Operator
import MessageHarvest.Constant.Value
import MessageHarvest.Encoding.Basic
import MessageHarvest.Encoding.Label
import MessageHarvest.Encoding.Table
import MessageHarvest.Extraction.Error
import MessageHarvest.Extraction.Project
import MessageHarvest.Files.Discovery
import MessageHarvest.Files.Disk
import MessageHarvest.Files.Path
import MessageHarvest.Files.System
import MessageHarvest.Files.Wildcard
import MessageHarvest.Json.Basic
import MessageHarvest.Json.Parser
import MessageHarvest.Json.Record
import MessageHarvest.Main
import MessageHarvest.Message.Basic
import MessageHarvest.Message.Reconcile
import MessageHarvest.Message.Store
import MessageHarvest.Proofs.Catalog.Composition
import MessageHarvest.Proofs.Catalog.Entries
import MessageHarvest.Proofs.Catalog.Faults
import MessageHarvest.Proofs.Catalog.Line
import MessageHarvest.Proofs.Catalog.Normal
import MessageHarvest.Proofs.Catalog.Quoting
import MessageHarvest.Proofs.Catalog.Reading
import MessageHarvest.Proofs.Catalog.Reference
import MessageHarvest.Proofs.Catalog.Reloading
import MessageHarvest.Proofs.Catalog.RoundTrip
import MessageHarvest.Proofs.Catalog.Runs
import MessageHarvest.Proofs.Catalog.Saving
import MessageHarvest.Proofs.Catalog.Wrapping
import MessageHarvest.Proofs.Config.Search
import MessageHarvest.Proofs.Constant.Concatenation
import MessageHarvest.Proofs.Constant.Evaluation
import MessageHarvest.Proofs.Constant.Extension
import MessageHarvest.Proofs.Constant.Semantics
import MessageHarvest.Proofs.Constant.Word
import MessageHarvest.Proofs.Encoding.RoundTrip
import MessageHarvest.Proofs.Extraction.Occurrences
import MessageHarvest.Proofs.Extraction.Opening
import MessageHarvest.Proofs.Extraction.Writing
import MessageHarvest.Proofs.Files.Ancestors
import MessageHarvest.Proofs.Files.Discovery
import MessageHarvest.Proofs.Files.Disk
import MessageHarvest.Proofs.Files.Expansion
import MessageHarvest.Proofs.Files.Here
import MessageHarvest.Proofs.Files.Looking
import MessageHarvest.Proofs.Files.Path
import MessageHarvest.Proofs.Files.Relative
import MessageHarvest.Proofs.Files.Rooted
import MessageHarvest.Proofs.Files.Tree
import MessageHarvest.Proofs.Files.Wildcard
import MessageHarvest.Proofs.Literal.Digit
import MessageHarvest.Proofs.Literal.Escapes
import MessageHarvest.Proofs.Literal.Indentation
import MessageHarvest.Proofs.Literal.Integer
import MessageHarvest.Proofs.Literal.TextBlock
import MessageHarvest.Proofs.Message.Loop
import MessageHarvest.Proofs.Message.Merge
import MessageHarvest.Proofs.Message.Operations
import MessageHarvest.Proofs.Message.Reconcile
import MessageHarvest.Proofs.Message.Reconciliation
import MessageHarvest.Proofs.Message.Store
import MessageHarvest.Proofs.Outcome
import MessageHarvest.Proofs.Rule.Override
import MessageHarvest.Proofs.Rule.Specification
import MessageHarvest.Proofs.Scan.Extension
import MessageHarvest.Proofs.Scan.Findings
import MessageHarvest.Proofs.Scan.Layout
import MessageHarvest.Proofs.Scan.Lines
import MessageHarvest.Proofs.Scan.Sites
import MessageHarvest.Proofs.Sorted
import MessageHarvest.Proofs.Source.Grammar
import MessageHarvest.Proofs.Source.Layout
import MessageHarvest.Proofs.Source.Lines
import MessageHarvest.Proofs.Source.Lowering
import MessageHarvest.Proofs.Source.Marks
import MessageHarvest.Proofs.Source.Names
import MessageHarvest.Proofs.Source.Naming
import MessageHarvest.Proofs.Source.Reading
import MessageHarvest.Proofs.Source.Shape
import MessageHarvest.Proofs.Source.Spacing
import MessageHarvest.Proofs.Source.Syntax
import MessageHarvest.Proofs.Source.Tokens
import MessageHarvest.Proofs.Text.Lines
import MessageHarvest.Proofs.Text.Number
import MessageHarvest.Proofs.Text.Trimming
import MessageHarvest.Proofs.Text.Units
import MessageHarvest.Proofs.Text.Utf8
import MessageHarvest.Rule.Basic
import MessageHarvest.Rule.Record
import MessageHarvest.Rule.Registry
import MessageHarvest.Rule.Spec
import MessageHarvest.Scan
import MessageHarvest.Sorted
import MessageHarvest.Source.Double
import MessageHarvest.Source.Expr
import MessageHarvest.Source.Grammar
import MessageHarvest.Source.Literal
import MessageHarvest.Source.Model
import MessageHarvest.Source.Parser
import MessageHarvest.Source.Syntax.Declarations
import MessageHarvest.Source.Syntax.Expressions
import MessageHarvest.Source.Syntax.Rule
import MessageHarvest.Source.Syntax.Statements
import MessageHarvest.Source.Syntax.Types
import MessageHarvest.Source.Token
import MessageHarvest.Source.Tree
import MessageHarvest.Source.Unit
import MessageHarvest.Text.Blank
import MessageHarvest.Text.Case
import MessageHarvest.Text.Display
import MessageHarvest.Text.Identifier
import MessageHarvest.Text.Number
import MessageHarvest.Text.Pattern
import MessageHarvest.Text.Ranges
import MessageHarvest.Text.Split
import MessageHarvest.Text.Units
import MessageHarvest.Text.Utf8

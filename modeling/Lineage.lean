import Lineage.ClassDecl
import Lineage.Command.Arguments
import Lineage.Command.Failure
import Lineage.Command.Init
import Lineage.Command.Options
import Lineage.Command.Routine
import Lineage.Command.Run
import Lineage.Command.Scan
import Lineage.Discovery
import Lineage.Failure
import Lineage.FileTree
import Lineage.Forest.Basic
import Lineage.Forest.Build
import Lineage.Glob
import Lineage.Grammar.Automaton
import Lineage.Grammar.Chart
import Lineage.Grammar.Form
import Lineage.Ignore.Pattern
import Lineage.Ignore.Rules
import Lineage.Json.Basic
import Lineage.Json.Printer
import Lineage.Json.Reader
import Lineage.Json.Record
import Lineage.Main
import Lineage.Output.Format
import Lineage.Output.Render
import Lineage.Output.Style
import Lineage.Output.Table
import Lineage.Override.Analysis
import Lineage.Override.Report
import Lineage.Override.Verdict
import Lineage.Parallel
import Lineage.Path
import Lineage.Php.Extraction
import Lineage.Php.Grammar.Basic
import Lineage.Php.Grammar.Declaration
import Lineage.Php.Grammar.Expression
import Lineage.Php.Grammar.Literal
import Lineage.Php.Grammar.Rules
import Lineage.Php.Grammar.Statement
import Lineage.Php.Grammar.Type
import Lineage.Php.Lexical.Character
import Lineage.Php.Lexical.Literal
import Lineage.Php.Lexical.Template
import Lineage.Php.Lexical.Token
import Lineage.Php.Program
import Lineage.Php.Reader
import Lineage.Php.Repair
import Lineage.Php.Repair.Attempt
import Lineage.Php.Repair.Return
import Lineage.Php.Repair.Sight
import Lineage.Php.Source
import Lineage.Php.SyntaxTree
import Lineage.Php.Terminal
import Lineage.Record.Class
import Lineage.Record.Report
import Lineage.Scan.Extraction
import Lineage.Scan.Results
import Lineage.Scan.Run
import Lineage.Settings.Basic
import Lineage.Settings.File
import Lineage.Signature
import Lineage.Text.Blank
import Lineage.Text.Columns
import Lineage.Text.Emoji
import Lineage.Text.Lowercase
import Lineage.Text.Ranges
import Lineage.Text.Split
import Lineage.Text.Utf8
import Lineage.Text.Width
import Lineage.Toml.Basic
import Lineage.Toml.Document
import Lineage.Toml.Reader
import Lineage.Toml.Scalar
import Lineage.Toml.Text
import Lineage.Proofs.Forest.Links
import Lineage.Proofs.Forest.Walks
import Lineage.Proofs.Forest.WellFormed
import Lineage.Proofs.Forest.UniqueNames
import Lineage.Proofs.Forest.Orphans
import Lineage.Proofs.Forest.Arrangement
import Lineage.Proofs.Forest.Subtrees
import Lineage.Proofs.Forest.Embedding
import Lineage.Proofs.Forest.Families
import Lineage.Proofs.Override.Classification
import Lineage.Proofs.Override.Comparison
import Lineage.Proofs.Override.Reports
import Lineage.Proofs.Override.Coverage
import Lineage.Proofs.Override.Arrival
import Lineage.Proofs.Override.Families
import Lineage.Proofs.Forest.RepeatedNames
import Lineage.Proofs.Forest.Insertion
import Lineage.Proofs.Forest.Order
import Lineage.Proofs.Forest.Height
import Lineage.Proofs.FileTree
import Lineage.Proofs.Settings.Search
import Lineage.Proofs.Json.Grammar
import Lineage.Proofs.Json.Printing
import Lineage.Proofs.Json.Record
import Lineage.Proofs.Record.Class
import Lineage.Proofs.Output.Json
import Lineage.Proofs.Parallel
import Lineage.Proofs.Scan.Schedules
import Lineage.Proofs.Command.Scan
import Lineage.Proofs.Discovery
import Lineage.Proofs.Walk
import Lineage.Proofs.Scan.Sources
import Lineage.Proofs.Scan.Failures
import Lineage.Proofs.Scan.Order
import Lineage.Proofs.Path
import Lineage.Proofs.Settings.Acceptance
import Lineage.Proofs.ClassNames
import Lineage.Proofs.Override.Pairs
import Lineage.Proofs.Php.Classes
import Lineage.Proofs.Grammar.Reading
import Lineage.Proofs.Grammar.Automaton
import Lineage.Proofs.Grammar.Chart
import Lineage.Proofs.Php.Lexical
import Lineage.Proofs.Php.Source
import Lineage.Proofs.Php.Keyword
import Lineage.Proofs.Scan.Keyword
import Lineage.Proofs.Forest.ParentSearch
import Lineage.Proofs.Php.Faults
import Lineage.Proofs.Php.ParentNames

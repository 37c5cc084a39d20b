import RouteDepot.Binary64
import RouteDepot.Binary64.Shortest
import RouteDepot.Bundle
import RouteDepot.CommandLine.Arguments
import RouteDepot.CommandLine.Run
import RouteDepot.Context.Error
import RouteDepot.Context.Merge
import RouteDepot.Context.Placeholder
import RouteDepot.Context.RestConfiguration
import RouteDepot.Context.Store
import RouteDepot.Diagnostic
import RouteDepot.Dictionary
import RouteDepot.Excerpt.Drawing
import RouteDepot.Excerpt.Line
import RouteDepot.Json
import RouteDepot.Json.Reading
import RouteDepot.Ledger
import RouteDepot.Listing
import RouteDepot.Listing.Reading
import RouteDepot.Load.Error
import RouteDepot.Load.Loader
import RouteDepot.Load.Printed
import RouteDepot.Load.Registry
import RouteDepot.Load.Resolution
import RouteDepot.Load.Stage
import RouteDepot.Main
import RouteDepot.Proofs.Context.Agreement
import RouteDepot.Proofs.Context.Growth
import RouteDepot.Proofs.Direct.Chain
import RouteDepot.Proofs.Direct.Compilation
import RouteDepot.Proofs.Direct.Execution
import RouteDepot.Proofs.Direct.Expression
import RouteDepot.Proofs.Direct.Statement
import RouteDepot.Proofs.Instantiation
import RouteDepot.Proofs.Layout.Alignment
import RouteDepot.Proofs.Layout.Classes
import RouteDepot.Proofs.Layout.Compiled
import RouteDepot.Proofs.Layout.Declarations
import RouteDepot.Proofs.Layout.Expressions
import RouteDepot.Proofs.Layout.InStep
import RouteDepot.Proofs.Layout.Instructions
import RouteDepot.Proofs.Layout.Operands
import RouteDepot.Proofs.Layout.Statements
import RouteDepot.Proofs.Layout.Tree
import RouteDepot.Proofs.Layout.Units
import RouteDepot.Proofs.Lexing.Characters
import RouteDepot.Proofs.Lexing.Literals
import RouteDepot.Proofs.Lexing.Rendering
import RouteDepot.Proofs.Lexing.Scanning
import RouteDepot.Proofs.Lexing.Spelling
import RouteDepot.Proofs.Lexing.Tiling
import RouteDepot.Proofs.Load.AllOrNothing
import RouteDepot.Proofs.Load.Commutation
import RouteDepot.Proofs.Lookup
import RouteDepot.Proofs.Lowering.Body
import RouteDepot.Proofs.Lowering.Call
import RouteDepot.Proofs.Lowering.Chain
import RouteDepot.Proofs.Lowering.Class
import RouteDepot.Proofs.Lowering.Clean
import RouteDepot.Proofs.Lowering.Explained
import RouteDepot.Proofs.Lowering.Operand
import RouteDepot.Proofs.Naming.Compiled
import RouteDepot.Proofs.Naming.Package
import RouteDepot.Proofs.Position.Boundary
import RouteDepot.Proofs.Position.Place
import RouteDepot.Proofs.Position.Reported
import RouteDepot.Proofs.Printing.Declarations
import RouteDepot.Proofs.Printing.Expressions
import RouteDepot.Proofs.Printing.Limits
import RouteDepot.Proofs.Printing.Names
import RouteDepot.Proofs.Printing.Printer
import RouteDepot.Proofs.Printing.Reading
import RouteDepot.Proofs.Printing.Statements
import RouteDepot.Proofs.Printing.Units
import RouteDepot.Proofs.Results
import RouteDepot.Proofs.Running
import RouteDepot.Proofs.Safety.Arguments
import RouteDepot.Proofs.Safety.Compilation
import RouteDepot.Proofs.Safety.Failure
import RouteDepot.Proofs.Spelling.Accounts
import RouteDepot.Proofs.Spelling.Declarations
import RouteDepot.Proofs.Spelling.Expressions
import RouteDepot.Proofs.Spelling.Names
import RouteDepot.Proofs.Spelling.Statements
import RouteDepot.Proofs.Spelling.Tree
import RouteDepot.Proofs.Spelling.Units
import RouteDepot.QualifiedName
import RouteDepot.Rest
import RouteDepot.Route
import RouteDepot.RouteClass.Compile
import RouteDepot.RouteClass.Definition
import RouteDepot.RouteClass.Evaluation
import RouteDepot.RouteClass.Instance
import RouteDepot.RouteClass.Lowering.Body
import RouteDepot.RouteClass.Lowering.Chain
import RouteDepot.RouteClass.Lowering.Class
import RouteDepot.RouteClass.Lowering.Definition
import RouteDepot.RouteClass.Lowering.Lowered
import RouteDepot.RouteClass.Lowering.Operand
import RouteDepot.RouteClass.Parsing.Cursor
import RouteDepot.RouteClass.Parsing.Declaration
import RouteDepot.RouteClass.Parsing.Expression
import RouteDepot.RouteClass.Parsing.Statement
import RouteDepot.RouteClass.Program
import RouteDepot.RouteClass.Syntax
import RouteDepot.RouteClass.Token
import RouteDepot.RouteClass.Token.Scan
import RouteDepot.Settings
import RouteDepot.Settings.VariableFile
import RouteDepot.Settings.VariableFile.Assignment
import RouteDepot.Settings.VariableFile.Line
import RouteDepot.Source
import RouteDepot.Surroundings
import RouteDepot.Surroundings.FileTree
import RouteDepot.Text.Alphabetic
import RouteDepot.Text.Blank
import RouteDepot.Text.Cut
import RouteDepot.Text.Hex
import RouteDepot.Text.Lines
import RouteDepot.Text.Number
import RouteDepot.Text.Numeric
import RouteDepot.Text.Offset
import RouteDepot.Text.Ranges
import RouteDepot.Text.Reader
import RouteDepot.Text.Uppercase
import RouteDepot.Text.Utf8
import RouteDepot.Text.Width
import RouteDepot.Toml.Document
import RouteDepot.Toml.Flat
import RouteDepot.Toml.Moment
import RouteDepot.Toml.Scalar
import RouteDepot.Toml.Spacing
import RouteDepot.Toml.Table
import RouteDepot.Toml.Value
import RouteDepot.Proofs.Placeholders.Decomposition
import RouteDepot.Proofs.Configuration.Edits
import RouteDepot.Proofs.Placeholders.Stability
import RouteDepot.Proofs.Placeholders.Early
import RouteDepot.Proofs.Placeholders.Twice
import RouteDepot.Proofs.Calls.Inlining
import RouteDepot.Proofs.Calls.Machine
import RouteDepot.Proofs.Calls.Configured
import RouteDepot.Proofs.Configuration.PerKey
import RouteDepot.Proofs.Configuration.Rearranging
import RouteDepot.Proofs.Configuration.Configured
import RouteDepot.Proofs.Placeholders.Rewritten
import RouteDepot.Proofs.Building.Services
import RouteDepot.Proofs.References.Resolved
import RouteDepot.Proofs.Reporting.Compiled
import RouteDepot.Proofs.Locals.Configured
import RouteDepot.Proofs.Once.Configured
import RouteDepot.Proofs.Shallow.Trees
import RouteDepot.Proofs.Recovery.Bounded
import RouteDepot.Proofs.Isolation.Isolated
import RouteDepot.Proofs.Load.Stopping
import RouteDepot.Proofs.Reordering.Units
import RouteDepot.Proofs.Naming.Grammar
import RouteDepot.Proofs.Toml.Flattened
import RouteDepot.Proofs.Context.Written
import RouteDepot.Proofs.Load.Registration
import RouteDepot.Proofs.Naming.Uri
import RouteDepot.Proofs.Lowering.Complete
import RouteDepot.Proofs.Concatenation.Built
import RouteDepot.Proofs.Concatenation.Grouped

import Unsugar.Binary64.Shortest
import Unsugar.Text.Blank
import Unsugar.Text.Letter
import Unsugar.Text.Quoted
import Unsugar.Text.Utf8
import Unsugar.Position
import Unsugar.Token
import Unsugar.StringLiteral
import Unsugar.Token.Lexer
import Unsugar.Tree.Basic
import Unsugar.Tree.Span
import Unsugar.Grammar.FormattedString
import Unsugar.Grammar.Expression
import Unsugar.Grammar.Source
import Unsugar.Tree.Printer
import Unsugar.Tree.Leaves
import Unsugar.Tree.Walk
import Unsugar.Tree.Visitor
import Unsugar.Tree.Occurrence
import Unsugar.Scope.Collect
import Unsugar.Scope.Tree
import Unsugar.Scope.Private
import Unsugar.Options
import Unsugar.Disabled
import Unsugar.Context
import Unsugar.Tree.Shape
import Unsugar.Lowering.Expression
import Unsugar.Lowering.Statement
import Unsugar.Hints
import Unsugar.Definition.Class
import Unsugar.Desugar
import Unsugar.Tree.Same
import Unsugar.Session
import Unsugar.Template
import Unsugar.Chunk
import Unsugar.Diff.Unified
import Unsugar.Document.Node
import Unsugar.Document.Page
import Unsugar.Setting
import Unsugar.Setting.Printer
import Unsugar.Setting.Reader
import Unsugar.Setting.Layers
import Unsugar.CommandLine.Flag
import Unsugar.CommandLine.Command
import Unsugar.CommandLine.Directory
import Unsugar.CommandLine.Run
import Unsugar.Main
import Unsugar.Proofs.Lowering.Form
import Unsugar.Proofs.Lowering.Parts
import Unsugar.Proofs.Lowering.Expression
import Unsugar.Proofs.Lowering.Statement
import Unsugar.Proofs.Lowering.Passes
import Unsugar.Proofs.Lowering.Emission
import Unsugar.Proofs.Scope.Outline
import Unsugar.Proofs.Scope.Binding
import Unsugar.Proofs.Scope.Owner
import Unsugar.Proofs.Scope.Correspondence
import Unsugar.Proofs.Scope.Order
import Unsugar.Proofs.Scope.Private
import Unsugar.Proofs.Definition.Descent
import Unsugar.Proofs.Definition.Function
import Unsugar.Proofs.Definition.Method
import Unsugar.Proofs.Definition.Class
import Unsugar.Proofs.Control.Handler
import Unsugar.Proofs.Control.Loop
import Unsugar.Proofs.Definition.Meaning
import Unsugar.Proofs.Definition.Closure
import Unsugar.Proofs.Definition.Lookup
import Unsugar.Proofs.Evaluation.Simple
import Unsugar.Proofs.Evaluation.Call
import Unsugar.Proofs.Evaluation.Choice
import Unsugar.Proofs.Evaluation.Chain
import Unsugar.Proofs.Evaluation.Expression
import Unsugar.Proofs.Control.Assignment
import Unsugar.Proofs.Control.Manager
import Unsugar.Proofs.Docstring.Module
import Unsugar.Proofs.Supply
import Unsugar.Proofs.Grammar.Expression
import Unsugar.Proofs.Grammar.Statement
import Unsugar.Proofs.Refusal.Expression
import Unsugar.Proofs.Refusal.Hints
import Unsugar.Proofs.Refusal.Module
import Unsugar.Proofs.Scope.Cell
import Unsugar.Proofs.Token.Stream
import Unsugar.Proofs.Token.Literal
import Unsugar.Proofs.Grammar.LineEnd
import Unsugar.Proofs.Token.Integer
import Unsugar.Proofs.StringLiteral.RoundTrip
import Unsugar.Proofs.Grammar.Decoding
import Unsugar.Proofs.Grammar.Printed
import Unsugar.Proofs.NumberedName
import Unsugar.Proofs.Tree.Agreement
import Unsugar.Proofs.Template.Filling
import Unsugar.Proofs.Definition.Reach
import Unsugar.Proofs.Renumber
import Unsugar.Proofs.Address.Depth
import Unsugar.Proofs.Chunk.LineNumber
import Unsugar.Proofs.Chunk.Incident
import Unsugar.Proofs.Explicit.Module

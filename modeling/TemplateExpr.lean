import TemplateExpr.Text.Alphabetic
import TemplateExpr.Text.Numeric
import TemplateExpr.Text.Blank
import TemplateExpr.Text.Printable
import TemplateExpr.Text.GraphemeExtend
import TemplateExpr.Text.DefaultIgnorable
import TemplateExpr.Text.CharClass
import TemplateExpr.Text.Quoted
import TemplateExpr.Source.Position
import TemplateExpr.Source.Span
import TemplateExpr.Sigil
import TemplateExpr.Decimal.Binary
import TemplateExpr.Decimal.Shortest
import TemplateExpr.Decimal.Notation
import TemplateExpr.Decimal.Reading
import TemplateExpr.Token.Basic
import TemplateExpr.Token.Trivia
import TemplateExpr.Token.Number
import TemplateExpr.Token.Literal
import TemplateExpr.Token.Symbol
import TemplateExpr.Token.Lexeme
import TemplateExpr.Token.OfText
import TemplateExpr.Syntax.Tree
import TemplateExpr.Syntax.Identifiers
import TemplateExpr.SyntaxError
import TemplateExpr.Production.Input
import TemplateExpr.Production.Rules
import TemplateExpr.Production.Series
import TemplateExpr.Production.Function
import TemplateExpr.Production.Operand
import TemplateExpr.Syntax.Operator
import TemplateExpr.Production.Operation
import TemplateExpr.Production.Statement
import TemplateExpr.Names
import TemplateExpr.Syntax.OfText
import TemplateExpr.Binding.Ancestors
import TemplateExpr.Binding.Classify
import TemplateExpr.Binding.Basic
import TemplateExpr.Syntax.Precedence
import TemplateExpr.Syntax.Written
import TemplateExpr.Text.Join
import TemplateExpr.Json.Basic
import TemplateExpr.Json.OfText
import TemplateExpr.Json.Written
import TemplateExpr.Template
import TemplateExpr.Document.Region
import TemplateExpr.Document.Scan
import TemplateExpr.Codec.Source
import TemplateExpr.Codec.Tree
import TemplateExpr.Codec.OfTree
import TemplateExpr.Codec.Report
import TemplateExpr.Syntax.Same
import TemplateExpr.Files
import TemplateExpr.Settings
import TemplateExpr.CommandLine.Offset
import TemplateExpr.CommandLine.Arguments
import TemplateExpr.CommandLine.Run
import TemplateExpr.Token.Value
import TemplateExpr.Main
import TemplateExpr.Proofs.Binding.Scope
import TemplateExpr.Proofs.Places.Natural
import TemplateExpr.Proofs.Document.Bindings
import TemplateExpr.Proofs.Document.Translation
import TemplateExpr.Proofs.Printing.Legible
import TemplateExpr.Proofs.Printing.Yield
import TemplateExpr.Proofs.Document.Partition
import TemplateExpr.Proofs.Document.Recovery
import TemplateExpr.Proofs.Codec.RoundTrip
import TemplateExpr.Proofs.Grammar.WellFormed
import TemplateExpr.Proofs.Token.Tiling
import TemplateExpr.Proofs.Binding.Contexts
import TemplateExpr.Proofs.Printing.Chains
import TemplateExpr.Proofs.Grammar.Delimiters
import TemplateExpr.Proofs.Grammar.Faults
import TemplateExpr.Proofs.Token.Sigils
import TemplateExpr.Proofs.Places.Nesting
import TemplateExpr.Proofs.Grammar.Choice
import TemplateExpr.Proofs.Document.Comments
import TemplateExpr.Proofs.Document.Urls
import TemplateExpr.Proofs.Token.Lines
import TemplateExpr.Proofs.Token.LineEnds
import TemplateExpr.Proofs.Places.LineEnds
import TemplateExpr.Proofs.Binding.Holes
import TemplateExpr.Proofs.Binding.Allowed
import TemplateExpr.Proofs.Token.Encodings
import TemplateExpr.Proofs.Token.Joined
import TemplateExpr.Proofs.Grammar.Followed
import TemplateExpr.Proofs.Grammar.Concatenation
import TemplateExpr.Proofs.Token.Spaced
import TemplateExpr.Proofs.Places.Positions
import TemplateExpr.Proofs.Grammar.Progress

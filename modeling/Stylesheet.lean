import Stylesheet.Main
import Stylesheet.Proofs.Grammar
import Stylesheet.Proofs.Grammar.Language
import Stylesheet.Proofs.Grammar.Soundness
import Stylesheet.Proofs.Grammar.Completeness
import Stylesheet.Proofs.Grammar.Recognition
import Stylesheet.Proofs.Grammar.Parts
import Stylesheet.Proofs.Grammar.Lookahead
import Stylesheet.Proofs.Grammar.Predictive
import Stylesheet.Proofs.Grammar.Viable
import Stylesheet.Proofs.Grammar.Position
import Stylesheet.Proofs.Grammar.Progress
import Stylesheet.Proofs.Lexer.Lexeme
import Stylesheet.Proofs.Lexer.Front
import Stylesheet.Proofs.Lexer.Munch
import Stylesheet.Proofs.Lexer.Boundary
import Stylesheet.Proofs.Expression.Composition
import Stylesheet.Proofs.Expression.Hole
import Stylesheet.Proofs.Expression.Spelling
import Stylesheet.Proofs.Logged
import Stylesheet.Proofs.Table.Agreement
import Stylesheet.Proofs.Number
import Stylesheet.Proofs.Environment
import Stylesheet.Proofs.CommandLine.Settings
import Stylesheet.Proofs.Sheet.WellFormed
import Stylesheet.Proofs.Sheet.Loading
import Stylesheet.Proofs.Rule.Kinds
import Stylesheet.Proofs.Rule.TypedRead
import Stylesheet.Proofs.Rule.Fallback
import Stylesheet.Proofs.Sheet.Inheritance
import Stylesheet.Proofs.Rule.Default
import Stylesheet.Proofs.Rule.Agreement
import Stylesheet.Proofs.Rule.Delivery
import Stylesheet.Proofs.Rule.Numeric
import Stylesheet.Proofs.Rule.Integer
import Stylesheet.Proofs.Sheet.Reading
import Stylesheet.Proofs.TwoRuns
import Stylesheet.Proofs.Rule.Undefined
import Stylesheet.Proofs.Expression.Cause
import Stylesheet.Proofs.Expression.Dependence
import Stylesheet.Proofs.Rule.Matching
import Stylesheet.Proofs.Expression.Fault
import Stylesheet.Proofs.Expression.Failure
import Stylesheet.Proofs.Recorder
import Stylesheet.Proofs.Recorder.Reading
import Stylesheet.Proofs.Recorder.Loading
import Stylesheet.Proofs.Expression.Origin
import Stylesheet.Proofs.Expression.Equality
import Stylesheet.Proofs.Rule.FontSize
import Stylesheet.Proofs.Sheet.Source
import Stylesheet.Proofs.Sheet.FontSize
import Stylesheet.Proofs.Yaml.Tree
import Stylesheet.Proofs.Yaml.Unfold
import Stylesheet.Proofs.Yaml.Composing
import Stylesheet.Proofs.Sheet.Text
import Stylesheet.Proofs.Decimal
import Stylesheet.Proofs.Decimal.Exact
import Stylesheet.Proofs.Decimal.Integer
import Stylesheet.Proofs.Decimal.Rounding
import Stylesheet.Proofs.Decimal.Packing
import Stylesheet.Proofs.Decimal.Nearest
import Stylesheet.Proofs.Decimal.Numeral
import Stylesheet.Proofs.Rule.Equality
import Stylesheet.Proofs.Sheet.Equality
import Stylesheet.Proofs.Lists
import Stylesheet.Proofs.Rule.Parts
import Stylesheet.Proofs.Rule.Literal
import Stylesheet.Proofs.Rule.Arguments
import Stylesheet.Proofs.Rule.FontFamily
import Stylesheet.Proofs.Rule.Storage
import Stylesheet.Proofs.Rule.Contents
import Stylesheet.Proofs.Sheet.Contents
import Stylesheet.Proofs.Rule.Causes
import Stylesheet.Proofs.Rule.SizeNumeral
import Stylesheet.Proofs.Sheet.Causes
import Stylesheet.Proofs.Recording
import Stylesheet.Proofs.Rule.Recording
import Stylesheet.Proofs.Sheet.Recording
import Stylesheet.Proofs.Text.Uppercase
import Stylesheet.Proofs.Rule.Color
import Stylesheet.Proofs.Rule.ColorText
import Stylesheet.Proofs.Rule.ExpressionText
import Stylesheet.Proofs.Yaml.Document
import Stylesheet.Proofs.Yaml.Keys

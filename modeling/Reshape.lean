import Reshape.Decimal
import Reshape.Definition.Basic
import Reshape.Definition.Help
import Reshape.Definition.Match
import Reshape.Definition.Parameter
import Reshape.Double.Basic
import Reshape.Double.Extended
import Reshape.Double.Round
import Reshape.Double.Shortest
import Reshape.Double.Text
import Reshape.Edit
import Reshape.Fault
import Reshape.Grammar.Diagnostic
import Reshape.Grammar.Quotation
import Reshape.Grammar.Reader
import Reshape.Host.Basic
import Reshape.Host.Number
import Reshape.Host.Value
import Reshape.Json.Read
import Reshape.Json.Token
import Reshape.Json.Write
import Reshape.Key.Basic
import Reshape.Key.Expand
import Reshape.Key.Flatten
import Reshape.Key.Order
import Reshape.Key.Read
import Reshape.Logging
import Reshape.Number.Basic
import Reshape.Number.Literal
import Reshape.Number.Order
import Reshape.Number.Read
import Reshape.Pattern.Basic
import Reshape.Pattern.Error
import Reshape.Pattern.Match
import Reshape.Pattern.Read
import Reshape.Pattern.Source
import Reshape.Pattern.Template
import Reshape.Pipeline.Basic
import Reshape.Pipeline.Literal
import Reshape.Pipeline.Read
import Reshape.Pipeline.Token
import Reshape.Power
import Reshape.Proofs.Decimal
import Reshape.Proofs.Definition.Additions
import Reshape.Proofs.Definition.Bindings
import Reshape.Proofs.Definition.Fallbacks
import Reshape.Proofs.Definition.Match
import Reshape.Proofs.Definition.NormalForm
import Reshape.Proofs.Definition.Reading
import Reshape.Proofs.Double.Nearest
import Reshape.Proofs.Double.Shortest
import Reshape.Proofs.Double.Text
import Reshape.Proofs.Edit.BottomUp
import Reshape.Proofs.Edit.Children
import Reshape.Proofs.Edit.Positions
import Reshape.Proofs.Edit.Removal
import Reshape.Proofs.Edit.Root
import Reshape.Proofs.Grammar.Failure
import Reshape.Proofs.Grammar.Quotation
import Reshape.Proofs.Grammar.Reader
import Reshape.Proofs.Json.Document
import Reshape.Proofs.Json.Line
import Reshape.Proofs.Json.RoundTrip
import Reshape.Proofs.Json.Text
import Reshape.Proofs.Key.Assignments
import Reshape.Proofs.Key.Canonical
import Reshape.Proofs.Key.Expansion
import Reshape.Proofs.Key.FlattenExpand
import Reshape.Proofs.Key.Listing
import Reshape.Proofs.Key.Nodes
import Reshape.Proofs.Key.Order
import Reshape.Proofs.Key.Reading
import Reshape.Proofs.Key.Refusal
import Reshape.Proofs.Key.RoundTrip
import Reshape.Proofs.Key.Spelling
import Reshape.Proofs.Number.Limit
import Reshape.Proofs.Number.Literal
import Reshape.Proofs.Number.Numeral
import Reshape.Proofs.Number.Order
import Reshape.Proofs.Number.Text
import Reshape.Proofs.Outcome
import Reshape.Proofs.Pattern.Failure
import Reshape.Proofs.Pipeline.Accepted
import Reshape.Proofs.Pipeline.Display
import Reshape.Proofs.Pipeline.Join
import Reshape.Proofs.Pipeline.Layout
import Reshape.Proofs.Pipeline.LiteralAccepted
import Reshape.Proofs.Pipeline.LiteralArgument
import Reshape.Proofs.Pipeline.Refusal
import Reshape.Proofs.Pipeline.Sound
import Reshape.Proofs.Pipeline.Tokens
import Reshape.Proofs.Query.Paths
import Reshape.Proofs.Query.Select
import Reshape.Proofs.Related
import Reshape.Proofs.Sorting
import Reshape.Proofs.Text.Ascii
import Reshape.Proofs.Text.Line
import Reshape.Proofs.Transform.Agreement
import Reshape.Proofs.Transform.Apply
import Reshape.Proofs.Transform.Arguments
import Reshape.Proofs.Transform.Build
import Reshape.Proofs.Transform.Built
import Reshape.Proofs.Transform.Compile
import Reshape.Proofs.Transform.Composition
import Reshape.Proofs.Transform.Depth
import Reshape.Proofs.Transform.Insertions
import Reshape.Proofs.Transform.Leak
import Reshape.Proofs.Transform.Total
import Reshape.Proofs.Value.Arrangement
import Reshape.Proofs.Value.Depth
import Reshape.Proofs.Value.Document
import Reshape.Proofs.Value.Emptiness
import Reshape.Proofs.Value.Entries
import Reshape.Proofs.Value.Equality
import Reshape.Proofs.Value.KeyOrder
import Reshape.Proofs.Value.Merge
import Reshape.Proofs.Value.MergeLaws
import Reshape.Proofs.Value.MergedPlace
import Reshape.Proofs.Value.Numbers
import Reshape.Proofs.Value.Order
import Reshape.Proofs.Value.Place
import Reshape.Proofs.Value.Shape
import Reshape.Proofs.Value.Sort
import Reshape.Query.Basic
import Reshape.Query.Compare
import Reshape.Query.Engine
import Reshape.Query.Find
import Reshape.Query.Node
import Reshape.Query.Path
import Reshape.Query.Read
import Reshape.Query.Slice
import Reshape.Query.Token
import Reshape.Relation
import Reshape.Settings
import Reshape.Sorting
import Reshape.Text.Blank
import Reshape.Text.Case
import Reshape.Text.Digit
import Reshape.Text.Identifier
import Reshape.Text.Line
import Reshape.Text.Printable
import Reshape.Text.Quoted
import Reshape.Text.Range
import Reshape.Text.Search
import Reshape.Text.Word
import Reshape.Tools
import Reshape.Transform.Apply
import Reshape.Transform.Arguments
import Reshape.Transform.Basic
import Reshape.Transform.Build
import Reshape.Transform.Builtin
import Reshape.Transform.Compile
import Reshape.Transform.Equal
import Reshape.Transform.Error
import Reshape.Value.Basic
import Reshape.Value.Entries
import Reshape.Value.Equal
import Reshape.Value.Hash
import Reshape.Value.Merge
import Reshape.Value.Order
import Reshape.Value.Shape
import Reshape.Value.Sort
import Reshape.Value.Walk

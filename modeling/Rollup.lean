import Rollup.Binary64.Arithmetic
import Rollup.Binary64.Basic
import Rollup.Binary64.Display
import Rollup.Binary64.Reader
import Rollup.Binary64.Rounding
import Rollup.Binary64.Shortest
import Rollup.Columns
import Rollup.Command.Arguments
import Rollup.Command.Program
import Rollup.Error
import Rollup.Grouping
import Rollup.Item
import Rollup.Json.Reader
import Rollup.Json.Token
import Rollup.Json.Value
import Rollup.Keyed
import Rollup.Library
import Rollup.Number
import Rollup.Query
import Rollup.Scalar
import Rollup.Settings
import Rollup.Sorting.Short
import Rollup.Sorting.Runs
import Rollup.Sorting.Quick
import Rollup.Sorting
import Rollup.Source
import Rollup.Stat.Basic
import Rollup.Stat.Completion
import Rollup.Stat.Evaluation
import Rollup.Stat.Parser
import Rollup.Summary
import Rollup.Table.Layout
import Rollup.Table.Style
import Rollup.Text.Blank
import Rollup.Text.CaseTables
import Rollup.Text.Cut
import Rollup.Text.Digits
import Rollup.Text.Lowercase
import Rollup.Toml.Reader
import Rollup.Toml.Token
import Rollup.Toml.Value
import Rollup.Toml.Word
import Rollup.Main
import Rollup.Proofs.Binary64.Rounding
import Rollup.Proofs.Scalar.Order
import Rollup.Proofs.Text.Cut
import Rollup.Proofs.Text.Lowercase
import Rollup.Proofs.Stat.Modifiers
import Rollup.Proofs.Stat.Grammar
import Rollup.Proofs.Text.Blank
import Rollup.Proofs.Text.Words
import Rollup.Proofs.Query.Conjunction
import Rollup.Proofs.Traversal
import Rollup.Proofs.Grouping.FanOut
import Rollup.Proofs.Grouping.Pieces
import Rollup.Proofs.Scalar.Exact
import Rollup.Proofs.Grouping.Together
import Rollup.Proofs.Columns
import Rollup.Proofs.Sorting.Ranked
import Rollup.Proofs.Sorting.Feature
import Rollup.Proofs.Sorting.Short
import Rollup.Proofs.Sorting.Runs
import Rollup.Proofs.Sorting.Quick
import Rollup.Proofs.Sorting
import Rollup.Proofs.Stat.Completion
import Rollup.Proofs.Columns.History
import Rollup.Proofs.Stat.Evaluation
import Rollup.Proofs.Stat.Integers
import Rollup.Proofs.Stat.PartialSums
import Rollup.Proofs.Stat.SumOrder
import Rollup.Proofs.Table.Layout
import Rollup.Proofs.Summary.Tabulation
import Rollup.Proofs.Summary.Outcome
import Rollup.Proofs.Query.Substring
import Rollup.Proofs.Summary.Meaning
import Rollup.Proofs.Summary.Totals
import Rollup.Proofs.Binary64.Whole
import Rollup.Proofs.Scalar.Sameness
import Rollup.Proofs.Scalar.Kinds
import Rollup.Proofs.Scalar.Distinct
import Rollup.Proofs.Grouping.DistinctCount
import Rollup.Proofs.Stat.Bounds
import Rollup.Proofs.Stat.Distinct
import Rollup.Proofs.Stat.Exactness
import Rollup.Proofs.Table.Order
import Rollup.Proofs.Binary64.Integers
import Rollup.Proofs.Table.Alignment
import Rollup.Proofs.Text.Decimal
import Rollup.Proofs.Table.Places
import Rollup.Proofs.Binary64.Reader
import Rollup.Proofs.Query.Range
import Rollup.Proofs.Table.Lines
import Rollup.Proofs.Summary.Lines
import Rollup.Proofs.Binary64.Grammar
import Rollup.Proofs.Query.Ends
import Rollup.Proofs.Columns.Reading
import Rollup.Proofs.Columns.Completion
import Rollup.Proofs.Text.LetterCase
import Rollup.Proofs.Binary64.LetterCase
import Rollup.Proofs.Keyed
import Rollup.Proofs.Query.LetterCase

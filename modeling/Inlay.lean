import Inlay.Engine.Basic
import Inlay.Engine.Standard
import Inlay.Error
import Inlay.Evaluation.Basic
import Inlay.Evaluation.Outcome
import Inlay.Json.Basic
import Inlay.Json.Error
import Inlay.Json.Template
import Inlay.Json.Term
import Inlay.Json.Value
import Inlay.Method
import Inlay.Number.Binary64
import Inlay.Number.Decimal
import Inlay.Number.Fixed
import Inlay.Number.Numeral
import Inlay.Number.Rounding
import Inlay.Number.Shortest
import Inlay.Number.Single
import Inlay.Number.Text
import Inlay.Parse.Error
import Inlay.Parse.State
import Inlay.Proofs.Engine.History
import Inlay.Proofs.Engine.Ledger
import Inlay.Proofs.Evaluation.Dependence
import Inlay.Proofs.Evaluation.Extension
import Inlay.Proofs.Evaluation.Failure
import Inlay.Proofs.Evaluation.Interpolation
import Inlay.Proofs.Evaluation.Piping
import Inlay.Proofs.Evaluation.Recursive
import Inlay.Proofs.Evaluation.Text
import Inlay.Proofs.Grammar.Acceptance
import Inlay.Proofs.Grammar.Basic
import Inlay.Proofs.Grammar.Blocks
import Inlay.Proofs.Grammar.Completeness
import Inlay.Proofs.Grammar.Grouping
import Inlay.Proofs.Grammar.Shape
import Inlay.Proofs.Grammar.Soundness
import Inlay.Proofs.Grammar.Spelling
import Inlay.Proofs.Json.Template
import Inlay.Proofs.Json.Term
import Inlay.Proofs.Json.Value
import Inlay.Proofs.Parse.Blanks
import Inlay.Proofs.Parse.Placed
import Inlay.Proofs.Parse.Stack
import Inlay.Proofs.Parse.Step
import Inlay.Proofs.Parse.Viable
import Inlay.Proofs.Term.Chain
import Inlay.Proofs.Term.Climb
import Inlay.Proofs.Term.Everywhere
import Inlay.Proofs.Term.Reads
import Inlay.Proofs.Term.Word
import Inlay.Proofs.Text.ByteOrder
import Inlay.Proofs.Token.Delimiter
import Inlay.Proofs.Token.Leftmost
import Inlay.Proofs.Token.OpenQuote
import Inlay.Proofs.Token.Place
import Inlay.Proofs.Token.Slice
import Inlay.Proofs.Token.Texts
import Inlay.Table
import Inlay.Template
import Inlay.Term.Basic
import Inlay.Term.Operator
import Inlay.Term.Splice
import Inlay.Term.Variables
import Inlay.Term.Word
import Inlay.Text.Blank
import Inlay.Text.Quoted
import Inlay.Text.Unseen
import Inlay.Text.Utf16
import Inlay.Token.Basic
import Inlay.Token.Split
import Inlay.Value.Arithmetic
import Inlay.Value.Basic
import Inlay.Value.Comparison
import Inlay.Value.Path
import Inlay.Proofs.Engine.Missing
import Inlay.Proofs.Number.Whole
import Inlay.Proofs.Text.Units
import Inlay.Proofs.Value.Segment
import Inlay.Proofs.Value.Indexed
import Inlay.Proofs.Number.Order
import Inlay.Proofs.Text.UnitOrder
import Inlay.Proofs.Value.Order
import Inlay.Proofs.Value.Equal
import Inlay.Proofs.Number.Decimal
import Inlay.Proofs.Number.Nearest
import Inlay.Proofs.Number.Numeral
import Inlay.Proofs.Value.Primitive
import Inlay.Proofs.Number.Text
import Inlay.Proofs.Number.Closest
import Inlay.Proofs.Number.Further
import Inlay.Proofs.Number.Based
import Inlay.Proofs.Evaluation.Literal
import Inlay.Proofs.Evaluation.Numeral
import Inlay.Proofs.Parse.Pending

import QueryExpr.Main
import QueryExpr.Rewrite.Simple
import QueryExpr.Proofs.Expr.Leaves
import QueryExpr.Proofs.Rewrite.BottomUp
import QueryExpr.Proofs.Folding.Kinds
import QueryExpr.Proofs.Folding.Meaning
import QueryExpr.Proofs.Folding.Constant
import QueryExpr.Proofs.Folding.Typing
import QueryExpr.Proofs.Category
import QueryExpr.Proofs.Registry.Slot
import QueryExpr.Proofs.Registry.History
import QueryExpr.Proofs.Registry.Explicit
import QueryExpr.Proofs.Token.Numeral
import QueryExpr.Proofs.Phrase.Spelling
import QueryExpr.Proofs.Phrase.Reading
import QueryExpr.Proofs.Token.Scanning
import QueryExpr.Proofs.Sql.Rendering
import QueryExpr.Proofs.Registry.Standard
import QueryExpr.Proofs.Sql.RoundTrip
import QueryExpr.Proofs.Rewrite.Change
import QueryExpr.Proofs.Phrase.Parsing
import QueryExpr.Proofs.Sql.Agreement
import QueryExpr.Proofs.Rewrite.Normal
import QueryExpr.Proofs.Folding.Rules
import QueryExpr.Proofs.Sql.Rules
import QueryExpr.Proofs.Rewrite.Convergence
import QueryExpr.Proofs.Folding.Promotion
import QueryExpr.Proofs.Registry.Application
import QueryExpr.Proofs.Registry.Possible
import QueryExpr.Proofs.Registry.Typing
import QueryExpr.Proofs.Sql.Injection
import QueryExpr.Proofs.Registry.Atomic
import QueryExpr.Proofs.Registry.Mirror
import QueryExpr.Proofs.Registry.Order
import QueryExpr.Proofs.Folding.Comparison
import QueryExpr.Proofs.Folding.Dispatch
import QueryExpr.Proofs.Rewrite.Fixpoint
import QueryExpr.Proofs.Schema.Reading
import QueryExpr.Proofs.Schema.Codec
import QueryExpr.Proofs.Sql.Renderable
import QueryExpr.Proofs.Rewrite.Recursion
import QueryExpr.Proofs.Folding.Word
import QueryExpr.Proofs.Folding.Integers
import QueryExpr.Proofs.CommandLine.Specification
import QueryExpr.Proofs.CommandLine.Settings
import QueryExpr.Proofs.CommandLine.Arguments
import QueryExpr.Proofs.Log.Outcome
import QueryExpr.Proofs.CommandLine.Persistence
import QueryExpr.Proofs.Decimal.Value
import QueryExpr.Proofs.Folding.Decimals
import QueryExpr.Proofs.Decimal.Quotient
import QueryExpr.Proofs.Decimal.Floor
import QueryExpr.Proofs.Folding.Floors
import QueryExpr.Proofs.Folding.Coherence
import QueryExpr.Proofs.Token.Spelling
import QueryExpr.Proofs.Phrase.Numbers
import QueryExpr.Proofs.Token.Respelling
import QueryExpr.Proofs.Rewrite.Stuck
import QueryExpr.Proofs.Schema.Selection
import QueryExpr.Proofs.Expr.Projections
import QueryExpr.Proofs.Expr.Views
import QueryExpr.Proofs.Expr.Renaming
import QueryExpr.Proofs.Log.Outcome

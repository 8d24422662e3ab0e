import Stepwise.Wire.Linear
import Stepwise.Wire.Config
import Stepwise.RatMatrix.Edit
import Stepwise.RatMatrix.Flat
import Stepwise.Calculator.Linear
import Stepwise.Calculator.Roots
import Stepwise.Linear.Recording
import Stepwise.Proofs.Number.Fraction
import Stepwise.Proofs.Number.DoubleOrder
import Stepwise.Proofs.Number.DoubleSum
import Stepwise.Proofs.Number.Numeral
import Stepwise.Proofs.Number.DoubleRounding
import Stepwise.Proofs.Number.DoubleValue
import Stepwise.Proofs.Number.DoubleWhole
import Stepwise.Proofs.Number.DoubleTotal
import Stepwise.Proofs.RatMatrix.Label
import Stepwise.Proofs.RatMatrix.Text
import Stepwise.Proofs.RatMatrix.Edit
import Stepwise.Proofs.RatMatrix.Flat
import Stepwise.Proofs.RatMatrix.Construction
import Stepwise.Proofs.RatMatrix.Operations
import Stepwise.Proofs.RatMatrix.Multiplication
import Stepwise.Proofs.RatMatrix.Blocks
import Stepwise.Proofs.RatMatrix.Minors
import Stepwise.Proofs.RatMatrix.RowEdits
import Stepwise.Proofs.Wire.Faithful
import Stepwise.Proofs.Elimination.Fixed
import Stepwise.Proofs.Determinant.Laws
import Stepwise.Proofs.Determinant.Certificate
import Stepwise.Proofs.Determinant.Adjugate
import Stepwise.Proofs.Determinant.Account
import Stepwise.Proofs.Inverse.Elimination
import Stepwise.Proofs.Inverse.Agreement
import Stepwise.Proofs.Inverse.RoundTrip
import Stepwise.Proofs.Rank.Products
import Stepwise.Proofs.Rank.Pivots
import Stepwise.Proofs.Solution.Cramer
import Stepwise.Proofs.Solution.Canonical
import Stepwise.Proofs.Solution.Ranks
import Stepwise.Proofs.Solution.CramerAccount
import Stepwise.Proofs.Formula.Execution
import Stepwise.Proofs.Formula.Decoding
import Stepwise.Proofs.Formula.Parsing
import Stepwise.Proofs.Formula.Lexing
import Stepwise.Proofs.Formula.Renaming
import Stepwise.Proofs.Formula.Lexemes
import Stepwise.Proofs.Formula.Spelling
import Stepwise.Proofs.Formula.Position
import Stepwise.Proofs.Formula.Partition
import Stepwise.Proofs.Formula.Underflow
import Stepwise.Proofs.Roots.Rounds
import Stepwise.Proofs.Roots.Bracketing
import Stepwise.Proofs.Roots.Open
import Stepwise.Proofs.Roots.Failure
import Stepwise.Proofs.Roots.Grid
import Stepwise.Proofs.Roots.Automatic
import Stepwise.Proofs.Roots.Estimates
import Stepwise.Proofs.Roots.Enclosure
import Stepwise.Proofs.Roots.Ranking
import Stepwise.Proofs.Roots.Seeds

import Univariate.Main
import Univariate.Number.Decimal.Lemmas
import Univariate.Number.Exact
import Univariate.Proofs.Grammar
import Univariate.Proofs.Steps
import Univariate.Proofs.Parsing
import Univariate.Proofs.Classes
import Univariate.Proofs.Cutting
import Univariate.Proofs.Spelling
import Univariate.Proofs.Neighbours
import Univariate.Proofs.RoundTrip
import Univariate.Proofs.Lexemes
import Univariate.Proofs.Grading
import Univariate.Proofs.ExactDerivative
import Univariate.Proofs.Lengths
import Univariate.Proofs.MaximalMunch
import Univariate.Proofs.AnswerEdits
import Univariate.Proofs.Packing
import Univariate.Proofs.Doubles
import Univariate.Proofs.PolynomialText
import Univariate.Proofs.PrintedTerms
import Univariate.Proofs.CenteredDifference
import Univariate.Proofs.Segments
import Univariate.Proofs.Unsigned
import Univariate.Proofs.Reprinting
import Univariate.Proofs.Redifferentiation
import Univariate.Proofs.Fallback
import Univariate.Proofs.Routes
import Univariate.Proofs.AdditiveLeaves
import Univariate.Proofs.Folding
import Univariate.Proofs.PostOrder
import Univariate.Proofs.Negation
import Univariate.Proofs.Matching
import Univariate.Proofs.TokenSpans
import Univariate.Proofs.OpenGroups
import Univariate.Proofs.FirstFault
import Univariate.Proofs.Descent
import Univariate.Proofs.UnknownNames
import Univariate.Proofs.Labels
import Univariate.Proofs.MissingOperators
import Univariate.Proofs.Remunching
import Univariate.Proofs.Retokenizing
import Univariate.Proofs.NormalForms
import Univariate.Proofs.AnswerTokens
import Univariate.Proofs.WholeNumbers
import Univariate.Proofs.PolynomialPrinters
import Univariate.Proofs.CurveText
import Univariate.Proofs.NegativeLiterals
import Univariate.Proofs.Nesting
import Univariate.Proofs.Rounding
import Univariate.Proofs.VariableCase
import Univariate.Proofs.ShortestDecimals
import Univariate.Proofs.ReadingBack
import Univariate.Proofs.VanishingTerms
import Univariate.Proofs.SamplingGrid

import Univariate.Expr.Parser
import Univariate.Polynomial.Basic

/-!
# Differentiating texts

The derivative of a sum of monomials, as a text of the same grammar.
-/

namespace Univariate

inductive DiffError where
  | parse (cause : ParseError)
  /-- Carries the text of a term that is no monomial, or whose derivative has no finite
  coefficient. -/
  | unsupportedForm (term : String)
  | implicitNotSupported
  deriving DecidableEq, Repr

namespace DiffError

def message : DiffError → String
  | parse cause => cause.problem.message
  | unsupportedForm term =>
    "cannot differentiate '" ++ term ++ "': only terms of the form c*x^n are supported"
  | implicitNotSupported =>
    "equations need implicit differentiation, which is not supported"

def help? : DiffError → Option String
  | parse cause => cause.problem.help?
  | unsupportedForm _ => none
  | implicitNotSupported => some "pass an expression such as 'x^2 + 3*x' without '='"

end DiffError

variable {α : Type} [Arith α] [Numeral α]

/-- The variable is the one of the expression, in the case that the text is to have. -/
def Polynomial.differentiate (var : String) (p : Polynomial α) : Except DiffError String :=
  match p.unsupported with
  | e :: _ => .error (.unsupportedForm e.render)
  | [] =>
    match p.terms.find? fun m => !Arith.isFinite m.derivative.coefficient with
    | some m => .error (.unsupportedForm (m.render var))
    | none => .ok (p.derivative.render var)

/-- The derivative of the text of an expression, computed with the numbers `α`. -/
def differentiate (α : Type) [Arith α] [Numeral α] (var input : String) :
    Except DiffError String :=
  if '=' ∈ input.toList then .error .implicitNotSupported
  else
    match Expr.parse (α := α) var input with
    | .error cause => .error (.parse cause)
    | .ok e => (Polynomial.ofExpr e).differentiate (Text.lower var)

end Univariate

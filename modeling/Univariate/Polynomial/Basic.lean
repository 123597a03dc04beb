import Univariate.Polynomial.Monomial

/-!
# Polynomials

The additive structure of an expression. Sums, differences and the minus in front of either are
taken apart; what is left are its terms, each with a sign. The terms that are monomials are kept in
order with their signs, and so are, without signs, the terms that are not.
-/

namespace Univariate

structure Polynomial (α : Type) where
  terms : List (Monomial α)
  unsupported : List (Expr α)
  deriving DecidableEq, Repr

def Expr.isSum {α : Type} : Expr α → Bool
  | bin .add _ _ | bin .sub _ _ => true
  | _ => false

namespace Polynomial

variable {α : Type} [Arith α]

def append (p q : Polynomial α) : Polynomial α :=
  ⟨p.terms ++ q.terms, p.unsupported ++ q.unsupported⟩

def ofTerm (negate : Bool) (e : Expr α) : Polynomial α :=
  match Monomial.ofTerm? e with
  | some m => ⟨[if negate then m.negated else m], []⟩
  | none => ⟨[], [e]⟩

def collect (negate : Bool) : Expr α → Polynomial α
  | .bin .add l r => (collect negate l).append (collect negate r)
  | .bin .sub l r => (collect negate l).append (collect (!negate) r)
  | .neg e => if e.isSum then collect (!negate) e else ofTerm negate (.neg e)
  | e => ofTerm negate e

def ofExpr (e : Expr α) : Polynomial α := collect false e

def isSupported (p : Polynomial α) : Bool := p.unsupported.isEmpty

/-- The sum rule. Terms that become zero are dropped. -/
def derivative (p : Polynomial α) : Polynomial α :=
  ⟨(p.terms.map Monomial.derivative).filter (!·.isZero), []⟩

/-- Writes `- ` for each `+ -`, from left to right. -/
def mergeSigns : List Char → List Char
  | '+' :: ' ' :: '-' :: cs => '-' :: ' ' :: mergeSigns cs
  | c :: cs => c :: mergeSigns cs
  | [] => []

variable [Numeral α]

/-- The sum of the terms other than zero, in which a negative term after the first is subtracted.
The empty sum is `0`. -/
def render (var : String) (p : Polynomial α) : String :=
  let sum := " + ".intercalate ((p.terms.filter (!·.isZero)).map (Monomial.render var))
  let text := String.ofList (mergeSigns sum.toList)
  if text = "" then "0" else text

end Polynomial

end Univariate

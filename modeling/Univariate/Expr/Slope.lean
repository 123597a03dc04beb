import Univariate.Expr.Eval

/-!
# Slopes

The centered difference quotient `(f (x + h) - f (x - h)) / (2 * h)`. It is an estimate, accurate
to second order in the step where `f` is smooth. Both samples have to lie in the domain; there is
no one-sided estimate at its border.
-/

namespace Univariate

variable {α : Type} [Arith α]

open Arith

/-- One thousandth. -/
def defaultStep : α := one / ofNat 1000

namespace Expr

def slope (h x : α) (e : Expr α) : Except (DomainError α) α :=
  if isStep h then do
    let ahead ← e.eval (x + h)
    let behind ← e.eval (x - h)
    finite ((ahead - behind) / (ofNat 2 * h))
  else .error (.invalidStep h)

end Expr

end Univariate

import Univariate.Expr.Basic
import Univariate.Number.Arith
import Univariate.Number.Decimal

/-!
# Evaluation

A value is computed only where the expression has one: every intermediate result is checked, and
the first subtree that fails, left operands before right ones, gives the error of the whole. Both
spellings of the logarithm are the natural one.
-/

namespace Univariate

/-- A value outside the real domain of an operation. -/
inductive DomainError (α : Type) where
  | divisionByZero
  | logOfNonPositive (value : α)
  | sqrtOfNegative (value : α)
  | nonFinite
  | invalidStep (step : α)
  deriving DecidableEq, Repr

namespace DomainError

variable {α : Type}

def value? : DomainError α → Option α
  | divisionByZero | nonFinite => none
  | logOfNonPositive v | sqrtOfNegative v | invalidStep v => some v

def message [Numeral α] : DomainError α → String
  | divisionByZero => "division by zero"
  | logOfNonPositive v => "logarithm of non-positive value " ++ Numeral.text v
  | sqrtOfNegative v => "square root of negative value " ++ Numeral.text v
  | nonFinite => "result is not a finite number"
  | invalidStep h => "step " ++ Numeral.text h ++ " must be finite and positive"

end DomainError

variable {α : Type} [Arith α]

open Arith

def finite (v : α) : Except (DomainError α) α :=
  if isFinite v then .ok v else .error .nonFinite

def Op.apply : Op → α → α → Except (DomainError α) α
  | add, a, b => finite (a + b)
  | sub, a, b => finite (a - b)
  | mul, a, b => finite (a * b)
  | div, a, b => if b == zero then .error .divisionByZero else finite (a / b)
  | pow, a, b => finite (Arith.pow a b)

def Func.apply : Func → α → Except (DomainError α) α
  | sin, a => finite (Arith.sin a)
  | cos, a => finite (Arith.cos a)
  | tan, a => finite (Arith.tan a)
  | log, a | ln, a => if a ≤ zero then .error (.logOfNonPositive a) else finite (Arith.ln a)
  | sqrt, a => if a < zero then .error (.sqrtOfNegative a) else finite (Arith.sqrt a)
  | abs, a => finite (Arith.abs a)
  | exp, a => finite (Arith.exp a)

namespace Expr

/-- The value where the variable is `x`. -/
def eval (x : α) : Expr α → Except (DomainError α) α
  | num v => finite v
  | var _ => finite x
  | neg e => do finite (-(← e.eval x))
  | bin op l r => do
    let a ← l.eval x
    let b ← r.eval x
    op.apply a b
  | call f e => do f.apply (← e.eval x)

end Expr

end Univariate

import Univariate.Expr.Basic
import Univariate.Number.Arith
import Univariate.Number.Decimal

/-!
# Printing expressions

Sums and differences have blanks around the operator, the other operators have none, and an operand
is parenthesised exactly when its own operator would otherwise lose it. A literal counts as an atom
whatever its sign.
-/

namespace Univariate

variable {α : Type} [Arith α] [Numeral α]

/-- Both zeros are written `0`. -/
def formatNumber (v : α) : String :=
  if v == Arith.zero then "0" else Numeral.text v

namespace Op

def spaced : Op → String
  | add => " + "
  | sub => " - "
  | op => op.symbol

/-- The least binding that an operand on the left has without parentheses. -/
def leftMin : Op → Nat
  | pow => 4
  | op => op.binding

def rightMin (op : Op) : Nat := op.rightBinding + 1

end Op

namespace Expr

def binding : Expr α → Nat
  | num _ | var _ | call _ _ => 4
  | neg _ => minusBinding
  | bin op _ _ => op.binding

def enclose (min : Nat) (e : Expr α) (text : String) : String :=
  if e.binding < min then "(" ++ text ++ ")" else text

def render : Expr α → String
  | num v => formatNumber v
  | var name => name
  | neg e => "-" ++ e.enclose (minusBinding + 1) e.render
  | bin op l r => l.enclose op.leftMin l.render ++ op.spaced ++ r.enclose op.rightMin r.render
  | call f e => f.name ++ "(" ++ e.render ++ ")"

end Expr

end Univariate

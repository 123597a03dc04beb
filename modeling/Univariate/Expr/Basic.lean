/-!
# Expressions in one variable

Trees over a number type. The name of the variable stays in the tree, for printing; evaluation does
not look at it. A tree may hold any number as a literal, also a negative one, although reading a
text never makes one of those.
-/

namespace Univariate

inductive Op where
  | add
  | sub
  | mul
  | div
  | pow
  deriving DecidableEq, Repr

namespace Op

def symbol : Op → String
  | add => "+"
  | sub => "-"
  | mul => "*"
  | div => "/"
  | pow => "^"

def name : Op → String
  | add => "Add"
  | sub => "Sub"
  | mul => "Mul"
  | div => "Div"
  | pow => "Pow"

/-- Operators with a greater binding take their operands first. -/
def binding : Op → Nat
  | add | sub => 1
  | mul | div => 2
  | pow => 3

/-- An operator to the right of this one takes the operand between them when it binds tighter than
this. A power is below its own binding, so that `x^y^z` is `x^(y^z)`. -/
def rightBinding : Op → Nat
  | pow => 2
  | op => op.binding

end Op

/-- A unary minus takes a power as its operand but not a product: `-x^2` is `-(x^2)`. -/
def minusBinding : Nat := 2

inductive Func where
  | sin
  | cos
  | tan
  | log
  | ln
  | sqrt
  | abs
  | exp
  deriving DecidableEq, Repr

namespace Func

def all : List Func := [sin, cos, tan, log, ln, sqrt, abs, exp]

theorem mem_all (f : Func) : f ∈ all := by cases f <;> decide

def name : Func → String
  | sin => "sin"
  | cos => "cos"
  | tan => "tan"
  | log => "log"
  | ln => "ln"
  | sqrt => "sqrt"
  | abs => "abs"
  | exp => "exp"

end Func

inductive Expr (α : Type) where
  | num : α → Expr α
  | var : String → Expr α
  | neg : Expr α → Expr α
  | bin : Op → Expr α → Expr α → Expr α
  | call : Func → Expr α → Expr α
  deriving DecidableEq, Repr

end Univariate

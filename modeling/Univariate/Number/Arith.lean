/-!
# Arithmetic

What evaluation, differentiation and sampling need of their numbers. None of the three names a
number type, so the same definitions run on doubles and can be read as exact arithmetic, where the
laws of algebra hold without rounding.

Every operation is total. A result outside the real numbers is some value that `isFinite` refuses.
-/

namespace Univariate

class Arith (α : Type) extends Add α, Sub α, Mul α, Div α, Neg α, BEq α, LE α, LT α where
  decLe : DecidableLE α
  decLt : DecidableLT α
  ofNat : Nat → α
  isFinite : α → Bool
  /-- The greatest whole number not above a number that is not negative. -/
  floor : α → α
  /-- The natural number below `2 ^ 32` that a number equals. -/
  toNat? : α → Option Nat
  pow : α → α → α
  sin : α → α
  cos : α → α
  tan : α → α
  ln : α → α
  sqrt : α → α
  abs : α → α
  exp : α → α

attribute [reducible, instance] Arith.decLe Arith.decLt

namespace Arith

variable {α : Type} [Arith α]

def zero : α := ofNat 0

def one : α := ofNat 1

/-- The greatest number that `toNat?` answers with, and so the greatest power of a monomial. -/
def maxNat : Nat := 4294967295

/-- Steps of a difference quotient or of a sampling grid are finite and positive. -/
def isStep (h : α) : Bool := isFinite h && decide (zero < h)

end Arith

end Univariate

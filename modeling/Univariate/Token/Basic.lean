import Univariate.Expr.Basic
import Univariate.Number.Decimal

/-!
# Tokens

The pieces of an expression with their values. A token has the text that a reader would write for
it, so the texts of all tokens, one after the other, show what was understood.
-/

namespace Univariate

inductive Token (α : Type) where
  | num : α → Token α
  | op : Op → Token α
  | opening : Token α
  | closing : Token α
  | var : String → Token α
  | func : Func → Token α
  deriving DecidableEq, Repr

namespace Token

variable {α : Type}

def text [Numeral α] : Token α → String
  | num v => Numeral.text v
  | op o => o.symbol
  | opening => "("
  | closing => ")"
  | var name => name
  | func f => f.name

end Token

/-- The most pieces of text that an expression may have before its implied products. -/
def maxTokens : Nat := 2048

end Univariate

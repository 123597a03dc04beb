import Univariate.Token.Basic

/-!
# Parse errors

What is wrong with a text, and where: the error names a stretch of its source. The source is the
cleaned text while tokens are read, and the tokens written one after the other once they are
parsed.
-/

namespace Univariate

/-- A stretch of a text, in bytes of UTF-8. -/
structure Span where
  offset : Nat
  length : Nat
  deriving DecidableEq, Repr

inductive Unexpected where
  | tooLong
  | character
  | numeral
  | missingValue
  | operator (op : Op)
  | closing
  | bareFunction
  | missingOperator
  | tooDeep
  deriving DecidableEq, Repr

def Unexpected.label : Unexpected → String
  | tooLong => "Expression is longer than " ++ Nat.repr maxTokens ++ " tokens"
  | character => "Unexpected character"
  | numeral => "Failed to parse value: 'invalid float literal'"
  | missingValue => "Expected a value"
  | operator op => "Unexpected operator " ++ op.name
  | closing => "Unexpected closing paren"
  | bareFunction => "Function arguments must be enclosed in parentheses"
  | missingOperator => "Expected an operator"
  | tooDeep => "Expression is nested too deeply"

inductive Unbalanced where
  | unmatched
  | unclosed
  deriving DecidableEq, Repr

def Unbalanced.label : Unbalanced → String
  | unmatched => "Unmatched closing paren"
  | unclosed => "Opening paren is never closed"

inductive Problem where
  | unexpected (found : String) (why : Unexpected)
  | unknownName (name var : String)
  | unbalanced (side : Unbalanced)
  deriving DecidableEq, Repr

namespace Problem

def message : Problem → String
  | unexpected found _ => "Unexpected token '" ++ found ++ "'"
  | unknownName name _ => "Unknown identifier '" ++ name ++ "'"
  | unbalanced _ => "Unbalanced parentheses"

/-- The note that stands at the span. -/
def label : Problem → String
  | unexpected _ why => why.label
  | unknownName _ var => "not the variable '" ++ var ++ "' or a known function"
  | unbalanced side => side.label

def help? : Problem → Option String
  | unknownName _ _ =>
    some ("only the declared variable and " ++ ", ".intercalate (Func.all.map Func.name) ++
      " are allowed")
  | _ => none

end Problem

structure Mistake where
  problem : Problem
  span : Span
  deriving DecidableEq, Repr

structure ParseError extends Mistake where
  source : String
  deriving DecidableEq, Repr

def Mistake.inText (m : Mistake) (source : String) : ParseError := { m with source }

end Univariate

import Univariate.Token.Lexer

/-!
# Parsing expressions

The parser goes through the tokens once, from left to right, and is at each of them either before
an operand or after one. What has been read and is not yet part of a tree waits: unary minuses and
binary operators for the operand on their right, groups for their closing parenthesis. An operator
after an operand first completes what waits in the innermost group and binds at least as tightly;
a closing parenthesis, and the end, complete all of it.

The number of things that may wait at one time is limited, which bounds the nesting of groups,
minuses and right operands, but not the length of a sum.
-/

namespace Univariate

variable {α : Type}

/-- An operator that waits for the operand on its right. -/
inductive Pending (α : Type) where
  | minus : Pending α
  | operator : Expr α → Op → Pending α

namespace Pending

def binding : Pending α → Nat
  | minus => minusBinding
  | operator _ op => op.rightBinding

def complete (e : Expr α) : Pending α → Expr α
  | minus => .neg e
  | operator left op => .bin op left e

end Pending

/-- An open group: the function that it is the argument of, the index of its opening parenthesis,
and what waits outside it. -/
structure Group (α : Type) where
  call : Option Func
  index : Nat
  outer : List (Pending α)

def Group.complete (g : Group α) (e : Expr α) : Expr α :=
  match g.call with
  | some f => .call f e
  | none => e

/-- Where parsing fails: the index of a token, or the number of tokens for the end of input. -/
inductive Fault where
  | unexpected (index : Nat) (why : Unexpected)
  | unbalanced (index : Nat) (side : Unbalanced)
  deriving DecidableEq, Repr

def maxDepth : Nat := 64

namespace Parser

/-- How many things wait. -/
def depth (pending : List (Pending α)) : List (Group α) → Nat
  | [] => pending.length
  | g :: groups => pending.length + 1 + depth g.outer groups

def hasRoom (pending : List (Pending α)) (groups : List (Group α)) : Bool :=
  depth pending groups + 1 < maxDepth

/-- Completes what binds at least as tightly as an operator of the given binding. -/
def reduce (binding : Nat) : List (Pending α) → Expr α → List (Pending α) × Expr α
  | [], e => ([], e)
  | p :: ps, e => if binding ≤ p.binding then reduce binding ps (p.complete e) else (p :: ps, e)

def reduceAll (pending : List (Pending α)) (e : Expr α) : Expr α :=
  pending.foldl Pending.complete e

def endFault (index : Nat) : List (Group α) → Fault
  | [] => .unexpected index .missingValue
  | g :: _ => .unbalanced g.index .unclosed

mutual

def beforeOperand (index : Nat) (pending : List (Pending α)) (groups : List (Group α)) :
    List (Token α) → Except Fault (Expr α)
  | [] => .error (endFault index groups)
  | .num v :: ts => afterOperand (index + 1) pending groups (.num v) ts
  | .var name :: ts => afterOperand (index + 1) pending groups (.var name) ts
  | .op .sub :: ts =>
    if hasRoom pending groups then beforeOperand (index + 1) (.minus :: pending) groups ts
    else .error (.unexpected index .tooDeep)
  | .op op :: _ => .error (.unexpected index (.operator op))
  | .opening :: ts =>
    if hasRoom pending groups then
      beforeOperand (index + 1) [] (⟨none, index, pending⟩ :: groups) ts
    else .error (.unexpected index .tooDeep)
  | .closing :: _ => .error (.unexpected index .closing)
  | .func f :: .opening :: ts =>
    if hasRoom pending groups then
      beforeOperand (index + 2) [] (⟨some f, index + 1, pending⟩ :: groups) ts
    else .error (.unexpected (index + 1) .tooDeep)
  | [.func _] => .error (.unexpected index .bareFunction)
  | .func _ :: _ :: _ => .error (.unexpected (index + 1) .bareFunction)

def afterOperand (index : Nat) (pending : List (Pending α)) (groups : List (Group α))
    (e : Expr α) : List (Token α) → Except Fault (Expr α)
  | [] =>
    match groups with
    | [] => .ok (reduceAll pending e)
    | g :: _ => .error (.unbalanced g.index .unclosed)
  | .closing :: ts =>
    match groups with
    | [] => .error (.unbalanced index .unmatched)
    | g :: groups =>
      afterOperand (index + 1) g.outer groups (g.complete (reduceAll pending e)) ts
  | .op op :: ts =>
    let (pending, left) := reduce op.binding pending e
    if hasRoom pending groups then
      beforeOperand (index + 1) (.operator left op :: pending) groups ts
    else .error (.unexpected index .tooDeep)
  | _ :: _ => .error (.unexpected index .missingOperator)

end

end Parser

def Fault.index : Fault → Nat
  | unexpected index _ | unbalanced index _ => index

variable [Numeral α]

/-- Finds the token of a fault in the texts of all tokens, written one after the other. -/
def Fault.locate (tokens : List (Token α)) (fault : Fault) : ParseError :=
  let texts := tokens.map Token.text
  let offset := (String.join (texts.take fault.index)).utf8ByteSize
  let found := texts[fault.index]?
  { problem := match fault with
      | .unexpected _ why => .unexpected (found.getD "end of input") why
      | .unbalanced _ side => .unbalanced side
    span := ⟨offset, (found.map String.utf8ByteSize).getD 0⟩
    source := String.join texts }

namespace Expr

def ofTokens (tokens : List (Token α)) : Except Fault (Expr α) :=
  Parser.beforeOperand 0 [] [] tokens

def parse (var input : String) : Except ParseError (Expr α) := do
  let tokens ← Lexer.tokenize var input
  match ofTokens tokens with
  | .ok e => .ok e
  | .error fault => .error (fault.locate tokens)

end Expr

end Univariate

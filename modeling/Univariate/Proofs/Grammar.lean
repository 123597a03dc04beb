import Univariate.Expr.Parser
import Univariate.Expr.Printer

/-!
# The grammar of expressions

The layered grammar behind the notation, apart from any way of reading it:

    expr    := term (('+' | '-') term)*
    term    := factor (('*' | '/') factor)*
    factor  := '-' factor | primary | primary '^' factor
    primary := number | variable | '(' expr ')' | function '(' expr ')'

Sums and products group to the left, powers to the right. A sentence carries its tree and its
nesting: groups, arguments, minuses and right operands are each one deeper than what they are in.
Groups leave no trace in the tree, so the nesting belongs to the sentence.
-/
namespace Univariate

variable {α : Type}

inductive Level where
  | expr
  | term
  | factor
  | primary
  deriving DecidableEq, Repr

namespace Op

/-- What an operator makes of its operands. -/
def level : Op → Level
  | add | sub => .expr
  | mul | div => .term
  | pow => .factor

def left : Op → Level
  | add | sub => .expr
  | mul | div => .term
  | pow => .primary

def right : Op → Level
  | add | sub => .term
  | mul | div | pow => .factor

end Op

/-- `Sentence level tokens e n` derives the tokens from the level, with tree `e` and nesting `n`. -/
inductive Sentence : Level → List (Token α) → Expr α → Nat → Prop where
  | num (v : α) : Sentence .primary [.num v] (.num v) 0
  | var (name : String) : Sentence .primary [.var name] (.var name) 0
  | group {ts : List (Token α)} {e : Expr α} {n : Nat} :
      Sentence .expr ts e n → Sentence .primary (.opening :: ts ++ [.closing]) e (n + 1)
  | call (f : Func) {ts : List (Token α)} {e : Expr α} {n : Nat} :
      Sentence .expr ts e n →
      Sentence .primary (.func f :: .opening :: ts ++ [.closing]) (.call f e) (n + 1)
  | minus {ts : List (Token α)} {e : Expr α} {n : Nat} :
      Sentence .factor ts e n → Sentence .factor (.op .sub :: ts) (.neg e) (n + 1)
  | bin (op : Op) {ts us : List (Token α)} {l r : Expr α} {m n : Nat} :
      Sentence op.left ts l m → Sentence op.right us r n →
      Sentence op.level (ts ++ .op op :: us) (.bin op l r) (max m (n + 1))
  | factor {ts : List (Token α)} {e : Expr α} {n : Nat} :
      Sentence .primary ts e n → Sentence .factor ts e n
  | term {ts : List (Token α)} {e : Expr α} {n : Nat} :
      Sentence .factor ts e n → Sentence .term ts e n
  | expr {ts : List (Token α)} {e : Expr α} {n : Nat} :
      Sentence .term ts e n → Sentence .expr ts e n

namespace Level

/-- The least binding that an operator on top has at this level. -/
def min : Level → Nat
  | expr => 1
  | term => 2
  | factor => 3
  | primary => 4

end Level

theorem Op.min_level (op : Op) : op.level.min = op.binding := by cases op <;> rfl

theorem Op.min_left (op : Op) : op.left.min = op.leftMin := by cases op <;> rfl

theorem Op.min_right (op : Op) : op.right.min = op.rightMin := by cases op <;> rfl

theorem Op.binding_le_leftMin (op : Op) : op.binding ≤ op.leftMin := by cases op <;> decide

theorem Op.rightBinding_le_two (op : Op) : op.rightBinding ≤ 2 := by cases op <;> decide

namespace Sentence

variable {ts us : List (Token α)} {e : Expr α} {n : Nat} {level looser : Level}

/-- A sentence of a tighter level is one of every looser level. -/
theorem lift (h : Sentence level ts e n) (h' : looser.min ≤ level.min) :
    Sentence looser ts e n := by
  cases level with
  | expr =>
    cases looser with
    | expr => exact h
    | term | factor | primary => simp [Level.min] at h'
  | term =>
    cases looser with
    | expr => exact h.expr
    | term => exact h
    | factor | primary => simp [Level.min] at h'
  | factor =>
    cases looser with
    | expr => exact h.term.expr
    | term => exact h.term
    | factor => exact h
    | primary => simp [Level.min] at h'
  | primary =>
    cases looser with
    | expr => exact h.factor.term.expr
    | term => exact h.factor.term
    | factor => exact h.factor
    | primary => exact h

end Sentence

end Univariate

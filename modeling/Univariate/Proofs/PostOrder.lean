import Mathlib.Data.List.Basic
import Univariate.Expr.Eval
import Univariate.Number.Double
import Univariate.Proofs.Routes

/-!
# Evaluation on a stack

The nodes of an expression, operands before operators and left operands first, are a program for a
machine with a stack: each node takes its operands from the top and leaves its value there, unless
it refuses the operands or the value is not finite. The machine stops at the first node that fails.
After the nodes of an expression the stack has one value more, the value of the expression, or the
machine has stopped for the error of the expression; this holds on every stack and before all other
nodes, which carries the induction over the tree.
-/
namespace Univariate

open Arith

/-- A node without its operands. -/
inductive Node (α : Type) where
  | num (value : α)
  | var
  | neg
  | bin (op : Op)
  | call (func : Func)
  deriving DecidableEq, Repr

/-- Why the machine stops before the end. -/
inductive Stop (α : Type) where
  | failed (cause : DomainError α)
  /-- The stack has fewer values than the node has operands. -/
  | underflow
  deriving DecidableEq, Repr

namespace Expr

variable {α : Type}

def postorder : Expr α → List (Node α)
  | num v => [.num v]
  | var _ => [.var]
  | neg e => e.postorder ++ [.neg]
  | bin op l r => l.postorder ++ r.postorder ++ [.bin op]
  | call f e => e.postorder ++ [.call f]

end Expr

variable {α : Type} [Arith α]

/-- The result of an operator on any operands. -/
def Op.value : Op → α → α → α
  | add, a, b => a + b
  | sub, a, b => a - b
  | mul, a, b => a * b
  | div, a, b => a / b
  | pow, a, b => Arith.pow a b

/-- The result of a function on any argument. -/
def Func.value : Func → α → α
  | sin, a => Arith.sin a
  | cos, a => Arith.cos a
  | tan, a => Arith.tan a
  | log, a | ln, a => Arith.ln a
  | sqrt, a => Arith.sqrt a
  | abs, a => Arith.abs a
  | exp, a => Arith.exp a

namespace Node

/-- The value of a node and the stack below its operands. The last operand is on top. -/
def value? (x : α) : Node α → List α → Option (α × List α)
  | num v, stack => some (v, stack)
  | var, stack => some (x, stack)
  | neg, a :: stack => some (-a, stack)
  | bin op, b :: a :: stack => some (op.value a b, stack)
  | call f, a :: stack => some (f.value a, stack)
  | neg, [] | bin _, [] | bin _, [_] | call _, [] => none

/-- The complaint of a node about its operands. -/
def refusal? : Node α → List α → Option (DomainError α)
  | bin .div, b :: _ => if b == zero then some .divisionByZero else none
  | call .log, a :: _ | call .ln, a :: _ => if a ≤ zero then some (.logOfNonPositive a) else none
  | call .sqrt, a :: _ => if a < zero then some (.sqrtOfNegative a) else none
  | _, _ => none

def step (x : α) (n : Node α) (stack : List α) : Except (Stop α) (List α) :=
  match n.value? x stack, n.refusal? stack with
  | none, _ => .error .underflow
  | some _, some cause => .error (.failed cause)
  | some (v, below), none => if isFinite v then .ok (v :: below) else .error (.failed .nonFinite)

def run (x : α) : List (Node α) → List α → Except (Stop α) (List α)
  | [], stack => .ok stack
  | n :: nodes, stack => (n.step x stack).bind (run x nodes)

@[simp] theorem run_nil (x : α) (stack : List α) : run x [] stack = .ok stack := rfl

theorem run_cons (x : α) (n : Node α) (nodes : List (Node α)) (stack : List α) :
    run x (n :: nodes) stack = (n.step x stack).bind (run x nodes) := rfl

theorem run_singleton (x : α) (n : Node α) (stack : List α) : run x [n] stack = n.step x stack := by
  rw [run_cons]
  cases n.step x stack <;> rfl

/-! ## One step -/

/-- Leaves a result on the stack, or stops for it. -/
def push (stack : List α) : Except (DomainError α) α → Except (Stop α) (List α)
  | .ok v => .ok (v :: stack)
  | .error cause => .error (.failed cause)

variable {x : α}

theorem push_finite (v : α) (stack : List α) : push stack (finite v) =
    if isFinite v then .ok (v :: stack) else .error (.failed .nonFinite) := by
  unfold finite
  split <;> rfl

theorem step_num (v : α) (stack : List α) : (num v).step x stack = push stack (finite v) :=
  (push_finite v stack).symm

theorem step_var (stack : List α) : var.step x stack = push stack (finite x) :=
  (push_finite x stack).symm

theorem step_neg (a : α) (stack : List α) :
    neg.step x (a :: stack) = push stack (finite (-a)) :=
  (push_finite (-a) stack).symm

theorem step_bin (op : Op) (a b : α) (stack : List α) :
    (bin op).step x (b :: a :: stack) = push stack (op.apply a b) := by
  cases op with
  | add | sub | mul | pow => exact (push_finite _ stack).symm
  | div =>
    by_cases divisor : b == zero
    · simp [step, value?, refusal?, Op.apply, divisor, push]
    · simp [step, value?, refusal?, Op.apply, divisor, push_finite, Op.value]

theorem step_call (f : Func) (a : α) (stack : List α) :
    (call f).step x (a :: stack) = push stack (f.apply a) := by
  cases f with
  | sin | cos | tan | abs | exp => exact (push_finite _ stack).symm
  | log | ln =>
    by_cases low : a ≤ zero
    · simp [step, value?, refusal?, Func.apply, low, push]
    · simp [step, value?, refusal?, Func.apply, low, push_finite, Func.value]
  | sqrt =>
    by_cases low : a < zero
    · simp [step, value?, refusal?, Func.apply, low, push]
    · simp [step, value?, refusal?, Func.apply, low, push_finite, Func.value]

/-! ## A run -/

theorem run_append (first second : List (Node α)) (stack : List α) :
    run x (first ++ second) stack = (run x first stack).bind (run x second) := by
  induction first generalizing stack with
  | nil => rfl
  | cons n nodes ih =>
    rw [List.cons_append, run_cons, run_cons]
    cases n.step x stack with
    | error stop => rfl
    | ok later => exact ih later

/-- A run that stops has a first node that fails. -/
theorem run_eq_error_iff {nodes : List (Node α)} {stack : List α} {stop : Stop α} :
    run x nodes stack = .error stop ↔ ∃ before n after reached,
      nodes = before ++ n :: after ∧ run x before stack = .ok reached ∧
        n.step x reached = .error stop := by
  constructor
  · intro stopped
    induction nodes generalizing stack with
    | nil => cases stopped
    | cons n nodes ih =>
      rw [run_cons] at stopped
      cases here : n.step x stack with
      | error first =>
        rw [here] at stopped
        cases stopped
        exact ⟨[], n, nodes, stack, rfl, rfl, here⟩
      | ok next =>
        rw [here] at stopped
        obtain ⟨before, m, after, reached, rfl, ran, failed⟩ := ih stopped
        refine ⟨n :: before, m, after, reached, rfl, ?_, failed⟩
        rw [run_cons, here]
        exact ran
  · rintro ⟨before, n, after, reached, rfl, ran, failed⟩
    simp [run_append, run_cons, ran, failed, Except.bind]

/-- The nodes of an expression leave its value on any stack, or stop the machine for its error. -/
theorem run_postorder (e : Expr α) (stack : List α) :
    run x e.postorder stack = push stack (e.eval x) := by
  induction e generalizing stack with
  | num v => rw [Expr.postorder, run_singleton, step_num, Expr.eval]
  | var name => rw [Expr.postorder, run_singleton, step_var, Expr.eval]
  | neg e ih =>
    rw [Expr.postorder, run_append, ih, Expr.eval]
    cases e.eval x with
    | error cause => rfl
    | ok a => exact (run_singleton x .neg (a :: stack)).trans (step_neg a stack)
  | call f e ih =>
    rw [Expr.postorder, run_append, ih, Expr.eval]
    cases e.eval x with
    | error cause => rfl
    | ok a => exact (run_singleton x (.call f) (a :: stack)).trans (step_call f a stack)
  | bin op l r left right =>
    rw [Expr.postorder, run_append, run_append, left, Expr.eval]
    cases l.eval x with
    | error cause => rfl
    | ok a =>
      -- the left value stays on the stack below the right operand
      change (run x r.postorder (a :: stack)).bind (run x [.bin op]) = _
      rw [right]
      cases r.eval x with
      | error cause => rfl
      | ok b => exact (run_singleton x (.bin op) (b :: a :: stack)).trans (step_bin op a b stack)

end Node

namespace Expr

variable {x : α}

/-- The error of an operand is an error of the whole. -/
theorem exists_error_of_operand {e s : Expr α} {t : Turn} {cause : DomainError α}
    (operand : e.operand? t = some s) (failed : s.eval x = .error cause) :
    ∃ first, e.eval x = .error first := by
  cases e with
  | num v | var name => cases t <;> cases operand
  | neg e | call f e =>
    cases t <;> cases operand
    exact ⟨cause, by rw [eval, failed]; rfl⟩
  | bin op l r =>
    cases t <;> cases operand
    · exact ⟨cause, by rw [eval, failed]; rfl⟩
    · cases left : l.eval x with
      | error first => exact ⟨first, by rw [eval, left]; rfl⟩
      | ok a => exact ⟨cause, by rw [eval, left, failed]; rfl⟩

theorem exists_error_of_at? {e s : Expr α} {p : Route} {cause : DomainError α}
    (subtree : e.at? p = some s) (failed : s.eval x = .error cause) :
    ∃ first, e.eval x = .error first := by
  induction p generalizing e with
  | nil =>
    cases subtree
    exact ⟨cause, failed⟩
  | cons t p ih =>
    obtain ⟨operand, turn, subtree⟩ := at?_cons_eq_some_iff.mp subtree
    obtain ⟨first, failed⟩ := ih subtree
    exact exists_error_of_operand turn failed

open Node

/-- An expression has a value exactly when the machine comes to the end of its nodes with that value
as the only one, and its error is the one for which the first node that fails stops the machine. So
no subtree fails where the whole has a value. -/
theorem eval_eq_run_postorder (x : α) (e : Expr α) :
    (∀ v, e.eval x = .ok v ↔ run x e.postorder [] = .ok [v]) ∧
      (∀ cause, e.eval x = .error cause ↔ ∃ before n after stack,
        e.postorder = before ++ n :: after ∧ run x before [] = .ok stack ∧
          n.step x stack = .error (.failed cause)) ∧
      ∀ p s cause, e.at? p = some s → s.eval x = .error cause →
        ∃ first, e.eval x = .error first := by
  refine ⟨fun v => ?_, fun cause => ?_, fun p s cause => exists_error_of_at?⟩
  · rw [run_postorder]
    cases e.eval x <;> simp [push]
  · rw [← run_eq_error_iff, run_postorder]
    cases e.eval x <;> simp [push]

/-- `0*sqrt(x)` -/
def maskedRoot : Expr Float := .bin .mul (.num 0) (.call .sqrt (.var "x"))

theorem eval_eq_run_postorder_maskedRoot :
    maskedRoot.at? [.right] = some (.call .sqrt (.var "x")) ∧
    (call .sqrt (var "x")).eval (-1 : Float) = .error (.sqrtOfNegative (-1)) ∧
    (∃ first, maskedRoot.eval (-1) = .error first) ∧
    ∃ before n after stack, maskedRoot.postorder = before ++ n :: after ∧
      run (-1) before [] = .ok stack ∧ n.step (-1) stack = .error (.failed (.sqrtOfNegative (-1))) := by
  have root : (call .sqrt (var "x")).eval (-1 : Float) = .error (.sqrtOfNegative (-1)) := by
    decide +kernel
  have whole : maskedRoot.eval (-1) = .error (.sqrtOfNegative (-1)) := by decide +kernel
  obtain ⟨_, errors, unmasked⟩ := eval_eq_run_postorder (-1) maskedRoot
  exact ⟨rfl, root, unmasked [.right] _ _ rfl root, (errors _).mp whole⟩

end Expr

end Univariate

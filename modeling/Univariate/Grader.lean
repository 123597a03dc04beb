import Univariate.Answer
import Univariate.Number.Double
import Univariate.Polynomial.Derivative

/-!
# Grading

An answer is compared with the solution of a problem, or with the derivative of its equation when
no solution is given. The derivative may come from a remote solver; whatever makes that one fail,
the local differentiation takes its place.
-/

namespace Univariate

inductive SolverError where
  | unavailable (reason : String)
  | diff (cause : DiffError)
  deriving DecidableEq, Repr

def SolverError.message : SolverError → String
  | unavailable reason => "solver unavailable: " ++ reason
  | diff cause => cause.message

/-- Finds the text of the derivative of an equation with respect to a variable. -/
abbrev Solver := (var equation : String) → Except SolverError String

namespace Solver

def localSolver : Solver := fun var equation =>
  (differentiate Float var equation).mapError .diff

/-- Knows the answers to some equations and is unavailable for the others. -/
def lookup (known : List (String × String)) (reason : String) : Solver := fun _ equation =>
  match known.lookup equation with
  | some answer => .ok answer
  | none => .error (.unavailable reason)

end Solver

/-- Where the text that an answer is compared with comes from. -/
inductive Origin where
  | given
  | remote
  | computed
  deriving DecidableEq, Repr

structure Solution where
  text : String
  origin : Origin
  deriving DecidableEq, Repr

structure Exercise where
  equation : String
  solution : Option String
  deriving DecidableEq, Repr

structure Verdict where
  correct : Bool
  expected : Solution
  deriving DecidableEq, Repr

structure Grader where
  var : String
  remote : Option Solver

namespace Grader

/-- A grader before any remote solver is attached. -/
def offline (var : String) : Grader := ⟨var, none⟩

def solveLocally (g : Grader) (equation : String) : Except DiffError Solution := do
  return ⟨← differentiate Float g.var equation, .computed⟩

def solve (g : Grader) (equation : String) : Except DiffError Solution :=
  match g.remote with
  | none => g.solveLocally equation
  | some solver =>
    match solver g.var equation with
    | .ok text => .ok ⟨text, .remote⟩
    | .error _ => g.solveLocally equation

def solution (g : Grader) (exercise : Exercise) : Except DiffError Solution :=
  match exercise.solution with
  | some text => .ok ⟨text, .given⟩
  | none => g.solve exercise.equation

def check (g : Grader) (exercise : Exercise) (answer : String) : Except DiffError Verdict := do
  let expected ← g.solution exercise
  return ⟨Answer.isSame answer expected.text, expected⟩

end Grader

/-- A grader serves one exercise after the other, and its remote solver may be exchanged between
them. -/
inductive Step where
  | attach (solver : Solver)
  | solve (equation : String)
  | check (exercise : Exercise) (answer : String)

inductive Reply where
  | attached
  | solved (result : Except DiffError Solution)
  | checked (result : Except DiffError Verdict)

namespace Grader

def step (g : Grader) : Step → Grader × Reply
  | .attach solver => ({ g with remote := some solver }, .attached)
  | .solve equation => (g, .solved (g.solve equation))
  | .check exercise answer => (g, .checked (g.check exercise answer))

def run (g : Grader) : List Step → List Reply
  | [] => []
  | s :: steps => (g.step s).2 :: run (g.step s).1 steps

end Grader

end Univariate

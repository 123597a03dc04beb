import Univariate.CommandLine.Request

/-!
# Running requests

An answer is printed on lines of its own. A curve has one line for each point, its two coordinates
with a blank between them, and an empty line between two segments.
-/

namespace Univariate.CommandLine

def curveText (segments : List (Segment Float)) : String :=
  let line (p : Point Float) := Numeral.text p.x ++ " " ++ Numeral.text p.y ++ "\n"
  "\n".intercalate (segments.map fun segment => String.join (segment.map line))

def verdictText (v : Verdict) : String :=
  if v.correct then "correct" else "incorrect, expected " ++ v.expected.text

/-- The text of the answer, or the message of what went wrong. -/
def Request.run (var : String) : Request → Except String String
  | .eval expr point => do
    let e ← (Expr.parse var expr).mapError (·.problem.message)
    let y ← (e.eval point).mapError DomainError.message
    return Numeral.text y ++ "\n"
  | .slope expr point step => do
    let e ← (Expr.parse var expr).mapError (·.problem.message)
    let y ← (e.slope step point).mapError DomainError.message
    return Numeral.text y ++ "\n"
  | .diff expr => do
    let derivative ← ((Grader.offline var).solve expr).mapError DiffError.message
    return derivative.text ++ "\n"
  | .check answer exercise => do
    let verdict ← ((Grader.offline var).check exercise answer).mapError DiffError.message
    return verdictText verdict ++ "\n"
  | .plot expr series viewport => do
    let e ← (Expr.parse var expr).mapError (·.problem.message)
    let segments ← (viewport.curve series e).mapError ViewportError.message
    return curveText segments

def versionText : String := "deriv 0.1.0\n"

def usage : String :=
  "usage: deriv [--var <name>] (eval | slope | diff | check | plot) <text> [options]\n"

structure Outcome where
  exitCode : Nat
  output : String
  complaint : String
  deriving DecidableEq, Repr

def run (words : List String) : Outcome :=
  match Invocation.ofWords words with
  | .error .version => ⟨0, versionText, ""⟩
  | .error .help => ⟨0, usage, ""⟩
  | .error .rejected => ⟨2, "", usage⟩
  | .ok ⟨var, request⟩ =>
    match request.run var with
    | .ok output => ⟨0, output, ""⟩
    | .error message => ⟨1, "", message ++ "\n"⟩

end Univariate.CommandLine

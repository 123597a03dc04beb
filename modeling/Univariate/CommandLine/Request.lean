import Univariate.CommandLine.Words
import Univariate.Curve
import Univariate.Grader
import Univariate.Number.Scientific

/-!
# Requests

What a command line asks for. Five commands take an expression or an answer as their positional
word; the name of the variable may stand before the command or among its options, where it counts
more.
-/

namespace Univariate.CommandLine

inductive Request where
  | eval (expr : String) (point : Float)
  | slope (expr : String) (point step : Float)
  | diff (expr : String)
  | check (answer : String) (exercise : Exercise)
  | plot (expr : String) (series : Series) (viewport : Viewport Float)

structure Invocation where
  var : String
  request : Request

def Given.number? (g : Given) (name : String) : Option Float :=
  (g.option? name).bind Double.ofText?

/-- An option that is not given has its default; one that is not a number has no value. -/
def Given.numberD (g : Given) (name : String) (default : Float) : Option Float :=
  match g.option? name with
  | some text => Double.ofText? text
  | none => some default

structure Command where
  options : List (String × Kind)
  request? : Given → Option Request

namespace Command

def eval : Command where
  options := [("at", .value .numbers)]
  request? g := do return .eval (← g.positional) (← g.number? "at")

def slope : Command where
  options := [("at", .value .numbers), ("step", .value .never)]
  request? g := do
    return .slope (← g.positional) (← g.number? "at") (← g.numberD "step" defaultStep)

def diff : Command where
  options := []
  request? g := do return .diff (← g.positional)

/-- The solution and the equation exclude each other, and one of them is needed. -/
def check : Command where
  options := [("expected", .value .always), ("equation", .value .always)]
  request? g := do
    let answer ← g.positional
    match g.option? "expected", g.option? "equation" with
    | some solution, none => return .check answer ⟨"", some solution⟩
    | none, some equation => return .check answer ⟨equation, none⟩
    | _, _ => none

def plot : Command where
  options := [("derivative", .switch), ("range", .value .never), ("step", .value .never),
    ("y-min", .value .numbers), ("y-max", .value .numbers)]
  request? g := do
    let standard : Viewport Float := .standard
    let series := if (g.option? "derivative").isSome then .derivative else .function
    let viewport : Viewport Float :=
      { range := ← g.numberD "range" standard.range
        step := ← g.numberD "step" standard.step
        yMin := ← g.numberD "y-min" standard.yMin
        yMax := ← g.numberD "y-max" standard.yMax }
    return .plot (← g.positional) series viewport

def all : List (String × Command) :=
  [("eval", eval), ("slope", slope), ("diff", diff), ("check", check), ("plot", plot)]

def grammar (c : Command) : Grammar where
  options := ("var", .value .never) :: ("help", .stop .help) :: c.options
  letters := [('h', .help)]
  positional := true

end Command

/-- What stands before the command. -/
def leading : Grammar where
  options := [("var", .value .never), ("version", .stop .version), ("help", .stop .help)]
  letters := [('h', .help), ('V', .version)]
  positional := false

def Invocation.ofWords (words : List String) : Except Stop Invocation := do
  match ← leading.read none .empty words with
  | (_, []) => .error .rejected
  | (before, name :: words) =>
    match Command.all.lookup name with
    | none => .error .rejected
    | some command =>
      let (g, _) ← command.grammar.read none .empty words
      match command.request? g with
      | none => .error .rejected
      | some request => return ⟨((g.option? "var").or (before.option? "var")).getD "x", request⟩

end Univariate.CommandLine

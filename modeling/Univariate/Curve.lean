import Univariate.Expr.Slope

/-!
# Curves

An expression, or its slope, is sampled at equal steps over a range that is symmetric about zero.
A sample is on screen when it has a value and the value lies within the vertical limits. The curve
consists of segments, the longest runs of neighbouring samples on screen, so that no line is drawn
across a gap.
-/

namespace Univariate

structure Viewport (α : Type) where
  range : α
  step : α
  yMin : α
  yMax : α

inductive ViewportError (α : Type) where
  | invalidStep (step : α)
  | invalidRange (range : α)
  | tooManySamples (count : α)
  deriving DecidableEq, Repr

inductive Series where
  | function
  | derivative
  deriving DecidableEq, Repr

structure Point (α : Type) where
  x : α
  y : α
  deriving DecidableEq, Repr

abbrev Segment (α : Type) := List (Point α)

def maxSamples : Nat := 1000000

namespace ViewportError

variable {α : Type}

def value : ViewportError α → α
  | invalidStep v | invalidRange v | tooManySamples v => v

def message [Numeral α] : ViewportError α → String
  | invalidStep v => "step " ++ Numeral.text v ++ " must be finite and positive"
  | invalidRange v => "x range " ++ Numeral.text v ++ " must be finite and not negative"
  | tooManySamples v =>
    "viewport needs " ++ Numeral.wholeText v ++ " samples, at most " ++ Nat.repr maxSamples ++
      " are allowed"

def help? : ViewportError α → Option String
  | tooManySamples _ => some "use a larger --step or a smaller --range"
  | _ => none

end ViewportError

/-- A run that has ended is kept unless it is empty. -/
def endRun {β : Type} (run : List β) (later : List (List β)) : List (List β) :=
  if run.isEmpty then later else run :: later

/-- Puts a sample before the run that starts behind it and the runs after that one. -/
def addSample {β : Type} : Option β → List β × List (List β) → List β × List (List β)
  | some p, (run, later) => (p :: run, later)
  | none, (run, later) => ([], endRun run later)

/-- Cuts a list at its gaps. -/
def runs {β : Type} (samples : List (Option β)) : List (List β) :=
  let (run, later) := samples.foldr addSample ([], [])
  endRun run later

namespace Viewport

variable {α : Type} [Arith α]

open Arith

def standard : Viewport α :=
  { range := ofNat 10
    step := one / ofNat 20
    yMin := -(ofNat 25 / ofNat 2)
    yMax := ofNat 25 / ofNat 2 }

def shows (v : Viewport α) (y : α) : Bool := decide (v.yMin ≤ y) && decide (y ≤ v.yMax)

/-- A small part of a step, so that a range of whole steps keeps its end point in spite of
rounding. -/
def slack : α := one / ofNat 1000000000

/-- The number of whole steps from one end of the range to the other. -/
def steps (v : Viewport α) : α := floor (ofNat 2 * v.range / v.step + slack)

def sampleCount (v : Viewport α) : Except (ViewportError α) Nat :=
  if !isStep v.step then .error (.invalidStep v.step)
  else if !(isFinite v.range && decide (zero ≤ v.range)) then .error (.invalidRange v.range)
  else
    match (toNat? v.steps).filter (· < maxSamples) with
    | some n => .ok (n + 1)
    | none => .error (.tooManySamples (v.steps + one))

def position (v : Viewport α) (i : Nat) : α := -v.range + ofNat i * v.step

def sampleAt (series : Series) (e : Expr α) (x : α) : Except (DomainError α) α :=
  match series with
  | .function => e.eval x
  | .derivative => e.slope defaultStep x

/-- The point of one sample, if it is on screen. -/
def point? (v : Viewport α) (series : Series) (e : Expr α) (i : Nat) : Option (Point α) :=
  match sampleAt series e (v.position i) with
  | .ok y => if v.shows y then some ⟨v.position i, y⟩ else none
  | .error _ => none

def curve (v : Viewport α) (series : Series) (e : Expr α) :
    Except (ViewportError α) (List (Segment α)) := do
  let count ← v.sampleCount
  return runs ((List.range count).map (v.point? series e))

end Viewport

end Univariate

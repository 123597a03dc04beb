import Univariate.Number.Decimal

/-!
# Shortest decimals

A binary number `m * 2 ^ q` stands for every real number that rounds to it: those up to half way
to its neighbours, the half-way points included when `m` is even, because a tie rounds to even.
Its shortest decimal has the fewest digits of all decimals in that interval, and is the nearest to
`m * 2 ^ q` of those; of two that are equally near it is the greater.

Seventeen digits are always enough for a double, so the search looks at the grids of one digit, of
two, and so on up to seventeen. On a grid only the two neighbours of the value have to be tried:
if any point of it lies in the interval, one of them does.
-/

namespace Univariate

/-- A positive number `mantissa * 2 ^ exponent`. The gap to the next smaller number of the format
is `2 ^ exponent`, or half of that when `narrow`. -/
structure Binary where
  mantissa : Nat
  exponent : Int
  narrow : Bool

namespace Binary

/-- The power `base ^ e`, or one where `e` is negative, so that `base ^ e` is the quotient
`raise base e / raise base (-e)` for every `e`. -/
def raise (base : Nat) (e : Int) : Nat := Nat.pow base e.toNat

/-- How many digits `n` has in decimal notation. -/
def digitCount (n : Nat) : Nat := (Nat.toDigits 10 n).length

/-- The exponent of the greatest power of ten that is not above `num / den`. -/
def floorLog10 (num den : Nat) : Int :=
  if den ≤ num then (digitCount (num / den) : Int) - 1
  else -(digitCount ((den - 1) / num) : Int)

/-- The value, the ends of its interval and a power of ten, all as multiples of one unit. -/
structure Scaled where
  low : Nat
  value : Nat
  high : Nat
  closed : Bool
  power : Nat

def scaled (b : Binary) (scale : Int) : Scaled :=
  let factor := raise 2 b.exponent * raise 10 (-scale)
  { low := (4 * b.mantissa - if b.narrow then 1 else 2) * factor
    value := 4 * b.mantissa * factor
    high := (4 * b.mantissa + 2) * factor
    closed := b.mantissa % 2 == 0
    power := 4 * raise 2 (-b.exponent) * raise 10 scale }

def Scaled.accepts (s : Scaled) (n : Nat) : Bool :=
  if s.closed then decide (s.low ≤ n ∧ n ≤ s.high) else decide (s.low < n ∧ n < s.high)

/-- The multiple of `step` in the interval that is nearest to the value. -/
def Scaled.nearest? (s : Scaled) (step : Nat) : Option Nat :=
  let k := s.value / step
  match s.accepts (k * step), s.accepts ((k + 1) * step) with
  | true, true => some (if s.value - k * step < (k + 1) * step - s.value then k else k + 1)
  | true, false => some k
  | false, true => some (k + 1)
  | false, false => none

def maxDigits : Nat := 17

/-- The scale at which the value has `maxDigits` digits before the point. -/
def scale (b : Binary) : Int :=
  floorLog10 (b.mantissa * raise 2 b.exponent) (raise 2 (-b.exponent)) + 1 - maxDigits

def shortest? (b : Binary) : Option Decimal :=
  let s := b.scaled b.scale
  (List.range maxDigits).findSome? fun n =>
    let dropped := maxDigits - 1 - n
    (s.nearest? (s.power * raise 10 dropped)).map (Decimal.ofScale · (b.scale + dropped))

/-- The whole part of the value, in full. -/
def whole (b : Binary) : Nat :=
  b.mantissa * raise 2 b.exponent / raise 2 (-b.exponent)

def shortest (b : Binary) : Decimal := b.shortest?.getD ⟨b.whole, 0⟩

end Binary

end Univariate

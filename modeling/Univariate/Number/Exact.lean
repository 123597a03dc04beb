import Univariate.Number.Arith

/-!
# Exact arithmetic

The rational numbers and one value for all that is not rational. Sums, products and quotients have
no rounding and no overflow. A power is rational when its exponent is whole, except zero to a
negative power; roots, logarithms and the other functions are left undefined.
-/

namespace Univariate

inductive Exact where
  | rational : Rat → Exact
  | undefined : Exact
  deriving DecidableEq

namespace Exact

def map₂ (f : Rat → Rat → Exact) : Exact → Exact → Exact
  | rational p, rational q => f p q
  | _, _ => undefined

def add : Exact → Exact → Exact := map₂ fun p q => rational (p + q)

def sub : Exact → Exact → Exact := map₂ fun p q => rational (p - q)

def mul : Exact → Exact → Exact := map₂ fun p q => rational (p * q)

def div : Exact → Exact → Exact :=
  map₂ fun p q => if q = 0 then undefined else rational (p / q)

def neg : Exact → Exact
  | rational p => rational (-p)
  | undefined => undefined

def pow : Exact → Exact → Exact :=
  map₂ fun p q => if q.den = 1 ∧ ¬(p = 0 ∧ q < 0) then rational (p ^ q.num) else undefined

/-- Nothing compares with the undefined value. -/
def Related (r : Rat → Rat → Prop) : Exact → Exact → Prop
  | rational p, rational q => r p q
  | _, _ => False

instance (r : Rat → Rat → Prop) [DecidableRel r] : DecidableRel (Related r)
  | rational p, rational q => inferInstanceAs (Decidable (r p q))
  | rational _, undefined | undefined, _ => isFalse id

def isRational : Exact → Bool
  | rational _ => true
  | undefined => false

def floor : Exact → Exact
  | rational p => rational p.floor
  | undefined => undefined

def toNat? : Exact → Option Nat
  | rational p =>
    if p.den = 1 ∧ 0 ≤ p.num ∧ p.num ≤ Arith.maxNat then some p.num.toNat else none
  | undefined => none

instance : Arith Exact where
  add := add
  sub := sub
  mul := mul
  div := div
  neg := neg
  beq a b := decide (Related (· = ·) a b)
  le := Related (· ≤ ·)
  lt := Related (· < ·)
  decLe := fun a b => inferInstanceAs (Decidable (Related (· ≤ ·) a b))
  decLt := fun a b => inferInstanceAs (Decidable (Related (· < ·) a b))
  ofNat n := rational n
  isFinite := isRational
  floor := floor
  toNat? := toNat?
  pow := pow
  sin := fun _ => undefined
  cos := fun _ => undefined
  tan := fun _ => undefined
  ln := fun _ => undefined
  sqrt := fun _ => undefined
  abs := fun _ => undefined
  exp := fun _ => undefined

end Exact

end Univariate

import Univariate.Expr.Printer

/-!
# Monomials

A term `c * x ^ n` with a finite coefficient and a power below `2 ^ 32`. A term of an expression is
one when it is made of numbers, the variable, minuses, products with at most one factor that is not
constant, quotients by constants other than zero, and powers: of a constant to any constant, of
anything else to a natural number. A coefficient that is not finite after any of these steps is
refused.
-/

namespace Univariate

structure Monomial (α : Type) where
  coefficient : α
  power : Nat
  deriving DecidableEq, Repr

namespace Monomial

variable {α : Type} [Arith α]

open Arith

def constant (c : α) : Monomial α := ⟨c, 0⟩

def negated (m : Monomial α) : Monomial α := { m with coefficient := -m.coefficient }

def isZero (m : Monomial α) : Bool := m.coefficient == zero

/-- The power rule. -/
def derivative (m : Monomial α) : Monomial α :=
  match m.power with
  | 0 => constant zero
  | n + 1 => ⟨m.coefficient * ofNat (n + 1), n⟩

def finite? (m : Monomial α) : Option (Monomial α) :=
  if isFinite m.coefficient then some m else none

def mul? (a b : Monomial α) : Option (Monomial α) :=
  if 0 < a.power ∧ 0 < b.power then none
  else finite? ⟨a.coefficient * b.coefficient, a.power + b.power⟩

def div? (a b : Monomial α) : Option (Monomial α) :=
  if 0 < b.power ∨ b.isZero then none
  else finite? ⟨a.coefficient / b.coefficient, a.power⟩

def pow? (a b : Monomial α) : Option (Monomial α) :=
  if 0 < b.power then none
  else if a.power = 0 then finite? (constant (Arith.pow a.coefficient b.coefficient))
  else
    match toNat? b.coefficient with
    | some n =>
      if a.power * n ≤ maxNat then finite? ⟨Arith.pow a.coefficient (ofNat n), a.power * n⟩
      else none
    | none => none

def ofTerm? : Expr α → Option (Monomial α)
  | .num v => finite? (constant v)
  | .var _ => finite? ⟨one, 1⟩
  | .neg e => do finite? (← ofTerm? e).negated
  | .bin .mul l r => do mul? (← ofTerm? l) (← ofTerm? r)
  | .bin .div l r => do div? (← ofTerm? l) (← ofTerm? r)
  | .bin .pow l r => do pow? (← ofTerm? l) (← ofTerm? r)
  | .bin .add _ _ | .bin .sub _ _ | .call _ _ => none

variable [Numeral α]

/-- A coefficient of one and a power of one are left out. -/
def render (var : String) (m : Monomial α) : String :=
  if m.power = 0 then formatNumber m.coefficient
  else
    let base := if m.power = 1 then var else var ++ "^" ++ Nat.repr m.power
    if m.coefficient == one then base
    else if m.coefficient == -one then "-" ++ base
    else formatNumber m.coefficient ++ "*" ++ base

end Monomial

end Univariate

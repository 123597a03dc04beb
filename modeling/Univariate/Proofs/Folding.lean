import Univariate.Expr.Eval
import Univariate.Polynomial.Lemmas
import Univariate.Proofs.Doubles

/-!
# Folding is evaluation

A term that is folded to a monomial has been evaluated at one: each product, quotient and power of
coefficients is the operation that evaluation applies, on the same operands and with the same check,
because the variable and all its powers are one there. Only the exponent of a power takes a way of
its own, through the natural numbers and back, and powers of doubles do not see the difference. A
term without the variable is folded exactly where it has a value.
-/
namespace Univariate

open Arith

/-- A power does not tell an exponent from the natural number that it equals. -/
def WholeExponents (α : Type) [Arith α] : Prop :=
  ∀ (a c : α) (n : Nat), toNat? c = some n → Arith.pow a (ofNat n) = Arith.pow a c

/-! ## Exponents of doubles -/

namespace Double

theorem toNat?_eq_some {c : Float} {n : Nat} (h : toNat? c = some n) :
    c.toUInt32.toNat = n ∧ (Float.ofNat n == c) = true := by
  unfold toNat? at h
  dsimp only at h
  split at h
  · rename_i same
    cases h
    exact ⟨rfl, same⟩
  · cases h

theorem toUInt32_of_isZero {c : Float} (zero : (c == Arith.zero) = true) : c.toUInt32.toNat = 0 := by
  obtain ⟨s, unpacked⟩ := beq_zero_iff.mp zero
  change (view c).toUInt32.toNat = 0
  rw [unpacked]
  rfl

theorem pow_of_isZero (a : Float) {c : Float} (zero : (c == 0) = true) : pow a c = 1 := by
  simp [pow, zero]

/-- Both zeros are the same exponent, and every other double comes back from its natural number. -/
theorem wholeExponents : WholeExponents Float := by
  intro a c n natural
  obtain ⟨word, same⟩ := toNat?_eq_some natural
  change pow a (Float.ofNat n) = pow a c
  by_cases zero : (c == Arith.zero) = true
  · obtain rfl : 0 = n := (toUInt32_of_isZero zero).symm.trans word
    rw [pow_of_isZero a zero, pow_of_isZero a (by decide +kernel)]
  · rw [eq_of_beq same (by simpa using zero)]

end Double

variable {α : Type} [Arith α]

namespace Monomial

variable {a b m : Monomial α}

theorem finite_of_finite? (h : finite? a = some m) : finite a.coefficient = .ok m.coefficient := by
  obtain ⟨rfl, defined⟩ := finite?_eq_some h
  exact if_pos defined

theorem apply_mul_of_mul? (h : mul? a b = some m) :
    Op.mul.apply a.coefficient b.coefficient = .ok m.coefficient := by
  obtain ⟨rfl, defined⟩ := mul?_eq_some h
  exact if_pos defined

theorem apply_div_of_div? (h : div? a b = some m) :
    Op.div.apply a.coefficient b.coefficient = .ok m.coefficient := by
  obtain ⟨_, divisor, rfl, defined⟩ := div?_eq_some h
  exact (if_neg (ne_true_of_eq_false divisor)).trans (if_pos defined)

theorem apply_pow_of_pow? (whole : WholeExponents α) (h : pow? a b = some m) :
    Op.pow.apply a.coefficient b.coefficient = .ok m.coefficient := by
  obtain ⟨_, defined, ⟨_, rfl⟩ | ⟨n, natural, _, rfl⟩⟩ := pow?_eq_some h
  · exact if_pos defined
  · rw [Op.apply, ← whole _ _ n natural]
    exact if_pos defined

/-- The coefficient is the value where the variable is one. -/
theorem eval_one_of_ofTerm? (whole : WholeExponents α) {e : Expr α} (h : ofTerm? e = some m) :
    e.eval one = .ok m.coefficient := by
  induction e generalizing m with
  | num v => exact finite_of_finite? h
  | var name => exact finite_of_finite? h
  | neg e ih =>
    obtain ⟨a, inner, negated⟩ := Option.bind_eq_some_iff.mp h
    rw [Expr.eval, ih inner]
    exact finite_of_finite? negated
  | bin op l r left right =>
    have operands {f : Monomial α → Monomial α → Option (Monomial α)}
        (h : (do f (← ofTerm? l) (← ofTerm? r)) = some m) : ∃ a b, f a b = some m ∧
          (Expr.bin op l r).eval one = op.apply a.coefficient b.coefficient := by
      obtain ⟨a, b, termLeft, termRight, h⟩ := exists_operands h
      refine ⟨a, b, h, ?_⟩
      rw [Expr.eval, left termLeft, right termRight]
      rfl
    cases op with
    | add | sub => cases h
    | mul =>
      obtain ⟨a, b, product, value⟩ := operands h
      rw [value, apply_mul_of_mul? product]
    | div =>
      obtain ⟨a, b, quotient, value⟩ := operands h
      rw [value, apply_div_of_div? quotient]
    | pow =>
      obtain ⟨a, b, power, value⟩ := operands h
      rw [value, apply_pow_of_pow? whole power]
  | call f e ih => cases h

/-! ## Terms without the variable -/

theorem finite?_constant (c : α) : finite? (constant c) = (finite c).toOption.map constant := by
  unfold finite? finite
  cases defined : isFinite c <;> simp [constant, defined, Except.toOption]

theorem mul?_constants (a b : α) :
    mul? (constant a) (constant b) = (Op.mul.apply a b).toOption.map constant :=
  finite?_constant (a * b)

theorem div?_constants (a b : α) :
    div? (constant a) (constant b) = (Op.div.apply a b).toOption.map constant := by
  by_cases divisor : b == zero
  · simp [div?, Op.apply, constant, isZero, divisor, Except.toOption]
  · simpa [div?, Op.apply, constant, isZero, divisor] using finite?_constant (a / b)

theorem pow?_constants (a b : α) :
    pow? (constant a) (constant b) = (Op.pow.apply a b).toOption.map constant :=
  finite?_constant (Arith.pow a b)

end Monomial

namespace Expr

/-- Made of numbers, minuses, products, quotients and powers only. -/
def isNumerical : Expr α → Bool
  | num _ => true
  | neg e => e.isNumerical
  | bin .mul l r | bin .div l r | bin .pow l r => l.isNumerical && r.isNumerical
  | bin .add _ _ | bin .sub _ _ | var _ | call _ _ => false

end Expr

namespace Monomial

/-- A numerical term is folded to its value, which does not depend on the variable. -/
theorem ofTerm?_of_isNumerical {e : Expr α} (numerical : e.isNumerical = true) (x : α) :
    ofTerm? e = (e.eval x).toOption.map constant := by
  induction e with
  | num v => exact finite?_constant v
  | var name => cases numerical
  | neg e ih =>
    rw [ofTerm?, Expr.eval, ih numerical]
    cases e.eval x with
    | error cause => rfl
    | ok a => exact finite?_constant (-a)
  | bin op l r left right =>
    have operands (both : (l.isNumerical && r.isNumerical) = true)
        {f : Monomial α → Monomial α → Option (Monomial α)}
        (constants : ∀ a b, f (constant a) (constant b) = (op.apply a b).toOption.map constant) :
        (do f (← ofTerm? l) (← ofTerm? r)) =
          ((Expr.bin op l r).eval x).toOption.map constant := by
      obtain ⟨numericalLeft, numericalRight⟩ := (Bool.and_eq_true _ _).mp both
      rw [Expr.eval, left numericalLeft, right numericalRight]
      cases l.eval x with
      | error cause => rfl
      | ok a =>
        cases r.eval x with
        | error cause => rfl
        | ok b => exact constants a b
    cases op with
    | add | sub => cases numerical
    | mul => exact operands numerical mul?_constants
    | div => exact operands numerical div?_constants
    | pow => exact operands numerical pow?_constants
  | call f e ih => cases numerical

/-- Folding a term of doubles and evaluating it agree: a monomial has the value of its term where
the variable is one, and a numerical term that has a value anywhere is folded to that value. -/
theorem ofTerm?_agrees_eval (e : Expr Float) :
    (∀ m, ofTerm? e = some m → e.eval 1 = .ok m.coefficient) ∧
      (e.isNumerical = true → ∀ x c, e.eval x = .ok c → ofTerm? e = some ⟨c, 0⟩) := by
  refine ⟨fun m folded => eval_one_of_ofTerm? Double.wholeExponents folded, ?_⟩
  intro numerical x c value
  rw [ofTerm?_of_isNumerical numerical x, value]
  rfl

/-- `6*x^3/4` -/
def threeHalvesCube : Expr Float :=
  .bin .div (.bin .mul (.num 6) (.bin .pow (.var "x") (.num 3))) (.num 4)

/-- `3*(7/2)^-0` -/
def signedZeroPower : Expr Float :=
  .bin .mul (.num 3) (.bin .pow (.bin .div (.num 7) (.num 2)) (.neg (.num 0)))

theorem ofTerm?_agrees_eval_powers :
    ofTerm? threeHalvesCube = some ⟨1.5, 3⟩ ∧ threeHalvesCube.eval 1 = .ok 1.5 ∧
      signedZeroPower.isNumerical = true ∧ signedZeroPower.eval 5 = .ok 3 ∧
      ofTerm? signedZeroPower = some ⟨3, 0⟩ := by
  have folded : ofTerm? threeHalvesCube = some ⟨1.5, 3⟩ := by decide +kernel
  have value : signedZeroPower.eval 5 = .ok 3 := by decide +kernel
  exact ⟨folded, (ofTerm?_agrees_eval threeHalvesCube).1 _ folded, rfl, value,
    (ofTerm?_agrees_eval signedZeroPower).2 rfl 5 3 value⟩

end Monomial

end Univariate

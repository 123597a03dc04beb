import Univariate.Polynomial.Monomial

/-!
# When operations on monomials succeed

Every case in which an operation gives a monomial, with that monomial. Its coefficient is finite.
-/
namespace Univariate.Monomial

open Arith

variable {α : Type} [Arith α] {a b m : Monomial α}

theorem finite?_eq_some (h : finite? a = some m) : a = m ∧ isFinite m.coefficient = true := by
  unfold finite? at h
  split at h
  · rename_i defined
    cases h
    exact ⟨rfl, defined⟩
  · cases h

theorem mul?_eq_some (h : mul? a b = some m) :
    ⟨a.coefficient * b.coefficient, a.power + b.power⟩ = m ∧ isFinite m.coefficient = true := by
  unfold mul? at h
  split at h
  · cases h
  · exact finite?_eq_some h

theorem div?_eq_some (h : div? a b = some m) : b.power = 0 ∧ b.isZero = false ∧
    ⟨a.coefficient / b.coefficient, a.power⟩ = m ∧ isFinite m.coefficient = true := by
  unfold div? at h
  split at h
  · cases h
  · rename_i divisor
    obtain ⟨constant, nonzero⟩ := not_or.mp divisor
    exact ⟨Nat.eq_zero_of_not_pos constant, eq_false_of_ne_true nonzero, finite?_eq_some h⟩

theorem pow?_eq_some (h : pow? a b = some m) : b.power = 0 ∧ isFinite m.coefficient = true ∧
    (a.power = 0 ∧ constant (Arith.pow a.coefficient b.coefficient) = m ∨
      ∃ n, toNat? b.coefficient = some n ∧ a.power * n ≤ maxNat ∧
        ⟨Arith.pow a.coefficient (ofNat n), a.power * n⟩ = m) := by
  unfold pow? at h
  split at h
  · cases h
  · rename_i exponent
    refine ⟨Nat.eq_zero_of_not_pos exponent, ?_⟩
    split at h
    · rename_i base
      obtain ⟨same, defined⟩ := finite?_eq_some h
      exact ⟨defined, .inl ⟨base, same⟩⟩
    · split at h
      · rename_i n natural
        split at h
        · rename_i fits
          obtain ⟨same, defined⟩ := finite?_eq_some h
          exact ⟨defined, .inr ⟨n, natural, fits, same⟩⟩
        · cases h
      · cases h

/-- Both operands of an operator are terms. -/
theorem exists_operands {f : Monomial α → Monomial α → Option (Monomial α)} {l r : Expr α}
    (h : (do f (← ofTerm? l) (← ofTerm? r)) = some m) :
    ∃ a b, ofTerm? l = some a ∧ ofTerm? r = some b ∧ f a b = some m := by
  obtain ⟨a, left, h⟩ := Option.bind_eq_some_iff.mp h
  obtain ⟨b, right, h⟩ := Option.bind_eq_some_iff.mp h
  exact ⟨a, b, left, right, h⟩

/-- The last step of every fold is the check of its coefficient. -/
theorem isFinite_of_ofTerm? {e : Expr α} (h : ofTerm? e = some m) :
    isFinite m.coefficient = true := by
  cases e with
  | num v | var name =>
    obtain ⟨rfl, defined⟩ := finite?_eq_some h
    exact defined
  | neg e =>
    obtain ⟨a, _, h⟩ := Option.bind_eq_some_iff.mp h
    obtain ⟨rfl, defined⟩ := finite?_eq_some h
    exact defined
  | bin op l r =>
    cases op with
    | add | sub => cases h
    | mul =>
      obtain ⟨a, b, _, _, h⟩ := exists_operands h
      exact (mul?_eq_some h).2
    | div =>
      obtain ⟨a, b, _, _, h⟩ := exists_operands h
      exact (div?_eq_some h).2.2.2
    | pow =>
      obtain ⟨a, b, _, _, h⟩ := exists_operands h
      exact (pow?_eq_some h).2.1
  | call f e => cases h

end Univariate.Monomial

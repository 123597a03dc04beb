import Mathlib.Algebra.Field.Rat
import Mathlib.Tactic.FieldSimp
import Mathlib.Tactic.Ring
import Univariate.Expr.Eval
import Univariate.Number.Exact
import Univariate.Polynomial.Lemmas

/-!
# Terms in exact arithmetic

In exact arithmetic a term that is a monomial has a value everywhere, which is the value of the
monomial. So each of the operations on monomials is the operation on their values.
-/
namespace Univariate

namespace Exact

@[simp] theorem rational_mul (p q : ℚ) : (rational p * rational q : Exact) = rational (p * q) := rfl

theorem rational_div {p q : ℚ} (h : q ≠ 0) : (rational p / rational q : Exact) = rational (p / q) :=
  if_neg h

@[simp] theorem rational_beq_zero (p : ℚ) : (rational p == Arith.zero) = decide (p = 0) := rfl

@[simp] theorem finite_rational (p : ℚ) :
    finite (rational p) = (.ok (rational p) : Except (DomainError Exact) Exact) := rfl

theorem eq_rational_of_isFinite {a : Exact} (h : Arith.isFinite a = true) :
    ∃ p, a = rational p := by
  cases a with
  | rational p => exact ⟨p, rfl⟩
  | undefined => cases h

theorem isStep_rational {h : ℚ} (positive : 0 < h) : Arith.isStep (rational h) = true := by
  change (true && decide ((0 : ℚ) < h)) = true
  simpa using positive

/-- Powers are rational when the exponent is whole and zero is not divided by. -/
theorem pow_eq_rational {p q r : ℚ} (h : Arith.pow (rational p) (rational q) = rational r) :
    ∃ k : ℤ, q = k ∧ ¬(p = 0 ∧ k < 0) ∧ r = p ^ k := by
  change (if q.den = 1 ∧ ¬(p = 0 ∧ q < 0) then rational (p ^ q.num) else undefined) = _ at h
  split at h
  · rename_i defined
    cases h
    have whole : (q.num : ℚ) = q := Rat.den_eq_one_iff q |>.mp defined.1
    refine ⟨q.num, whole.symm, ?_, rfl⟩
    rintro ⟨zero, negative⟩
    exact defined.2 ⟨zero, Rat.num_neg.mp negative⟩
  · cases h

theorem pow_intCast {p : ℚ} {k : ℤ} (h : ¬(p = 0 ∧ k < 0)) :
    Arith.pow (rational p) (rational k) = rational (p ^ k) := by
  have defined : ((k : ℚ).den = 1) ∧ ¬(p = 0 ∧ (k : ℚ) < 0) := by
    refine ⟨Rat.den_intCast k, ?_⟩
    rintro ⟨zero, negative⟩
    exact h ⟨zero, Int.cast_lt_zero.mp negative⟩
  change (if _ then rational (p ^ (k : ℚ).num) else undefined) = _
  rw [if_pos defined, Rat.num_intCast]

theorem pow_natCast (p : ℚ) (n : ℕ) :
    Arith.pow (rational p) (Arith.ofNat n) = rational (p ^ n) := by
  have := @pow_intCast p n (fun h => absurd h.2 (by simp))
  rwa [zpow_natCast] at this

theorem toNat?_eq_some {a : Exact} {n : ℕ} (h : Arith.toNat? a = some n) :
    a = rational n ∧ n ≤ Arith.maxNat := by
  cases a with
  | undefined => cases h
  | rational p =>
    change (if p.den = 1 ∧ 0 ≤ p.num ∧ p.num ≤ Arith.maxNat then some p.num.toNat
      else none) = _ at h
    split at h
    · rename_i fits
      obtain ⟨whole, nonneg, small⟩ := fits
      cases h
      have : ((p.num.toNat : ℤ) : ℚ) = p := by
        rw [Int.toNat_of_nonneg nonneg]
        exact (Rat.den_eq_one_iff p).mp whole
      constructor
      · rw [← this]
        rfl
      · omega
    · cases h

theorem toNat?_natCast (n : ℕ) :
    Arith.toNat? (rational n) = if n ≤ Arith.maxNat then some n else none := by
  change (if (n : ℚ).den = 1 ∧ 0 ≤ (n : ℚ).num ∧ (n : ℚ).num ≤ Arith.maxNat then
    some (n : ℚ).num.toNat else none) = _
  simp

end Exact

namespace Monomial

/-- A monomial with a rational coefficient among those with an exact one. -/
def exact (m : Monomial ℚ) : Monomial Exact := ⟨.rational m.coefficient, m.power⟩

/-- The value where the variable is `x`. -/
def valueAt (x : ℚ) (m : Monomial ℚ) : ℚ := m.coefficient * x ^ m.power

theorem finite?_exact {a m : Monomial Exact} (h : finite? a = some m) :
    a = m ∧ ∃ c, m.coefficient = .rational c := by
  obtain ⟨same, defined⟩ := finite?_eq_some h
  exact ⟨same, Exact.eq_rational_of_isFinite defined⟩

variable {a b : Monomial ℚ} {m : Monomial Exact} {x : ℚ}

theorem mul?_exact (h : mul? a.exact b.exact = some m) :
    m = exact ⟨a.coefficient * b.coefficient, a.power + b.power⟩ :=
  (mul?_eq_some h).1.symm

theorem div?_exact (h : div? a.exact b.exact = some m) :
    b.power = 0 ∧ b.coefficient ≠ 0 ∧ m = exact ⟨a.coefficient / b.coefficient, a.power⟩ := by
  obtain ⟨constant, divisor, same, _⟩ := div?_eq_some h
  have nonzero : b.coefficient ≠ 0 := of_decide_eq_false divisor
  refine ⟨constant, nonzero, ?_⟩
  rw [← same]
  simp only [exact, Exact.rational_div nonzero]

/-- A power of a monomial is a power with a whole exponent of its values. -/
theorem pow?_exact (h : pow? a.exact b.exact = some m) :
    b.power = 0 ∧ ∃ k : ℤ, ∃ q : Monomial ℚ, b.coefficient = k ∧ m = q.exact ∧
      ∀ x, ¬(a.valueAt x = 0 ∧ k < 0) ∧ q.valueAt x = a.valueAt x ^ k := by
  obtain ⟨exponent, defined, ⟨base, same⟩ | ⟨n, natural, _, same⟩⟩ := pow?_eq_some h
  · -- a power of a constant, which may be divided by
    obtain ⟨c, value⟩ := Exact.eq_rational_of_isFinite defined
    rw [← same] at value
    obtain ⟨k, whole, defined, result⟩ := Exact.pow_eq_rational value
    refine ⟨exponent, k, ⟨c, 0⟩, whole, ?_, ?_⟩
    · rw [← same]
      exact congrArg (fun c => (⟨c, 0⟩ : Monomial Exact)) value
    · intro x
      have : a.valueAt x = a.coefficient := by
        have base : a.power = 0 := base
        simp [valueAt, base]
      rw [this]
      exact ⟨defined, by simp [valueAt, result]⟩
  · obtain ⟨value, _⟩ := Exact.toNat?_eq_some natural
    have value : b.coefficient = n := by injection value
    refine ⟨exponent, n, ⟨a.coefficient ^ n, a.power * n⟩, by simpa using value, ?_, ?_⟩
    · rw [← same, exact, exact, Exact.pow_natCast]
    · intro x
      refine ⟨fun negative => absurd negative.2 (by simp), ?_⟩
      rw [valueAt, valueAt, zpow_natCast, mul_pow, pow_mul]

end Monomial

namespace Expr

theorem eval_bin {α : Type} [Arith α] {x a b : α} {l r : Expr α} (left : l.eval x = .ok a)
    (right : r.eval x = .ok b) (op : Op) : (bin op l r).eval x = op.apply a b := by
  rw [eval, left, right]
  rfl

theorem eval_neg {x p : ℚ} {e : Expr Exact} (h : e.eval (.rational x) = .ok (.rational p)) :
    (neg e).eval (.rational x) = .ok (.rational (-p)) := by
  rw [eval, h]
  rfl

open Monomial

/-- A term that is a monomial has the values of the monomial. -/
theorem eval_of_ofTerm? {e : Expr Exact} {m : Monomial Exact} (h : ofTerm? e = some m) :
    ∃ q : Monomial ℚ, m = q.exact ∧
      ∀ x : ℚ, e.eval (.rational x) = .ok (.rational (q.valueAt x)) := by
  induction e generalizing m with
  | num v =>
    obtain ⟨rfl, c, value⟩ := finite?_exact h
    obtain rfl : v = .rational c := value
    exact ⟨⟨c, 0⟩, rfl, fun x => by simp [eval, valueAt]⟩
  | var name =>
    obtain ⟨rfl, _⟩ := finite?_exact h
    exact ⟨⟨1, 1⟩, rfl, fun x => by simp [eval, valueAt]⟩
  | neg e ih =>
    obtain ⟨a, term, negated⟩ := Option.bind_eq_some_iff.mp h
    obtain ⟨q, rfl, value⟩ := ih term
    obtain ⟨rfl, _⟩ := finite?_exact negated
    refine ⟨⟨-q.coefficient, q.power⟩, rfl, fun x => ?_⟩
    rw [eval_neg (value x), valueAt, valueAt, neg_mul]
  | bin op l r left right =>
    have operands {f : Monomial Exact → Monomial Exact → Option (Monomial Exact)}
        (h : (do f (← ofTerm? l) (← ofTerm? r)) = some m) : ∃ a b : Monomial ℚ,
          f a.exact b.exact = some m ∧ ∀ x : ℚ, (bin op l r).eval (.rational x) =
            op.apply (.rational (a.valueAt x)) (.rational (b.valueAt x)) := by
      obtain ⟨a, b, termLeft, termRight, h⟩ := exists_operands h
      obtain ⟨p, rfl, valueLeft⟩ := left termLeft
      obtain ⟨q, rfl, valueRight⟩ := right termRight
      exact ⟨p, q, h, fun x => eval_bin (valueLeft x) (valueRight x) op⟩
    cases op with
    | add | sub => cases h
    | mul =>
      obtain ⟨a, b, product, value⟩ := operands h
      refine ⟨_, mul?_exact product, fun x => ?_⟩
      rw [value x]
      simp only [Op.apply, Exact.rational_mul, Exact.finite_rational, valueAt, pow_add]
      congr 2
      ring
    | div =>
      obtain ⟨a, b, quotient, value⟩ := operands h
      obtain ⟨constant, nonzero, rfl⟩ := div?_exact quotient
      refine ⟨_, rfl, fun x => ?_⟩
      have divisor : b.valueAt x = b.coefficient := by simp [valueAt, constant]
      rw [value x, divisor]
      simp only [Op.apply, Exact.rational_beq_zero, nonzero, decide_false, Bool.false_eq_true,
        if_false, Exact.rational_div nonzero, Exact.finite_rational, valueAt]
      congr 2
      ring
    | pow =>
      obtain ⟨a, b, power, value⟩ := operands h
      obtain ⟨constant, k, q, whole, rfl, values⟩ := pow?_exact power
      refine ⟨q, rfl, fun x => ?_⟩
      obtain ⟨defined, same⟩ := values x
      have exponent : b.valueAt x = k := by simp [valueAt, constant, whole]
      rw [value x, exponent, same, Op.apply, Exact.pow_intCast defined, Exact.finite_rational]
  | call f e ih => cases h

end Expr

end Univariate

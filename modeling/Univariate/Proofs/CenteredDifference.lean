import Mathlib.Algebra.MvPolynomial.Eval
import Mathlib.Algebra.Order.Field.Rat
import Mathlib.Data.Fin.VecNotation
import Mathlib.Tactic.LinearCombination
import Univariate.Expr.Slope
import Univariate.Proofs.ExactDerivative

/-!
# The centered difference is accurate to second order

In exact arithmetic the difference quotient of a sum of monomials is the value of the derivative
and a rest that the square of the step divides. The rest is a polynomial in the variable and the
step, and there is none up to the power two.
-/

namespace Univariate

namespace Monomial

/-- What the power `n` leaves over, divided by the square of the step: of its centered difference
quotient after the derivative, and of the mean of its two samples after the power itself. Variable
`0` is the point and variable `1` the step. -/
noncomputable def rest : ℕ → MvPolynomial (Fin 2) ℚ × MvPolynomial (Fin 2) ℚ
  | 0 => (0, 0)
  | n + 1 =>
    let (difference, mean) := rest n
    (.X 0 * difference + mean,
      .X 0 * mean + .C (n : ℚ) * .X 0 ^ (n - 1) + .X 1 * .X 1 * difference)

@[simp] theorem rest_zero : rest 0 = (0, 0) := rfl

theorem rest_succ (n : ℕ) : rest (n + 1) = (.X 0 * (rest n).1 + (rest n).2,
    .X 0 * (rest n).2 + .C (n : ℚ) * .X 0 ^ (n - 1) + .X 1 * .X 1 * (rest n).1) := rfl

theorem rest_eq_zero {n : ℕ} (small : n ≤ 2) : (rest n).1 = 0 := by
  obtain rfl | rfl | rfl : n = 0 ∨ n = 1 ∨ n = 2 := by omega
  all_goals simp [rest_succ]

theorem natCast_mul_pow_pred (x : ℚ) (n : ℕ) : n * x ^ (n - 1) * x = n * x ^ n := by
  cases n with
  | zero => simp
  | succ n => rw [Nat.add_sub_cancel, mul_assoc, pow_succ]

/-- The difference of two powers needs their sum for the next power, and the sum the difference, so
both are followed together. -/
theorem power_samples (x h : ℚ) (n : ℕ) :
    (x + h) ^ n - (x - h) ^ n =
        2 * h * (n * x ^ (n - 1) + h * h * MvPolynomial.eval ![x, h] (rest n).1) ∧
      (x + h) ^ n + (x - h) ^ n =
        2 * (x ^ n + h * h * MvPolynomial.eval ![x, h] (rest n).2) := by
  induction n with
  | zero => constructor <;> norm_num
  | succ n ih =>
    obtain ⟨difference, mean⟩ := ih
    have power := natCast_mul_pow_pred x n
    constructor
    · simp only [rest_succ, map_add, map_mul, MvPolynomial.eval_X, Matrix.cons_val_zero,
        Nat.add_sub_cancel, Nat.cast_add, Nat.cast_one]
      linear_combination x * difference + h * mean + 2 * h * power
    · simp only [rest_succ, map_add, map_mul, map_pow, MvPolynomial.eval_X, MvPolynomial.eval_C,
        Matrix.cons_val_zero, Matrix.cons_val_one]
      linear_combination x * mean + h * difference

/-- The rest of a sum of monomials. -/
noncomputable def restOf (ms : List (Monomial ℚ)) : MvPolynomial (Fin 2) ℚ :=
  (ms.map fun m => .C m.coefficient * (rest m.power).1).sum

theorem restOf_eq_zero {ms : List (Monomial ℚ)} (small : ∀ m ∈ ms, m.power ≤ 2) :
    restOf ms = 0 := by
  apply List.sum_eq_zero
  intro p member
  obtain ⟨m, m_mem, rfl⟩ := List.mem_map.mp member
  rw [rest_eq_zero (small m m_mem), mul_zero]

theorem sumAt_cons (x : ℚ) (m : Monomial ℚ) (ms : List (Monomial ℚ)) :
    sumAt x (m :: ms) = m.valueAt x + sumAt x ms := by
  simp [sumAt]

theorem sumAt_filter (x : ℚ) (ms : List (Monomial ℚ)) :
    sumAt x (ms.filter fun m => !decide (m.coefficient = 0)) = sumAt x ms := by
  induction ms with
  | nil => rfl
  | cons m ms ih =>
    by_cases zero : m.coefficient = 0
    · rw [List.filter_cons_of_neg (by simp [zero]), ih, sumAt_cons]
      simp [valueAt, zero]
    · rw [List.filter_cons_of_pos (by simp [zero]), sumAt_cons, sumAt_cons, ih]

theorem sumAt_samples (x h : ℚ) (ms : List (Monomial ℚ)) :
    sumAt (x + h) ms - sumAt (x - h) ms = 2 * h *
      (sumAt x (ms.map slope) + h * h * MvPolynomial.eval ![x, h] (restOf ms)) := by
  induction ms with
  | nil => simp [sumAt, restOf]
  | cons m ms ih =>
    have samples := (power_samples x h m.power).1
    have split : restOf (m :: ms) = .C m.coefficient * (rest m.power).1 + restOf ms := by
      simp [restOf]
    simp only [sumAt_cons, List.map_cons, split, map_add, map_mul, MvPolynomial.eval_C, valueAt,
      slope]
    linear_combination ih + m.coefficient * samples

end Monomial

namespace Expr

/-- In exact arithmetic the quotient is defined where both samples are. -/
theorem slope_exact {e : Expr Exact} {x h v w : ℚ} (positive : 0 < h)
    (ahead : e.eval (.rational (x + h)) = .ok (.rational v))
    (behind : e.eval (.rational (x - h)) = .ok (.rational w)) :
    e.slope (.rational h) (.rational x) = .ok (.rational ((v - w) / (2 * h))) := by
  have divisor : (2 : ℚ) * h ≠ 0 := by positivity
  rw [slope, if_pos (Exact.isStep_rational positive)]
  change (do
    let ahead ← e.eval (Exact.rational (x + h))
    let behind ← e.eval (Exact.rational (x - h))
    finite ((ahead - behind) / Exact.rational (2 * h))) = _
  rw [ahead, behind]
  change finite (Exact.rational (v - w) / Exact.rational (2 * h)) = _
  rw [Exact.rational_div divisor, Exact.finite_rational]

end Expr

open Monomial

namespace Polynomial

/-- The difference quotient of every expression that is supported is the value of its derivative up
to a multiple of the square of the step, at every point and for every step. The terms of the
derivative have rational coefficients `ds`; the polynomial `q` in the point and the step does not
depend on either, and it is zero when no power is above two. -/
theorem slope_eq_derivative_add (e : Expr Exact) (supported : (ofExpr e).isSupported = true) :
    ∃ (ds : List (Monomial ℚ)) (q : MvPolynomial (Fin 2) ℚ),
      (ofExpr e).derivative.terms = ds.map exact ∧
      (∀ x h : ℚ, 0 < h → e.slope (.rational h) (.rational x) =
        .ok (.rational ((ds.map fun m => m.coefficient * x ^ m.power).sum +
          h * h * MvPolynomial.eval ![x, h] q))) ∧
      ((∀ m ∈ (ofExpr e).terms, m.power ≤ 2) → q = 0) := by
  obtain ⟨ms, terms, values⟩ := denotes_collect (List.isEmpty_iff.mp supported)
  refine ⟨_, restOf ms, derivative_exact_terms terms, ?_, ?_⟩
  · intro x h positive
    have sample (y : ℚ) : e.eval (.rational y) = .ok (.rational (sumAt y ms)) := by
      obtain ⟨v, eval, sum⟩ := values y
      rw [eval, show sumAt y ms = v from sum]
    have divisor : (2 : ℚ) * h ≠ 0 := by positivity
    rw [Expr.slope_exact positive (sample _) (sample _), sumAt_samples,
      mul_div_cancel_left₀ _ divisor, ← sumAt_filter]
    rfl
  · intro small
    apply restOf_eq_zero
    intro m member
    exact small m.exact (terms ▸ List.mem_map_of_mem member)

/-- For `8*x^3 - x/2 + x^2 - 1` the rest is eight times the square of the step. -/
theorem slope_eq_derivative_add_sample : (ofExpr sample).isSupported = true ∧
    ∃ q : MvPolynomial (Fin 2) ℚ, MvPolynomial.eval ![1, 1 / 2] q = 8 ∧
      ∀ x h : ℚ, 0 < h → sample.slope (.rational h) (.rational x) =
        .ok (.rational (24 * x ^ 2 + (-1 / 2 + 2 * x) + h * h * MvPolynomial.eval ![x, h] q)) := by
  have supported : (ofExpr sample).isSupported = true := by decide +kernel
  obtain ⟨ds, q, terms, slopes, _⟩ := slope_eq_derivative_add sample supported
  obtain rfl : ds = [⟨24, 2⟩, ⟨-1 / 2, 0⟩, ⟨2, 1⟩] := by
    refine exact_injective.list_map (terms.symm.trans ?_)
    decide +kernel
  have slopes (x h : ℚ) (positive : 0 < h) : sample.slope (.rational h) (.rational x) =
      .ok (.rational (24 * x ^ 2 + (-1 / 2 + 2 * x) + h * h * MvPolynomial.eval ![x, h] q)) := by
    rw [slopes x h positive]
    simp
  refine ⟨supported, q, ?_, slopes⟩
  have value : sample.slope (.rational (1 / 2)) (.rational 1) = .ok (.rational (55 / 2)) := by
    decide +kernel
  rw [slopes 1 (1 / 2) (by norm_num)] at value
  simp only [Except.ok.injEq, Exact.rational.injEq] at value
  linarith

end Polynomial

end Univariate

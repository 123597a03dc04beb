import Mathlib.Algebra.Polynomial.Derivative
import Univariate.Proofs.ExactTerms
import Univariate.Proofs.WordPowers

/-!
# The derivative is the derivative

In exact arithmetic an expression that is a sum of monomials has the value of that sum wherever the
variable is rational, and the differentiated sum is the formal derivative of the sum as a
polynomial. The powers are exact also as machine words.
-/
open scoped Polynomial

namespace Univariate

namespace Monomial

/-- The power rule for rational coefficients. -/
def slope (m : Monomial ℚ) : Monomial ℚ := ⟨m.coefficient * m.power, m.power - 1⟩

theorem exact_injective : Function.Injective exact := by
  rintro ⟨c, n⟩ ⟨d, k⟩ same
  simpa [exact] using same

theorem derivative_exact (m : Monomial ℚ) : m.exact.derivative = m.slope.exact := by
  obtain ⟨c, power⟩ := m
  cases power with
  | zero => simp [derivative, exact, slope, constant]; rfl
  | succ n => rfl

/-- A sum of monomials as a formal polynomial. -/
noncomputable def formal (ms : List (Monomial ℚ)) : ℚ[X] :=
  (ms.map fun m => Polynomial.monomial m.power m.coefficient).sum

/-- The value of a sum of monomials. -/
def sumAt (x : ℚ) (ms : List (Monomial ℚ)) : ℚ := (ms.map (valueAt x)).sum

theorem sumAt_append (x : ℚ) (ms ns : List (Monomial ℚ)) :
    sumAt x (ms ++ ns) = sumAt x ms + sumAt x ns := by
  simp [sumAt]

theorem formal_slope (ms : List (Monomial ℚ)) : formal (ms.map slope) = (formal ms).derivative := by
  induction ms with
  | nil => simp [formal]
  | cons m ms ih =>
    simp only [formal, List.map_cons, List.sum_cons, Polynomial.derivative_add,
      Polynomial.derivative_monomial] at ih ⊢
    rw [ih, slope]

/-- Terms that are zero do not count. -/
theorem formal_filter (ms : List (Monomial ℚ)) :
    formal (ms.filter fun m => !decide (m.coefficient = 0)) = formal ms := by
  induction ms with
  | nil => rfl
  | cons m ms ih =>
    by_cases zero : m.coefficient = 0
    · rw [List.filter_cons_of_neg (by simp [zero]), ih]
      simp [formal, zero]
    · rw [List.filter_cons_of_pos (by simp [zero])]
      simp only [formal, List.map_cons, List.sum_cons] at ih ⊢
      rw [ih]

end Monomial

open Monomial

namespace Polynomial

/-- The terms are those of a sum that has the value of the expression, up to the sign. -/
def Denotes (negate : Bool) (e : Expr Exact) (terms : List (Monomial Exact)) : Prop :=
  ∃ ms : List (Monomial ℚ), terms = ms.map exact ∧ ∀ x : ℚ, ∃ v : ℚ,
    e.eval (.rational x) = .ok (.rational v) ∧ sumAt x ms = if negate then -v else v

variable {negate : Bool} {e l r : Expr Exact}

theorem denotes_ofTerm (supported : (ofTerm negate e).unsupported = []) :
    Denotes negate e (ofTerm negate e).terms := by
  rw [ofTerm] at supported ⊢
  cases term : Monomial.ofTerm? e with
  | none => rw [term] at supported; cases supported
  | some m =>
    obtain ⟨q, rfl, value⟩ := Expr.eval_of_ofTerm? term
    cases negate with
    | false => exact ⟨[q], rfl, fun x => ⟨_, value x, by simp [sumAt]⟩⟩
    | true =>
      refine ⟨[⟨-q.coefficient, q.power⟩], rfl, fun x => ⟨_, value x, ?_⟩⟩
      simp [sumAt, valueAt]

theorem denotes_add {ts us : List (Monomial Exact)} (left : Denotes negate l ts)
    (right : Denotes negate r us) : Denotes negate (.bin .add l r) (ts ++ us) := by
  obtain ⟨ms, rfl, values⟩ := left
  obtain ⟨ns, rfl, values'⟩ := right
  refine ⟨ms ++ ns, by rw [List.map_append], fun x => ?_⟩
  obtain ⟨v, eval, sum⟩ := values x
  obtain ⟨w, eval', sum'⟩ := values' x
  refine ⟨v + w, Expr.eval_bin eval eval' .add, ?_⟩
  rw [sumAt_append, sum, sum']
  cases negate with
  | false => rfl
  | true =>
    simp only [if_true]
    ring

theorem denotes_sub {ts us : List (Monomial Exact)} (left : Denotes negate l ts)
    (right : Denotes (!negate) r us) : Denotes negate (.bin .sub l r) (ts ++ us) := by
  obtain ⟨ms, rfl, values⟩ := left
  obtain ⟨ns, rfl, values'⟩ := right
  refine ⟨ms ++ ns, by rw [List.map_append], fun x => ?_⟩
  obtain ⟨v, eval, sum⟩ := values x
  obtain ⟨w, eval', sum'⟩ := values' x
  refine ⟨v - w, Expr.eval_bin eval eval' .sub, ?_⟩
  rw [sumAt_append, sum, sum']
  cases negate with
  | false => exact (sub_eq_add_neg v w).symm
  | true =>
    simp only [Bool.not_true, Bool.false_eq_true, if_true, if_false]
    ring

theorem denotes_neg {ts : List (Monomial Exact)} (inner : Denotes (!negate) e ts) :
    Denotes negate (.neg e) ts := by
  obtain ⟨ms, rfl, values⟩ := inner
  refine ⟨ms, rfl, fun x => ?_⟩
  obtain ⟨v, eval, sum⟩ := values x
  refine ⟨-v, Expr.eval_neg eval, ?_⟩
  rw [sum]
  cases negate <;> simp

/-- What is collected denotes the expression. -/
theorem denotes_collect (supported : (collect negate e).unsupported = []) :
    Denotes negate e (collect negate e).terms := by
  fun_induction collect negate e with
  | case1 negate l r left right =>
    obtain ⟨first, second⟩ := List.append_eq_nil_iff.mp supported
    exact denotes_add (left first) (right second)
  | case2 negate l r left right =>
    obtain ⟨first, second⟩ := List.append_eq_nil_iff.mp supported
    exact denotes_sub (left first) (right second)
  | case3 negate e sum ih => exact denotes_neg (ih supported)
  | case4 negate e single => exact denotes_ofTerm supported
  | case5 negate e noAdd noSub noNeg => exact denotes_ofTerm supported

theorem derivative_exact_terms {p : Polynomial Exact} {ms : List (Monomial ℚ)}
    (terms : p.terms = ms.map exact) : p.derivative.terms =
      ((ms.map slope).filter fun m => !decide (m.coefficient = 0)).map exact := by
  have slopes : (ms.map exact).map Monomial.derivative = (ms.map slope).map exact := by
    rw [List.map_map, List.map_map]
    exact List.map_congr_left fun m _ => Monomial.derivative_exact m
  rw [derivative, terms, slopes, List.filter_map]
  rfl

/-- Exact arithmetic answers with words. -/
theorem bounded_exact : WordTerm.Bounded Exact := fun _ _ h => (Exact.toNat?_eq_some h).2

/-- Differentiation is correct for every expression that is supported. The terms have rational
coefficients `ms`, the terms of the derivative have rational coefficients `ds`; the expression has
the value of the sum of `ms` for every rational value of the variable, the polynomial of `ds` is the
formal derivative of that of `ms`, and with machine words for the powers all terms, those inside of
other terms too, and all derivatives of terms are the same. -/
theorem ofExpr_differentiates (e : Expr Exact) (supported : (ofExpr e).isSupported = true) :
    ∃ ms ds : List (Monomial ℚ),
      (ofExpr e).terms = ms.map exact ∧ (ofExpr e).derivative.terms = ds.map exact ∧
      (∀ x : ℚ, e.eval (.rational x) =
        .ok (.rational (ms.map fun m => m.coefficient * x ^ m.power).sum)) ∧
      formal ds = (formal ms).derivative ∧
      (∀ t : Expr Exact, (WordTerm.ofTerm? t).map WordTerm.toMonomial = Monomial.ofTerm? t) ∧
      (WordTerm.collect false e).map WordTerm.toMonomial = (ofExpr e).terms ∧
      ((WordTerm.collect false e).map WordTerm.derivative).map WordTerm.toMonomial =
        (ofExpr e).terms.map Monomial.derivative := by
  obtain ⟨ms, terms, values⟩ := denotes_collect (List.isEmpty_iff.mp supported)
  have words := WordTerm.map_collect bounded_exact false e
  refine ⟨ms, _, terms, derivative_exact_terms terms, ?_, ?_,
    WordTerm.map_ofTerm? bounded_exact, words, ?_⟩
  · intro x
    obtain ⟨v, eval, sum⟩ := values x
    rw [eval, ← show sumAt x ms = v from sum]
    rfl
  · rw [formal_filter, formal_slope]
  · rw [WordTerm.map_derivative, words]
    rfl

/-- `(2*x)^3 - x/2 - -(x^2 - 1)` -/
def sample : Expr Exact :=
  .bin .sub
    (.bin .sub (.bin .pow (.bin .mul (.num (.rational 2)) (.var "x")) (.num (.rational 3)))
      (.bin .div (.var "x") (.num (.rational 2))))
    (.neg (.bin .sub (.bin .pow (.var "x") (.num (.rational 2))) (.num (.rational 1))))

theorem ofExpr_differentiates_sample : (ofExpr sample).isSupported = true ∧
    ∃ ms ds : List (Monomial ℚ), (ofExpr sample).terms = ms.map exact ∧
      (ofExpr sample).derivative.terms = ds.map exact ∧
      ms = [⟨8, 3⟩, ⟨-1 / 2, 1⟩, ⟨1, 2⟩, ⟨-1, 0⟩] ∧
      ds = [⟨24, 2⟩, ⟨-1 / 2, 0⟩, ⟨2, 1⟩] ∧
      (∀ x : ℚ, sample.eval (.rational x) =
        .ok (.rational (ms.map fun m => m.coefficient * x ^ m.power).sum)) ∧
      formal ds = (formal ms).derivative := by
  have supported : (ofExpr sample).isSupported = true := by decide +kernel
  obtain ⟨ms, ds, terms, terms', values, formal, _⟩ := ofExpr_differentiates sample supported
  refine ⟨supported, ms, ds, terms, terms', ?_, ?_, values, formal⟩
  · refine exact_injective.list_map (terms.symm.trans ?_)
    decide +kernel
  · refine exact_injective.list_map (terms'.symm.trans ?_)
    decide +kernel

end Polynomial

end Univariate

import Univariate.Polynomial.Lemmas
import Univariate.Proofs.AdditiveLeaves
import Univariate.Proofs.Doubles

/-!
# Negating polynomials

A minus is carried out in two ways. In front of a sum it is handed down to the terms, as a sign with
which they are collected; in front of a term it is part of the term and changes the coefficient.
Both change every sign once. A second minus in front of a negated sum is neither of the two: what
stands under it is no sum, and no term either, so such a tree is not supported, although the same
two minuses are if one of them is a difference.
-/
namespace Univariate

/-- A minus directly over a sum or a difference. -/
def Expr.isNegatedSum {α : Type} : Expr α → Bool
  | neg e => e.isSum
  | _ => false

/-- An additive node that is no sum is a minus over one. -/
theorem Expr.isAdditive_eq {α : Type} (e : Expr α) :
    e.isAdditive = (e.isSum || e.isNegatedSum) := by
  cases e with
  | num _ | var _ | neg _ | call _ _ => rfl
  | bin op l r => cases op <;> rfl

open Arith

variable {α : Type} [Arith α]

namespace Monomial

theorem ofTerm?_of_isSum {e : Expr α} (h : e.isSum = true) : ofTerm? e = none := by
  cases e with
  | num _ | var _ | neg _ | call _ _ => cases h
  | bin op l r => cases op <;> first | rfl | cases h

variable [Numeral α] [LawfulNumber α]

theorem negated_negated (m : Monomial α) : m.negated.negated = m := by
  rw [negated, negated, LawfulNumber.neg_neg]

/-- A minus in front of a term never makes it fail. -/
theorem ofTerm?_neg (e : Expr α) : ofTerm? (.neg e) = (ofTerm? e).map negated := by
  rw [ofTerm?]
  cases term : ofTerm? e with
  | none => rfl
  | some m =>
    have defined : isFinite m.negated.coefficient = true := by
      rw [negated, LawfulNumber.isFinite_neg]
      exact isFinite_of_ofTerm? term
    exact if_pos defined

end Monomial

namespace Polynomial

def negated (p : Polynomial α) : Polynomial α := { p with terms := p.terms.map Monomial.negated }

theorem negated_append (p q : Polynomial α) :
    (p.append q).negated = p.negated.append q.negated := by
  simp [negated, append]

variable [Numeral α] [LawfulNumber α] {e : Expr α}

theorem ofTerm_not (negate : Bool) (e : Expr α) :
    ofTerm (!negate) e = (ofTerm negate e).negated := by
  unfold ofTerm
  cases Monomial.ofTerm? e with
  | none => rfl
  | some m => cases negate <;> simp [negated, Monomial.negated_negated]

/-- With the other sign the same terms are collected, each negated. -/
theorem collect_not (negate : Bool) (e : Expr α) :
    collect (!negate) e = (collect negate e).negated := by
  induction e using Expr.additive_induction generalizing negate with
  | single e single =>
    rw [collect_of_not_isAdditive _ single, collect_of_not_isAdditive _ single, ofTerm_not]
  | minus e additive ih => rw [collect_neg _ additive, collect_neg _ additive, ih]
  | sum op l r additive left right =>
    cases op with
    | add => rw [collect, collect, negated_append, left, right]
    | sub => rw [collect, collect, negated_append, left, right]
    | mul | div | pow => cases additive

theorem ofExpr_neg_of_isSum (sum : e.isSum = true) : ofExpr (.neg e) = (ofExpr e).negated := by
  rw [ofExpr, collect_neg _ sum, collect_not, ofExpr]

theorem ofExpr_neg_of_isNegatedSum (minus : e.isNegatedSum = true) :
    ofExpr (.neg e) = ⟨[], [.neg e]⟩ := by
  obtain ⟨s, rfl, sum⟩ : ∃ s, e = .neg s ∧ s.isSum = true := by
    cases e <;> first | exact ⟨_, rfl, minus⟩ | cases minus
  have single : (Expr.neg s.neg).isAdditive = false := rfl
  rw [ofExpr, collect_of_not_isAdditive _ single, ofTerm, Monomial.ofTerm?_neg,
    Monomial.ofTerm?_neg, Monomial.ofTerm?_of_isSum sum]
  rfl

/-- The minus in front of a term that is one. -/
theorem ofExpr_neg_of_not_isAdditive (single : e.isAdditive = false)
    (supported : (ofExpr e).unsupported = []) : ofExpr (.neg e) = (ofExpr e).negated := by
  have term : ofExpr e = ofTerm false e := collect_of_not_isAdditive _ single
  have outer : (Expr.neg e).isAdditive = false := by
    rw [Expr.isAdditive_eq, Bool.or_eq_false_iff] at single
    exact single.1
  rw [term] at supported ⊢
  rw [ofExpr, collect_of_not_isAdditive _ outer]
  unfold ofTerm at *
  rw [Monomial.ofTerm?_neg]
  cases found : Monomial.ofTerm? e with
  | none => rw [found] at supported; cases supported
  | some m => rfl

/-- A minus in front of a supported tree negates its terms, except in front of a negated sum, which
it makes a single part that is no monomial. -/
theorem ofExpr_neg (e : Expr Float) (supported : (ofExpr e).unsupported = []) :
    ofExpr (.neg e) =
      if e.isNegatedSum then ⟨[], [.neg e]⟩
      else ⟨(ofExpr e).terms.map Monomial.negated, []⟩ := by
  have whole : (ofExpr e).negated = ⟨(ofExpr e).terms.map Monomial.negated, []⟩ := by
    rw [negated, supported]
  rw [← whole]
  split
  · rename_i minus
    exact ofExpr_neg_of_isNegatedSum minus
  · rename_i other
    cases sum : e.isSum with
    | true => exact ofExpr_neg_of_isSum sum
    | false =>
      refine ofExpr_neg_of_not_isAdditive ?_ supported
      rw [Expr.isAdditive_eq, sum, eq_false_of_ne_true other]
      rfl

/-- `x^2 - -(3*x - 1)` -/
def differenceOfNegated : Expr Float :=
  .bin .sub (.bin .pow (.var "x") (.num 2))
    (.neg (.bin .sub (.bin .mul (.num 3) (.var "x")) (.num 1)))

theorem ofExpr_neg_difference :
    (ofExpr differenceOfNegated).unsupported = [] ∧
      ofExpr (.neg differenceOfNegated) = ⟨[⟨-1, 2⟩, ⟨-3, 1⟩, ⟨1, 0⟩], []⟩ := by
  have supported : (ofExpr differenceOfNegated).unsupported = [] := by decide +kernel
  have terms : (ofExpr differenceOfNegated).terms = [⟨1, 2⟩, ⟨3, 1⟩, ⟨-1, 0⟩] := by decide +kernel
  refine ⟨supported, ?_⟩
  rw [ofExpr_neg differenceOfNegated supported, terms]
  decide +kernel

/-- `-(x + 1)` -/
def negatedSum : Expr Float := .neg (.bin .add (.var "x") (.num 1))

/-- One minus in front of `x + 1`, and two of which the first is a difference, are handed down to
the terms. Two minuses are not. -/
theorem ofExpr_neg_refused :
    (ofExpr negatedSum).unsupported = [] ∧
      ofExpr (.bin .sub (.num 0) negatedSum) = ⟨[⟨0, 0⟩, ⟨1, 1⟩, ⟨1, 0⟩], []⟩ ∧
      ofExpr (.neg negatedSum) = ⟨[], [.neg negatedSum]⟩ ∧
      Expr.parse "x" "--(x+1)" = .ok (.neg negatedSum) ∧
      ¬∀ e : Expr Float, (ofExpr e).unsupported = [] →
        ofExpr (.neg e) = ⟨(ofExpr e).terms.map Monomial.negated, []⟩ := by
  have supported : (ofExpr negatedSum).unsupported = [] := by decide +kernel
  refine ⟨supported, by decide +kernel, by decide +kernel, by decide +kernel, fun distributes => ?_⟩
  have refused : ofExpr (.neg negatedSum) ≠
      ⟨(ofExpr negatedSum).terms.map Monomial.negated, []⟩ := by decide +kernel
  exact refused (distributes negatedSum supported)

end Polynomial

end Univariate

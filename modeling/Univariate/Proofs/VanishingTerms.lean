import Univariate.Proofs.AdditiveLeaves
import Univariate.Proofs.Negation
import Univariate.Proofs.Redifferentiation
import Univariate.Proofs.ShortestDecimals

/-!
# Terms that vanish

A term that is made of numbers other than zero has a coefficient other than zero, unless one of the
operations that are folded into the coefficient underflows: the exact product or quotient is at most
half of the least positive double, or the power is rounded to zero. Without an underflow a term in
which the variable occurs keeps its power, the factor that the power rule puts before it does not
make it zero, and so its derivative is not reported as `0`.
-/
namespace Univariate

open Arith Double Text

/-- With these operands, which are not zero, the operation gives zero. -/
def Op.Underflows (op : Op) (x y : Float) : Prop :=
  match op with
  | .mul => absValue x * absValue y ≤ halfLeast
  | .div => absValue x / absValue y ≤ halfLeast
  | .pow => (Arith.pow x y == zero) = true
  | .add | .sub => False

/-- Some operation in a term gives zero though the coefficients of its operands are not zero. -/
def Expr.Underflows : Expr Float → Prop
  | .bin op l r => l.Underflows ∨ r.Underflows ∨
      ∃ a b, Monomial.ofTerm? l = some a ∧ Monomial.ofTerm? r = some b ∧
        a.isZero = false ∧ b.isZero = false ∧ op.Underflows a.coefficient b.coefficient
  | .neg e => e.Underflows
  | .num _ | .var _ | .call _ _ => False

theorem Expr.underflows_bin {op : Op} {l r : Expr Float} {a b : Monomial Float}
    (left : Monomial.ofTerm? l = some a) (right : Monomial.ofTerm? r = some b) :
    (bin op l r).Underflows ↔ l.Underflows ∨ r.Underflows ∨
      a.isZero = false ∧ b.isZero = false ∧ op.Underflows a.coefficient b.coefficient := by
  simp only [Underflows, left, right, Option.some.injEq, exists_and_left, exists_eq_left']

/-- A double is the natural number that it is read as. -/
theorem Double.ofNat_of_toNat? {x : Float} {n : ℕ} (h : Arith.toNat? x = some n)
    (nonzero : (x == zero) = false) : Arith.ofNat n = x := by
  change (if Float.ofNat x.toUInt32.toNat == x then some x.toUInt32.toNat else none) = some n at h
  split at h
  · rename_i equal
    cases h
    exact eq_of_beq equal nonzero
  · cases h

theorem Double.pos_of_toNat? {x : Float} {n : ℕ} (h : Arith.toNat? x = some n)
    (nonzero : (x == zero) = false) : 0 < n := by
  refine Nat.pos_of_ne_zero fun none => ?_
  subst n
  have same : ((Arith.ofNat 0 : Float) == zero) = true :=
    beq_self (isFinite_ofNat (by decide))
  rw [ofNat_of_toNat? h nonzero, nonzero] at same
  cases same

namespace Monomial

variable {e l r : Expr Float} {a b m : Monomial Float}

/-- One step: an operation that does not underflow gives no zero, and the power of what has the
variable stays positive. -/
theorem isZero_bin {op : Op} (left : ofTerm? l = some a) (right : ofTerm? r = some b)
    (nonzero : a.isZero = false) (nonzero' : b.isZero = false)
    (power : l.vars ≠ [] → 0 < a.power) (power' : r.vars ≠ [] → 0 < b.power)
    (kept : ¬op.Underflows a.coefficient b.coefficient) (term : ofTerm? (.bin op l r) = some m) :
    m.isZero = false ∧ (l.vars ++ r.vars ≠ [] → 0 < m.power) := by
  have finite := isFinite_of_ofTerm? left
  have finite' := isFinite_of_ofTerm? right
  have some_var (h : l.vars ++ r.vars ≠ []) : l.vars ≠ [] ∨ r.vars ≠ [] := by
    by_contra none
    obtain ⟨noLeft, noRight⟩ := not_or.mp none
    exact h (by rw [not_not.mp noLeft, not_not.mp noRight, List.append_nil])
  cases op with
  | add | sub => cases term
  | mul =>
    simp only [ofTerm?, left, right, Option.bind_eq_bind, Option.bind_some] at term
    obtain ⟨rfl, -⟩ := mul?_eq_some term
    refine ⟨?_, fun h => ?_⟩
    · exact eq_false_of_ne_true fun zero =>
        kept ((mul_isZero_iff finite nonzero finite' nonzero').mp zero)
    · exact (some_var h).elim (fun h => Nat.add_pos_left (power h) _)
        fun h => Nat.add_pos_right _ (power' h)
  | div =>
    simp only [ofTerm?, left, right, Option.bind_eq_bind, Option.bind_some] at term
    obtain ⟨constant, -, rfl, -⟩ := div?_eq_some term
    refine ⟨?_, fun h => ?_⟩
    · exact eq_false_of_ne_true fun zero =>
        kept ((div_isZero_iff finite nonzero finite' nonzero').mp zero)
    · exact (some_var h).elim power fun h => absurd constant (power' h).ne'
  | pow =>
    simp only [ofTerm?, left, right, Option.bind_eq_bind, Option.bind_some] at term
    obtain ⟨constant, -, ⟨base, rfl⟩ | ⟨n, natural, -, rfl⟩⟩ := pow?_eq_some term
    · refine ⟨eq_false_of_ne_true kept, fun h => ?_⟩
      exact (some_var h).elim (fun h => absurd base (power h).ne')
        fun h => absurd constant (power' h).ne'
    · have exponent := ofNat_of_toNat? natural nonzero'
      refine ⟨?_, fun h => ?_⟩
      · rw [exponent]
        exact eq_false_of_ne_true kept
      · have some_factor := pos_of_toNat? natural nonzero'
        exact (some_var h).elim (fun h => Nat.mul_pos (power h) some_factor)
          fun h => absurd constant (power' h).ne'

/-- Without an underflow no term becomes zero, and none in which the variable occurs becomes
constant. -/
theorem isZero_of_ofTerm? (literals : ∀ c ∈ e.literals, (c == zero) = false)
    (kept : ¬e.Underflows) (term : ofTerm? e = some m) :
    m.isZero = false ∧ (e.vars ≠ [] → 0 < m.power) := by
  induction e generalizing m with
  | num c =>
    obtain ⟨rfl, -⟩ := finite?_eq_some term
    exact ⟨literals c List.mem_cons_self, fun some_var => absurd rfl some_var⟩
  | var name =>
    obtain ⟨rfl, -⟩ := finite?_eq_some term
    exact ⟨Double.one_ne_zero, fun _ => Nat.one_pos⟩
  | neg e ih =>
    obtain ⟨a, inner, negated⟩ := Option.bind_eq_some_iff.mp term
    obtain ⟨rfl, -⟩ := finite?_eq_some negated
    obtain ⟨nonzero, power⟩ := ih literals kept inner
    exact ⟨(Double.isZero_neg _).trans nonzero, power⟩
  | bin op l r ihLeft ihRight =>
    obtain ⟨a, b, left, right⟩ : ∃ a b, ofTerm? l = some a ∧ ofTerm? r = some b := by
      cases op with
      | add | sub => cases term
      | mul | div | pow =>
        obtain ⟨a, b, left, right, -⟩ := exists_operands term
        exact ⟨a, b, left, right⟩
    rw [Expr.underflows_bin left right, not_or, not_or] at kept
    obtain ⟨keptLeft, keptRight, here⟩ := kept
    obtain ⟨nonzero, power⟩ :=
      ihLeft (fun c hc => literals c (List.mem_append_left _ hc)) keptLeft left
    obtain ⟨nonzero', power'⟩ :=
      ihRight (fun c hc => literals c (List.mem_append_right _ hc)) keptRight right
    refine isZero_bin left right nonzero nonzero' power power' (fun underflow => ?_) term
    exact here ⟨nonzero, nonzero', underflow⟩
  | call f e _ => cases term

/-! ## The reported derivative -/

/-- The power rule multiplies by a natural number, which makes nothing smaller. -/
theorem isZero_derivative_eq_false (finite : m.coefficient.isFinite = true)
    (nonzero : m.isZero = false) (power : 0 < m.power) (le : m.power ≤ maxNat) :
    m.derivative.isZero = false := by
  obtain ⟨c, n⟩ := m
  cases n with
  | zero => cases power
  | succ n =>
    have lt := lt_of_le_maxNat le
    have factor := ofNat_ne_zero (Nat.succ_pos n) lt
    refine eq_false_of_ne_true fun zero => ?_
    have small := (mul_isZero_iff finite nonzero (isFinite_ofNat lt) factor).mp zero
    have one_le : (1 : ℚ) ≤ (n + 1 : ℕ) := by exact_mod_cast Nat.succ_pos n
    have great := halfLeast_lt_absValue finite nonzero
    rw [absValue_ofNat (Nat.succ_pos n) lt] at small
    have := le_mul_of_one_le_right (halfLeast_pos.trans great).le one_le
    linarith

/-- Only a zero is written `0`: what has the variable has its letters. -/
theorem render_ne_zero {v : String} (name : IsVariable v) (finite : m.coefficient.isFinite = true)
    (nonzero : m.isZero = false) : m.render v ≠ "0" := by
  rw [render_eq]
  by_cases constant : m.power = 0
  · rw [if_pos constant]
    exact formatNumber_ne_zero finite nonzero
  · rw [if_neg constant]
    obtain ⟨c, cs, chars⟩ := List.exists_cons_of_ne_nil name.toList_ne_nil
    have own : c ∈ v.toList := by rw [chars]; exact List.mem_cons_self
    have power : c ∈ (powerText v m.power).toList := by
      unfold powerText
      split
      · exact own
      · simp [own]
    intro same
    have inside : c ∈ "0".toList := by
      rw [← same]
      split
      · exact power
      · split <;> simp [power]
    obtain rfl : c = '0' := by simpa using inside
    exact absurd (name.letters '0' own) (by decide)

end Monomial

namespace Polynomial

theorem eq_of_mergeSigns_eq_nil {cs : List Char} (h : mergeSigns cs = []) : cs = [] := by
  unfold mergeSigns at h
  split at h
  · cases h
  · cases h
  · rfl

theorem eq_of_mergeSigns_eq_zero {cs : List Char} (h : mergeSigns cs = ['0']) : cs = ['0'] := by
  unfold mergeSigns at h
  split at h
  · cases h
  · obtain ⟨rfl, rest⟩ := List.cons.inj h
    rw [eq_of_mergeSigns_eq_nil rest]
  · cases h

/-- A sum of one term other than zero is not written `0`. -/
theorem render_singleton_ne_zero {v : String} {m : Monomial Float} (name : IsVariable v)
    (finite : m.coefficient.isFinite = true) (nonzero : m.isZero = false)
    (power_le : m.power ≤ maxNat) : render v ⟨[m], []⟩ ≠ "0" := by
  have writable := Monomial.writable_of_isFinite finite nonzero power_le
  have some_char : (m.render v).toList ≠ [] := by
    rw [writable.render]
    exact List.append_ne_nil_of_right_ne_nil _ (writable.legible.text_ne_nil name)
  have shown : [m].filter (!·.isZero) = [m] := by simp [nonzero]
  have sum : (" + ".intercalate ([m].map (Monomial.render v))).toList = (m.render v).toList := by
    rw [List.map_singleton, toList_intercalate, List.flatMap_nil, List.append_nil]
  unfold render
  dsimp only
  rw [shown, sum]
  split
  · rename_i empty
    have chars := congrArg String.toList empty
    rw [String.toList_ofList] at chars
    exact absurd (eq_of_mergeSigns_eq_nil chars) some_char
  · intro zero
    have chars := congrArg String.toList zero
    rw [String.toList_ofList] at chars
    have same := eq_of_mergeSigns_eq_zero chars
    exact Monomial.render_ne_zero name finite nonzero (String.toList_inj.mp same)

/-- A single term is its own polynomial. -/
theorem ofExpr_of_ofTerm? {e : Expr Float} {m : Monomial Float} (term : Monomial.ofTerm? e = some m) :
    ofExpr e = ⟨[m], []⟩ := by
  have own : ofTerm false e = ⟨[m], []⟩ := by
    rw [ofTerm, term]
    rfl
  cases e with
  | num _ | var _ | call _ _ => exact own
  | neg e =>
    have single : e.isSum = false := by
      rw [← Bool.not_eq_true]
      intro sum
      rw [Monomial.ofTerm?, Monomial.ofTerm?_of_isSum sum] at term
      cases term
    rw [ofExpr, collect, single]
    exact own
  | bin op l r =>
    cases op with
    | add | sub => cases term
    | mul | div | pow => exact own

end Polynomial

namespace Expr

/-- A term of numbers other than zero has a coefficient other than zero if nothing in it underflows,
and a text of such a term in which the variable occurs has no derivative `0`. -/
theorem coefficient_ne_zero {e : Expr Float} {m : Monomial Float}
    (literals : ∀ c ∈ e.literals, c.isFinite = true ∧ (c == zero) = false)
    (term : Monomial.ofTerm? e = some m) (kept : ¬e.Underflows) :
    m.isZero = false ∧ ∀ v input, parse v input = .ok e → e.vars ≠ [] →
      differentiate Float v input ≠ .ok "0" := by
  obtain ⟨nonzero, power⟩ := Monomial.isZero_of_ofTerm? (fun c hc => (literals c hc).2) kept term
  refine ⟨nonzero, fun v input parsed some_var derived => ?_⟩
  obtain ⟨name, occurs⟩ := List.exists_mem_of_ne_nil _ some_var
  have isVariable := (isVariable_of_parse parsed occurs).2
  have own := Polynomial.ofExpr_of_ofTerm? term
  obtain ⟨e', parsed', finite, text⟩ := exists_of_differentiate derived
  obtain rfl : e = e' := Except.ok.inj (parsed.symm.trans parsed')
  have member : m ∈ (Polynomial.ofExpr e).terms := by rw [own]; exact List.mem_singleton_self m
  have le := WordTerm.power_le_of_mem_collect Double.bounded member
  have slope := Monomial.isZero_derivative_eq_false (Monomial.isFinite_of_ofTerm? term) nonzero
    (power some_var) le
  have derivative : (Polynomial.ofExpr e).derivative = ⟨[m.derivative], []⟩ := by
    rw [own]
    simp [Polynomial.derivative, slope]
  rw [derivative] at text
  refine Polynomial.render_singleton_ne_zero isVariable (finite m member) slope ?_ text.symm
  rw [Monomial.power_derivative]
  omega

/-- `3*x^2/4` -/
def quarterTerm : Expr Float :=
  .bin .div (.bin .mul (.num 3) (.bin .pow (.var "x") (.num 2))) (.num 4)

theorem quarterTerm_kept : ¬quarterTerm.Underflows := by
  have square : Monomial.ofTerm? (.bin .pow (.var "x") (.num 2) : Expr Float) = some ⟨1, 2⟩ := by
    decide +kernel
  have product : Monomial.ofTerm? (.bin .mul (.num 3) (.bin .pow (.var "x") (.num 2)) : Expr Float) =
      some ⟨3, 2⟩ := by
    decide +kernel
  have constant (c : Float) (h : c.isFinite = true) : Monomial.ofTerm? (.num c) = some ⟨c, 0⟩ :=
    if_pos h
  have var : Monomial.ofTerm? (.var "x" : Expr Float) = some ⟨1, 1⟩ := by decide +kernel
  rw [quarterTerm, underflows_bin product (constant 4 (by decide +kernel)),
    underflows_bin (constant 3 (by decide +kernel)) square,
    underflows_bin var (constant 2 (by decide +kernel))]
  simp only [Underflows, Op.Underflows, false_or, not_or]
  refine ⟨⟨?_, ?_⟩, ?_⟩
  · decide +kernel
  · rintro ⟨nonzero, nonzero', small⟩
    have zero := (mul_isZero_iff (by decide +kernel) nonzero (by decide +kernel) nonzero').mpr small
    exact absurd zero (by decide +kernel)
  · rintro ⟨nonzero, nonzero', small⟩
    have zero := (div_isZero_iff (by decide +kernel) nonzero (by decide +kernel) nonzero').mpr small
    exact absurd zero (by decide +kernel)

theorem coefficient_ne_zero_quarter :
    (⟨0.75, 2⟩ : Monomial Float).isZero = false ∧
      differentiate Float "x" "3x^2/4" ≠ .ok "0" ∧
      differentiate Float "x" "3x^2/4" = .ok "1.5*x" := by
  have literals : ∀ c ∈ quarterTerm.literals, c.isFinite = true ∧ (c == zero) = false := by
    have all : quarterTerm.literals = [3, 2, 4] := rfl
    rw [all]
    simp only [List.forall_mem_cons, List.not_mem_nil, false_implies, implies_true, and_true]
    decide +kernel
  have term : Monomial.ofTerm? quarterTerm = some ⟨0.75, 2⟩ := by decide +kernel
  have parsed : parse "x" "3x^2/4" = .ok quarterTerm := by decide +kernel
  obtain ⟨nonzero, slope⟩ := coefficient_ne_zero literals term quarterTerm_kept
  exact ⟨nonzero, slope "x" "3x^2/4" parsed (by decide), by decide +kernel⟩

/-- The square of `10 ^ -200` times the variable -/
def tinyTerm : Expr Float := .bin .mul (.bin .mul (.num 1e-200) (.num 1e-200)) (.var "x")

/-- The square underflows, so the term and its derivative are zero. -/
theorem coefficient_ne_zero_refused :
    Monomial.ofTerm? tinyTerm = some ⟨0, 1⟩ ∧
      (Polynomial.ofExpr tinyTerm).differentiate "x" = .ok "0" ∧
      ¬∀ (e : Expr Float) (m : Monomial Float),
        (∀ c ∈ e.literals, c.isFinite = true ∧ (c == zero) = false) →
        Monomial.ofTerm? e = some m → m.isZero = false := by
  have term : Monomial.ofTerm? tinyTerm = some ⟨0, 1⟩ := by decide +kernel
  refine ⟨term, by decide +kernel, fun never => ?_⟩
  have literals : ∀ c ∈ tinyTerm.literals, c.isFinite = true ∧ (c == zero) = false := by
    have all : tinyTerm.literals = [1e-200, 1e-200] := rfl
    rw [all]
    simp only [List.forall_mem_cons, List.not_mem_nil, false_implies, implies_true, and_true]
    decide +kernel
  exact absurd (never tinyTerm _ literals term) (by decide +kernel)

end Expr

end Univariate

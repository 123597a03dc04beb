import Univariate.Proofs.Redifferentiation
import Univariate.Proofs.WholeNumbers

/-!
# Printed polynomials are printed again

A polynomial is printed by joining the texts of its terms, and an expression by walking its tree.
The tree of a printed polynomial is printed as the same text, blanks included: its terms need no
parentheses, since an operand binds at least as tightly as its place asks for, and each of the two
printers puts the sign of a term where the other one does.
-/
namespace Univariate

open Lexer Text Arith

section

variable {α : Type} [Arith α] [Numeral α]

namespace Expr

omit [Arith α] [Numeral α] in
theorem enclose_of_le {min : Nat} {e : Expr α} (h : min ≤ e.binding) (text : String) :
    e.enclose min text = text :=
  if_neg (Nat.not_lt.mpr h)

omit [Arith α] [Numeral α] in
theorem one_le_binding (e : Expr α) : 1 ≤ e.binding := by
  cases e with
  | bin op l r => exact show 1 ≤ op.binding by cases op <;> decide
  | num _ | var _ | call _ _ => exact show 1 ≤ 4 by decide
  | neg _ => exact show 1 ≤ minusBinding by decide

end Expr

namespace Monomial

variable {v : String}

omit [Numeral α] in
theorem binding_powerTree (v : String) (n : Nat) : 3 ≤ (powerTree v n : Expr α).binding := by
  unfold powerTree
  split
  · exact show 3 ≤ 4 by decide
  · exact Nat.le_refl 3

omit [Arith α] [Numeral α] in
theorem binding_withSign (minus : Bool) {e : Expr α} (h : 2 ≤ e.binding) :
    2 ≤ (withSign minus e).binding := by
  cases minus with
  | true => exact Nat.le_refl 2
  | false => exact h

omit [Numeral α] in
/-- A term is an operand of a sum without parentheses. -/
theorem binding_tree (v : String) (minus : Bool) (m : Monomial α) :
    2 ≤ (m.tree v minus).binding := by
  unfold tree
  split
  · exact binding_withSign minus (show 2 ≤ 4 by decide)
  · split
    · exact binding_withSign minus (Nat.le_of_succ_le (binding_powerTree v m.power))
    · exact Nat.le_refl 2

/-- A minus is written before its operand, which is a number or a power. -/
theorem render_withSign (minus : Bool) {e : Expr α} (h : 3 ≤ e.binding) :
    (withSign minus e).render.toList = signChars minus ++ e.render.toList := by
  cases minus with
  | false => rfl
  | true =>
    have bare := Expr.enclose_of_le (show minusBinding + 1 ≤ e.binding from h) e.render
    simp [withSign, Expr.render, bare, signChars]

end Monomial

end

namespace Monomial

variable {m : Monomial Float}

theorem render_powerTree (v : String) {n : Nat} (le : n ≤ maxNat) :
    (powerTree v n : Expr Float).render = powerText v n := by
  unfold powerTree powerText
  split
  · rfl
  · rw [Expr.render, Expr.enclose_of_le (Nat.le_refl 4),
      Expr.enclose_of_le (show 3 ≤ 4 by decide), Expr.render, Expr.render,
      Double.formatNumber_ofNat (Double.lt_of_le_maxNat le)]
    rfl

theorem render_tree (h : m.Legible) (v : String) (minus : Bool) :
    (m.tree v minus).render.toList = signChars minus ++ (m.render v).toList := by
  have power := render_powerTree v h.power_le
  have number := render_withSign minus (e := .num m.coefficient) (show 3 ≤ 4 by decide)
  rw [h.render, tree]
  split
  · exact number
  · split
    · rw [render_withSign minus (binding_powerTree v m.power), power]
    · have left : Op.mul.leftMin ≤ (withSign minus (.num m.coefficient)).binding :=
        binding_withSign minus (show 2 ≤ 4 by decide)
      have right : Op.mul.rightMin ≤ (powerTree v m.power : Expr Float).binding :=
        binding_powerTree v m.power
      rw [Expr.render, Expr.enclose_of_le left, Expr.enclose_of_le right, power]
      simp only [String.toList_append, number, List.append_assoc]
      rfl

end Monomial

namespace Polynomial

variable {v : String}

theorem render_sumTree {e : Expr Float} {ms : List (Monomial Float)}
    (legible : ∀ m ∈ ms, m.unsigned.Legible) :
    (sumTree v e ms).render.toList = e.render.toList ++ tailText v ms := by
  induction ms generalizing e with
  | nil => simp [sumTree, tailText]
  | cons m ms ih =>
    have term := Monomial.render_tree (legible m List.mem_cons_self) v false
    have right := m.unsigned.binding_tree v false
    have sum : (Expr.bin m.sign e (m.unsigned.tree v false)).render.toList =
        e.render.toList ++ m.sign.spaced.toList ++ (m.unsigned.render v).toList := by
      have left := e.one_le_binding
      have places : m.sign.leftMin ≤ e.binding ∧
          m.sign.rightMin ≤ (m.unsigned.tree v false).binding := by
        unfold Monomial.sign
        split <;> exact ⟨left, right⟩
      rw [Expr.render, Expr.enclose_of_le places.1, Expr.enclose_of_le places.2,
        String.toList_append, String.toList_append, term]
      rfl
    have later := @ih (.bin m.sign e (m.unsigned.tree v false))
      fun k hk => legible k (List.mem_cons_of_mem m hk)
    rw [sum] at later
    simpa [sumTree, tailText] using later

/-- The two printers write a polynomial alike. -/
theorem render_tree {p : Polynomial Float}
    (name : p.terms.filter (!·.isZero) ≠ [] → IsVariable v)
    (writable : ∀ m ∈ p.terms.filter (!·.isZero), m.Writable) :
    (p.tree v).render = p.render v := by
  rw [tree]
  cases terms : p.terms.filter (!·.isZero) with
  | nil =>
    rw [render_of_nil terms]
    exact show formatNumber (zero : Float) = "0" by decide +kernel
  | cons m ms =>
    rw [terms] at name writable
    have first := writable m List.mem_cons_self
    apply String.toList_injective
    simp only
    rw [toList_render (name (List.cons_ne_nil m ms)) terms writable, first.render,
      render_sumTree fun k hk => (writable k (List.mem_cons_of_mem m hk)).legible,
      Monomial.render_tree first.legible]

end Polynomial

/-- The text is read as a tree that is printed as this text. -/
def PrintsBack (v text : String) : Prop :=
  ∃ e : Expr Float, Expr.parse v text = .ok e ∧ e.render = text

namespace Polynomial

theorem printsBack {v w : String} (same : lower w = v) {p : Polynomial Float}
    (name : p.terms.filter (!·.isZero) ≠ [] → IsVariable v)
    (printable : ∀ m ∈ p.terms.filter (!·.isZero), m.Printable)
    (short : (Piece.ofChars (clean (p.render v)).toList).length ≤ maxTokens) :
    PrintsBack w (p.render v) :=
  ⟨p.tree v, parse_eq_tree same name printable short,
    render_tree name fun m hm => (printable m hm).writable⟩

/-- The text of a derivative is printed back in the variable of the source. -/
theorem printsBack_derivative {v input d : String} {e : Expr Float}
    (parsed : Expr.parse v input = .ok e)
    (derived : Univariate.differentiate Float v input = .ok d)
    (reads : ∀ m ∈ (ofExpr e).derivative.terms, ReadsBack m.coefficient.abs)
    (short : (Piece.ofChars (clean d).toList).length ≤ maxTokens) : PrintsBack v d := by
  obtain ⟨e', parsed', finite, rfl⟩ := exists_of_differentiate derived
  obtain rfl : e = e' := Except.ok.inj (parsed.symm.trans parsed')
  have kept := filter_derivative_terms (ofExpr e)
  refine printsBack rfl ?_ ?_ short
  · rw [kept]
    intro some_term
    obtain ⟨m, hm⟩ := List.exists_mem_of_ne_nil _ some_term
    obtain ⟨-, -, -, occurs⟩ := mem_derivative finite hm
    obtain ⟨name, hname⟩ := List.exists_mem_of_ne_nil _ occurs
    exact (Expr.isVariable_of_parse parsed hname).2
  · rw [kept]
    intro m hm
    obtain ⟨defined, nonzero, power_le, -⟩ := mem_derivative finite hm
    exact ⟨defined, nonzero, power_le, reads m hm⟩

/-- The text of a polynomial is printed back, and so is the text of every derivative, if it is not
too long to be read. Coefficients have to be read back up to their sign. -/
theorem render_printsBack :
    (∀ (v : String) (p : Polynomial Float), IsVariable v →
      (∀ m ∈ p.terms, m.coefficient.isFinite = true) →
      (∀ m ∈ p.terms, m.power ≤ maxNat) →
      (∀ m ∈ p.terms, m.isZero = false → ReadsBack m.coefficient.abs) →
      (Piece.ofChars (clean (p.render v)).toList).length ≤ maxTokens →
      PrintsBack v (p.render v)) ∧
    ∀ (v input d : String) (e : Expr Float), Expr.parse v input = .ok e →
      Univariate.differentiate Float v input = .ok d →
      (∀ m ∈ (ofExpr e).derivative.terms, ReadsBack m.coefficient.abs) →
      (Piece.ofChars (clean d).toList).length ≤ maxTokens → PrintsBack v d := by
  constructor
  · intro v p name finite powers reads short
    refine printsBack name.lower_eq (fun _ => name) (fun m hm => ?_) short
    obtain ⟨hm, nonzero⟩ := List.mem_filter.mp hm
    have nonzero : m.isZero = false := by simpa using nonzero
    exact ⟨finite m hm, nonzero, powers m hm, reads m hm nonzero⟩
  · intro v input d e parsed derived reads short
    exact printsBack_derivative parsed derived reads short

/-- A polynomial with a leading minus, a term that is zero, a coefficient of one and a constant. -/
def mixed : Polynomial Float := ⟨[⟨-1, 2⟩, ⟨0, 5⟩, ⟨0.5, 1⟩, ⟨1, 12⟩, ⟨-2, 0⟩], []⟩

/-- The tree of `x ^ 3 + 2 * x`. -/
def cubic : Expr Float :=
  .bin .add (.bin .pow (.var "x") (.num (Numeral.ofDecimal ⟨3, 0⟩)))
    (.bin .mul (.num (Numeral.ofDecimal ⟨2, 0⟩)) (.var "x"))

theorem render_printsBack_mixed : mixed.render "x" = "-x^2 + 0.5*x + x^12 - 2" ∧
    PrintsBack "x" (mixed.render "x") ∧
    Univariate.differentiate Float "X" "X^3 + 2X" = .ok "3*x^2 + 2" ∧
    PrintsBack "X" "3*x^2 + 2" := by
  have text : mixed.render "x" = "-x^2 + 0.5*x + x^12 - 2" := by decide +kernel
  have finite : ∀ m ∈ mixed.terms, m.coefficient.isFinite = true := by decide +kernel
  have powers : ∀ m ∈ mixed.terms, m.power ≤ maxNat := by decide +kernel
  have whole {c : Float} (n : Nat) (lt : n < 2 ^ 53) (h : c.abs = Arith.ofNat n) :
      ReadsBack c.abs := h ▸ Double.readsBack_ofNat lt
  have reads : ∀ m ∈ mixed.terms, m.isZero = false → ReadsBack m.coefficient.abs := by
    intro m hm nonzero
    simp only [mixed, List.mem_cons, List.not_mem_nil, or_false] at hm
    rcases hm with rfl | rfl | rfl | rfl | rfl
    · exact whole 1 (by decide) (by decide +kernel)
    · exact absurd nonzero (by decide +kernel)
    · exact ⟨⟨⟨5, 1⟩, by decide +kernel⟩, by decide +kernel⟩
    · exact whole 1 (by decide) (by decide +kernel)
    · exact whole 2 (by decide) (by decide +kernel)
  have short : (Piece.ofChars (clean (mixed.render "x")).toList).length ≤ maxTokens := by
    rw [text]
    decide +kernel
  have parsed : Expr.parse "X" "X^3 + 2X" = .ok cubic := by rfl
  have derived : Univariate.differentiate Float "X" "X^3 + 2X" = .ok "3*x^2 + 2" := by
    decide +kernel
  have terms : (ofExpr cubic).derivative.terms = [⟨3, 2⟩, ⟨2, 0⟩] := by decide +kernel
  have reads' : ∀ m ∈ (ofExpr cubic).derivative.terms, ReadsBack m.coefficient.abs := by
    intro m hm
    simp only [terms, List.mem_cons, List.not_mem_nil, or_false] at hm
    rcases hm with rfl | rfl
    · exact whole 3 (by decide) (by decide +kernel)
    · exact whole 2 (by decide) (by decide +kernel)
  have short' : (Piece.ofChars (clean "3*x^2 + 2").toList).length ≤ maxTokens := by
    decide +kernel
  exact ⟨text, render_printsBack.1 "x" mixed isVariable_x finite powers reads short, derived,
    render_printsBack.2 "X" "X^3 + 2X" "3*x^2 + 2" cubic parsed derived reads' short'⟩

end Polynomial

end Univariate

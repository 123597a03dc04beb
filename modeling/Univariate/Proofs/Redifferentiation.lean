import Univariate.Polynomial.Lemmas
import Univariate.Proofs.PolynomialText
import Univariate.Proofs.Reprinting
import Univariate.Proofs.WordPowers

/-!
# Differentiating again

The text of a derivative is a sum of terms with finite coefficients in the variable of the source,
so it is refused at most for its length. A term of the derivative is written with at most half as
many pieces again as the source has tokens for its term: `x^3` becomes `3*x^2`. So the derivative of
a source with at most two thirds of the tokens that are allowed can always be differentiated again.
-/
namespace Univariate

open Lexer Text Arith

variable {α : Type}

/-! ## Texts without parentheses -/

/-- Without parentheses each token is a node of the tree. -/
theorem Sentence.length_eq_size {level : Level} {ts : List (Token α)} {e : Expr α} {n : Nat}
    (sentence : Sentence level ts e n) (flat : .opening ∉ ts) : ts.length = e.size := by
  induction sentence with
  | num _ | var _ => rfl
  | group _ _ | call _ _ _ => simp at flat
  | minus _ ih =>
    rw [List.length_cons, ih fun h => flat (List.mem_cons_of_mem _ h)]
    rfl
  | bin op _ _ left right =>
    have left := left fun h => flat (List.mem_append_left _ h)
    have right := right fun h => flat (List.mem_append_right _ (List.mem_cons_of_mem _ h))
    simp only [List.length_append, List.length_cons, Expr.size]
    omega
  | factor _ ih | term _ ih | expr _ ih => exact ih flat

section

variable [Numeral α] {v w : String}

theorem Lexer.eq_single_of_reads_opening {p : Piece}
    (reads : Lexer.Reads v p (.opening : Token α)) : p = .single '(' := by
  obtain ⟨c, cs, names, _, _, same⟩ | ⟨l, reads, same⟩ := tokens_cases (reads 0)
  · cases names with
    | nil => cases same
    | cons name names => cases name <;> cases same
  · cases reads with
    | opening => rfl
    | number _ | power | op _ | closing => cases same

theorem Lexer.Spells.opening_not_mem {cs : List Char} {ts : List (Token α)}
    (spells : Spells v cs ts) (flat : '(' ∉ cs) : .opening ∉ ts := by
  have chars : ∀ p ∈ Piece.ofChars cs, '(' ∉ p.chars := by
    intro p hp hc
    apply flat
    rw [← Piece.flatMap_chars_ofChars cs]
    exact List.mem_flatMap.mpr ⟨p, hp, hc⟩
  have reads := spells.reads
  generalize Piece.ofChars cs = ps at chars reads
  clear spells
  induction reads with
  | nil => nofun
  | @cons p t ps ts read _ ih =>
    have later := ih fun q hq => chars q (List.mem_cons_of_mem p hq)
    rw [List.mem_cons, not_or]
    refine ⟨?_, later⟩
    rintro rfl
    apply chars p List.mem_cons_self
    rw [eq_single_of_reads_opening read]
    exact List.mem_singleton_self _

namespace ReadsAs

variable {text : String} {e : Expr α} {n : Nat}

theorem length_ofChars (h : ReadsAs v .expr (squeeze text) e n) (flat : '(' ∉ text.toList) :
    (Piece.ofChars (clean text).toList).length = e.size := by
  obtain ⟨ts, k, spells, sentence, _⟩ := h
  have flat : '(' ∉ squeeze text := fun hc => flat (List.mem_of_mem_filter hc)
  rw [toList_clean spells.isSmall, spells.reads.length_eq]
  exact sentence.length_eq_size (spells.opening_not_mem flat)

theorem parse_tooLong (same : lower w = v) (h : ReadsAs v .expr (squeeze text) e n)
    (long : maxTokens < (Piece.ofChars (clean text).toList).length) :
    ∃ error found, Expr.parse (α := α) w text = .error error ∧
      error.problem = .unexpected found .tooLong := by
  obtain ⟨ts, k, spells, _, _⟩ := h
  rw [toList_clean spells.isSmall, spells.reads.length_eq] at long
  obtain ⟨error, found, rejected, why⟩ := tokenize_tooLong same spells long
  refine ⟨error, found, ?_, why⟩
  simp only [Expr.parse, rejected, bind, Except.bind]

end ReadsAs

end

section

variable [Arith α] [Numeral α]

/-! ## The size of printed sums -/

namespace Monomial

/-- How many pieces of text a term has at most, its sign included. -/
def pieces (m : Monomial α) : Nat := if m.power = 0 then 2 else if m.power = 1 then 4 else 6

omit [Arith α] [Numeral α] in
theorem size_withSign_le (minus : Bool) (e : Expr α) : (withSign minus e).size ≤ e.size + 1 := by
  cases minus with
  | true => exact Nat.le_refl _
  | false => exact Nat.le_succ _

omit [Numeral α] in
theorem size_treeWith_le (c : α) (v : String) (minus : Bool) (m : Monomial α) :
    (m.treeWith c v minus).size ≤ m.pieces ∧ (m.treeWith c v false).size + 1 ≤ m.pieces := by
  have number := size_withSign_le minus (.num c)
  have power := size_withSign_le minus (powerTree v m.power : Expr α)
  have plain (e : Expr α) : (withSign false e).size = e.size := rfl
  unfold treeWith pieces
  by_cases constant : m.power = 0
  · rw [if_pos constant, if_pos constant, if_pos constant]
    exact ⟨number, Nat.le_refl 2⟩
  · have tree : (powerTree v m.power : Expr α).size + 3 ≤ if m.power = 1 then 4 else 6 := by
      unfold powerTree
      split
      · exact Nat.le_refl 4
      · exact Nat.le_refl 6
    rw [if_neg constant, if_neg constant, if_neg constant]
    split
    · rw [plain]
      omega
    · simp only [Expr.size, plain] at number ⊢
      omega

end Monomial

namespace Polynomial

omit [Numeral α] in
theorem size_sum {tree : Monomial α → Expr α} (ms : List (Monomial α)) (e : Expr α) :
    (ms.foldl (fun e m => .bin m.sign e (tree m)) e).size =
      e.size + (ms.map fun m => (tree m).size + 1).sum := by
  induction ms generalizing e with
  | nil => simp
  | cons m ms ih =>
    rw [List.foldl_cons, ih, List.map_cons, List.sum_cons, Expr.size]
    omega

/-- The tree that the text of a sum is read as, whatever its coefficients are read as. -/
def rereadSum (v : String) (m : Monomial α) (ms : List (Monomial α)) : Expr α :=
  ms.foldl (fun e k => .bin k.sign e (k.unsigned.treeWith (reread k.unsigned.coefficient) v false))
    (m.unsigned.treeWith (reread m.unsigned.coefficient) v m.isNegative)

theorem size_rereadSum_le (v : String) (m : Monomial α) (ms : List (Monomial α)) :
    (rereadSum v m ms).size ≤ ((m :: ms).map Monomial.pieces).sum := by
  have small (k : Monomial α) (minus : Bool) :=
    k.unsigned.size_treeWith_le (reread k.unsigned.coefficient) v minus
  rw [rereadSum, size_sum, List.map_cons, List.sum_cons]
  apply Nat.add_le_add (small m _).1
  apply List.sum_le_sum
  intro k _
  exact (small k false).2

theorem readsAs_rereadSum [LawfulNumber α] {v : String} (name : IsVariable v) {p : Polynomial α}
    {m : Monomial α} {ms : List (Monomial α)} (terms : p.terms.filter (!·.isZero) = m :: ms)
    (writable : ∀ k ∈ m :: ms, k.Writable) :
    ReadsAs v .expr (squeeze (p.render v)) (rereadSum v m ms) 3 := by
  have read (k : Monomial α) (hk : k ∈ m :: ms) (minus : Bool) :=
    Monomial.readsAs_treeWith (writable k hk).legible name minus
  have head : ReadsAs v .expr _ _ 3 :=
    ((read m List.mem_cons_self m.isNegative).lift (by decide)).mono (by decide)
  rw [squeeze_render name terms writable]
  exact readsAs_sum (fun k hk => read k (List.mem_cons_of_mem m hk) false) head

end Polynomial

/-! ## The terms of the derivative -/

namespace Monomial

omit [Numeral α]

variable {a b m : Monomial α} {e : Expr α}

theorem power_of_mul? (h : mul? a b = some m) : m.power = a.power + b.power := by
  rw [← (mul?_eq_some h).1]

theorem power_of_div? (h : div? a b = some m) : m.power = a.power := by
  obtain ⟨_, _, same, _⟩ := div?_eq_some h
  rw [← same]

theorem power_of_pow? (h : pow? a b = some m) (base : a.power = 0) : m.power = 0 := by
  obtain ⟨_, _, ⟨_, same⟩ | ⟨n, _, _, same⟩⟩ := pow?_eq_some h
  · rw [← same]
    rfl
  · rw [← same, base, Nat.zero_mul]

/-- A positive power comes from the variable, and one above the first is written with an operator
that has two operands. -/
structure Spans (e : Expr α) (n : Nat) : Prop where
  vars : 0 < n → e.vars ≠ []
  size : 2 ≤ n → 3 ≤ e.size

omit [Arith α] in
theorem Spans.bin (op : Op) {l r : Expr α} {n : Nat}
    (vars : 0 < n → l.vars ≠ [] ∨ r.vars ≠ []) : Spans (.bin op l r) n := by
  constructor
  · intro positive none
    obtain ⟨left, right⟩ := List.append_eq_nil_iff.mp none
    exact (vars positive).elim (absurd left) (absurd right)
  · intro _
    have := l.one_le_size
    have := r.one_le_size
    simp only [Expr.size]
    omega

theorem spans_of_ofTerm? (term : ofTerm? e = some m) : Spans e m.power := by
  induction e generalizing m with
  | num v =>
    rw [← (finite?_eq_some term).1]
    exact ⟨nofun, nofun⟩
  | var name =>
    rw [← (finite?_eq_some term).1]
    exact ⟨nofun, fun two => absurd two (Nat.lt_irrefl 1)⟩
  | neg e ih =>
    obtain ⟨a, inner, negated⟩ := Option.bind_eq_some_iff.mp term
    obtain ⟨vars, size⟩ := ih inner
    rw [← (finite?_eq_some negated).1]
    exact ⟨vars, fun two => Nat.le_succ_of_le (size two)⟩
  | bin op l r left right =>
    have operands {f : Monomial α → Monomial α → Option (Monomial α)}
        (h : (do f (← ofTerm? l) (← ofTerm? r)) = some m) :
        ∃ a b, f a b = some m ∧ Spans l a.power ∧ Spans r b.power := by
      obtain ⟨a, b, termLeft, termRight, h⟩ := exists_operands h
      exact ⟨a, b, h, left termLeft, right termRight⟩
    apply Spans.bin
    intro positive
    cases op with
    | add | sub => cases term
    | mul =>
      obtain ⟨a, b, product, spansLeft, spansRight⟩ := operands term
      rw [power_of_mul? product] at positive
      rcases Nat.eq_zero_or_pos a.power with zero | base
      · exact .inr (spansRight.vars (by omega))
      · exact .inl (spansLeft.vars base)
    | div =>
      obtain ⟨a, b, quotient, spansLeft, _⟩ := operands term
      rw [power_of_div? quotient] at positive
      exact .inl (spansLeft.vars positive)
    | pow =>
      obtain ⟨a, b, power, spansLeft, _⟩ := operands term
      have base : a.power ≠ 0 := fun zero => Nat.ne_of_gt positive (power_of_pow? power zero)
      exact .inl (spansLeft.vars (Nat.pos_of_ne_zero base))
  | call f e _ => cases term

variable [Numeral α] [LawfulNumber α]

omit [Numeral α] [LawfulNumber α] in
theorem power_derivative (m : Monomial α) : m.derivative.power = m.power - 1 := by
  unfold derivative
  split
  · rename_i zero
    rw [zero]
    rfl
  · rename_i n power
    rw [power]
    rfl

/-- The derivative of a constant is zero. -/
theorem power_pos_of_derivative (nonzero : m.derivative.isZero = false) : 0 < m.power := by
  apply Nat.pos_of_ne_zero
  intro constant
  have finite : isFinite (zero : α) = true := LawfulNumber.isFinite_ofNat (Nat.zero_le _)
  have derivative : m.derivative = Monomial.constant zero := by
    rw [Monomial.derivative, constant]
  have vanishes : (Monomial.constant (zero : α)).isZero = true := LawfulNumber.beq_self finite
  rw [derivative, vanishes] at nonzero
  cases nonzero

/-- A term of the derivative has at most half as many pieces again as the term that it comes from,
the signs included. -/
theorem pieces_derivative_le (spans : Spans e m.power) (nonzero : m.derivative.isZero = false) :
    2 * m.derivative.pieces ≤ 3 * (e.size + 1) := by
  have positive := power_pos_of_derivative nonzero
  have some_node := e.one_le_size
  unfold pieces
  rw [power_derivative]
  by_cases first : m.power = 1
  · rw [if_pos (by omega)]
    omega
  · have size := spans.size (by omega)
    rw [if_neg (by omega)]
    split <;> omega

end Monomial

namespace Polynomial

omit [Numeral α]

variable {negate : Bool} {e : Expr α}

theorem derivative_append (p q : Polynomial α) :
    (p.append q).derivative.terms = p.derivative.terms ++ q.derivative.terms := by
  simp [derivative, append]

/-- Where a positive power is collected the variable occurs. -/
theorem vars_ne_nil_of_mem_collect {m : Monomial α} (h : m ∈ (collect negate e).terms)
    (positive : 0 < m.power) : e.vars ≠ [] := by
  have leaf {negate : Bool} {t : Expr α} (h : m ∈ (ofTerm negate t).terms) : t.vars ≠ [] := by
    rw [ofTerm] at h
    cases term : Monomial.ofTerm? t with
    | none =>
      rw [term] at h
      cases h
    | some k =>
      rw [term] at h
      obtain rfl := List.mem_singleton.mp h
      apply (Monomial.spans_of_ofTerm? term).vars
      split at positive <;> exact positive
  fun_induction collect negate e with
  | case1 negate l r left right | case2 negate l r left right =>
    intro none
    obtain ⟨noLeft, noRight⟩ := List.append_eq_nil_iff.mp none
    rcases List.mem_append.mp h with h | h
    · exact left h noLeft
    · exact right h noRight
  | case3 negate e sum ih => exact ih h
  | case4 negate e single => exact leaf h
  | case5 negate e noAdd noSub noNeg => exact leaf h

variable [Numeral α] [LawfulNumber α]

theorem pieces_ofTerm_le (negate : Bool) (t : Expr α) :
    2 * ((ofTerm negate t).derivative.terms.map Monomial.pieces).sum ≤ 3 * (t.size + 1) := by
  rw [ofTerm]
  cases term : Monomial.ofTerm? t with
  | none => exact Nat.zero_le _
  | some k =>
    have spans := Monomial.spans_of_ofTerm? term
    have signed : Monomial.Spans t (if negate then k.negated else k).power := by
      split <;> exact spans
    dsimp only [derivative, List.map_cons, List.map_nil]
    cases nonzero : (if negate then k.negated else k).derivative.isZero with
    | true => simp [nonzero]
    | false =>
      simp only [nonzero, Bool.not_false, List.filter_cons_of_pos, List.filter_nil, List.map_cons,
        List.map_nil, List.sum_cons, List.sum_nil, Nat.add_zero]
      exact Monomial.pieces_derivative_le signed nonzero

/-- The derivative has at most half as many pieces again as the expression has nodes. -/
theorem pieces_derivative_collect_le (negate : Bool) (e : Expr α) :
    2 * ((collect negate e).derivative.terms.map Monomial.pieces).sum ≤ 3 * (e.size + 1) := by
  fun_induction collect negate e with
  | case1 negate l r left right | case2 negate l r left right =>
    rw [derivative_append, List.map_append, List.sum_append]
    simp only [Expr.size]
    omega
  | case3 negate e sum ih =>
    simp only [Expr.size]
    omega
  | case4 negate e single => exact pieces_ofTerm_le negate _
  | case5 negate e noAdd noSub noNeg => exact pieces_ofTerm_le negate _

end Polynomial

end

/-! ## Derivatives of doubles -/

theorem Double.isFinite_abs (x : Float) : x.abs.isFinite = x.isFinite := by
  change (view x.abs).isFinite = (view x).isFinite
  rw [view_abs]
  cases view x <;> rfl

/-- Doubles answer with words. -/
theorem Double.bounded : WordTerm.Bounded Float := by
  intro x n h
  change (if _ then some x.toUInt32.toNat else none) = some n at h
  split at h
  · cases h
    exact Nat.lt_succ_iff.mp x.toUInt32.toNat_lt
  · cases h

theorem Monomial.writable_of_isFinite {m : Monomial Float} (finite : m.coefficient.isFinite = true)
    (nonzero : m.isZero = false) (power_le : m.power ≤ maxNat) : m.Writable := by
  refine ⟨finite, nonzero, power_le, Double.ofChars?_formatNumber ?_ ?_⟩
  · rw [← finite]
    exact Double.isFinite_abs m.coefficient
  · change Double.Unsigned (Double.view m.coefficient.abs)
    rw [Double.view_abs]
    exact Double.unsigned_abs _

/-- Only the form of its terms can keep a polynomial from having a derivative. -/
theorem Polynomial.differentiate_cases [Arith α] [Numeral α] (v : String) (p : Polynomial α) :
    (∃ term, p.differentiate v = .error (.unsupportedForm term)) ∨
      (∀ m ∈ p.terms, isFinite m.derivative.coefficient = true) ∧
        p.differentiate v = .ok (p.derivative.render v) := by
  unfold differentiate
  split
  · exact .inl ⟨_, rfl⟩
  · split
    · exact .inl ⟨_, rfl⟩
    · rename_i finite
      refine .inr ⟨fun m hm => ?_, rfl⟩
      simpa using List.find?_eq_none.mp finite m hm

/-- What a text needs in order to have a derivative, and what the derivative is. -/
theorem exists_of_differentiate [Arith α] [Numeral α] {v input d : String}
    (derived : differentiate α v input = .ok d) : ∃ e : Expr α, Expr.parse v input = .ok e ∧
      (∀ m ∈ (Polynomial.ofExpr e).terms, isFinite m.derivative.coefficient = true) ∧
      d = (Polynomial.ofExpr e).derivative.render (lower v) := by
  unfold differentiate at derived
  split at derived
  · cases derived
  · split at derived
    · cases derived
    · rename_i e parsed
      obtain ⟨term, failed⟩ | ⟨finite, done⟩ :=
        (Polynomial.ofExpr e).differentiate_cases (lower v)
      · rw [failed] at derived
        cases derived
      · rw [done] at derived
        cases derived
        exact ⟨e, parsed, finite, rfl⟩

/-- A text without an equals sign is not taken for an implicit equation. -/
theorem differentiate_ne_implicit [Arith α] [Numeral α] {v d : String} (formula : '=' ∉ d.toList) :
    differentiate α v d ≠ .error .implicitNotSupported := by
  rw [differentiate, if_neg formula]
  split
  · simp
  · rename_i e _
    obtain ⟨term, failed⟩ | ⟨_, done⟩ := (Polynomial.ofExpr e).differentiate_cases (lower v)
    · simp [failed]
    · simp [done]

/-- A text that is read fails for its form only. -/
theorem differentiate_ne_parse [Arith α] [Numeral α] {v d : String} {e : Expr α}
    (parsed : Expr.parse v d = .ok e) (cause : ParseError) :
    differentiate α v d ≠ .error (.parse cause) := by
  rw [differentiate, parsed]
  split
  · simp
  · obtain ⟨term, failed⟩ | ⟨_, done⟩ := (Polynomial.ofExpr e).differentiate_cases (lower v)
    · simp [failed]
    · simp [done]

/-- A term of a derivative is not zero, and it comes from a term in which the variable occurs. -/
theorem mem_derivative {e : Expr Float} {m : Monomial Float}
    (finite : ∀ m ∈ (Polynomial.ofExpr e).terms, m.derivative.coefficient.isFinite = true)
    (h : m ∈ (Polynomial.ofExpr e).derivative.terms) : m.coefficient.isFinite = true ∧
      m.isZero = false ∧ m.power ≤ maxNat ∧ e.vars ≠ [] := by
  obtain ⟨h, nonzero⟩ := List.mem_filter.mp h
  obtain ⟨k, hk, rfl⟩ := List.mem_map.mp h
  have nonzero : k.derivative.isZero = false := by simpa using nonzero
  have le := WordTerm.power_le_of_mem_collect Double.bounded hk
  refine ⟨finite k hk, nonzero, ?_,
    Polynomial.vars_ne_nil_of_mem_collect hk (Monomial.power_pos_of_derivative nonzero)⟩
  rw [Monomial.power_derivative]
  omega

theorem filter_derivative_terms {α : Type} [Arith α] (p : Polynomial α) :
    p.derivative.terms.filter (!·.isZero) = p.derivative.terms := by
  rw [Polynomial.derivative, List.filter_filter]
  simp

/-- The text of a derivative is a sum in the variable of the source, without an equals sign or
parentheses, and has at most half as many nodes again as the source. -/
theorem readsAs_derivative {v input : String} {e : Expr Float} (parsed : Expr.parse v input = .ok e)
    (finite : ∀ m ∈ (Polynomial.ofExpr e).terms, m.derivative.coefficient.isFinite = true) :
    ∃ t : Expr Float,
      ReadsAs (lower v) .expr (squeeze ((Polynomial.ofExpr e).derivative.render (lower v))) t 3 ∧
      2 * t.size ≤ 3 * (e.size + 1) ∧
      ∀ c, c = '=' ∨ c = '(' → c ∉ ((Polynomial.ofExpr e).derivative.render (lower v)).toList := by
  have few := Polynomial.pieces_derivative_collect_le false e
  have kept := filter_derivative_terms (Polynomial.ofExpr e)
  cases terms : (Polynomial.ofExpr e).derivative.terms with
  | nil =>
    rw [Polynomial.render_of_nil (kept.trans terms)]
    have some_node := e.one_le_size
    have written : Decimal.ofChars? (squeeze "0") = some ⟨0, 0⟩ := by decide
    refine ⟨_, ((ReadsAs.number written).lift (by decide)).mono (by decide), ?_, ?_⟩
    · simp only [Expr.size]
      omega
    · rintro c (rfl | rfl) <;> decide
  | cons m ms =>
    have writable : ∀ k ∈ m :: ms, k.Writable := fun k hk => by
      obtain ⟨defined, nonzero, power_le, -⟩ := mem_derivative finite (terms ▸ hk)
      exact Monomial.writable_of_isFinite defined nonzero power_le
    obtain ⟨-, -, -, occurs⟩ := mem_derivative finite (terms ▸ List.mem_cons_self : m ∈ _)
    obtain ⟨name, hname⟩ := List.exists_mem_of_ne_nil _ occurs
    have own := (Expr.isVariable_of_parse parsed hname).2
    have listed := kept.trans terms
    have small := Polynomial.size_rereadSum_le (lower v) m ms
    refine ⟨_, Polynomial.readsAs_rereadSum own listed writable, ?_, ?_⟩
    · rw [← terms] at small
      exact Nat.le_trans (Nat.mul_le_mul_left 2 small) few
    · intro c char
      exact Polynomial.not_mem_render own (by rwa [listed]) char

/-- A derivative is a sentence in the variable of the source. It can be differentiated again unless
its text is beyond the limit on tokens, and then that is the error. The text has at most half as
many pieces again as the source has tokens, its implied products included. -/
theorem differentiate_again {v input d : String} (derived : differentiate Float v input = .ok d) :
    (∃ t : Expr Float, ReadsAs (lower v) .expr (squeeze d) t 3) ∧
    differentiate Float v d ≠ .error .implicitNotSupported ∧
    ((Piece.ofChars (clean d).toList).length ≤ maxTokens →
      (∃ e : Expr Float, Expr.parse v d = .ok e) ∧
        ∀ cause, differentiate Float v d ≠ .error (.parse cause)) ∧
    (maxTokens < (Piece.ofChars (clean d).toList).length → ∃ cause found,
      differentiate Float v d = .error (.parse cause) ∧
        cause.problem = .unexpected found .tooLong) ∧
    ∃ ts : List (Token Float), tokenize v input = .ok ts ∧
      2 * (Piece.ofChars (clean d).toList).length ≤ 3 * (ts.length + 1) := by
  obtain ⟨e, parsed, finite, rfl⟩ := exists_of_differentiate derived
  obtain ⟨t, reads, small, absent⟩ := readsAs_derivative parsed finite
  obtain ⟨ts, read, nodes⟩ := Expr.exists_tokens_of_parse parsed
  have formula := absent '=' (.inl rfl)
  refine ⟨⟨t, reads⟩, differentiate_ne_implicit formula, fun short => ?_, fun long => ?_, ts, read,
    ?_⟩
  · have again := reads.parse rfl (by decide) short
    exact ⟨⟨t, again⟩, differentiate_ne_parse again⟩
  · obtain ⟨cause, found, rejected, why⟩ := reads.parse_tooLong rfl long
    exact ⟨cause, found, by rw [differentiate, if_neg formula, rejected], why⟩
  · rw [reads.length_ofChars (absent '(' (.inr rfl))]
    omega

theorem differentiate_again_cubic : differentiate Float "X" "X^3 + 2X" = .ok "3*x^2 + 2" ∧
    (∃ e : Expr Float, Expr.parse "X" "3*x^2 + 2" = .ok e) ∧
      ∀ cause, differentiate Float "X" "3*x^2 + 2" ≠ .error (.parse cause) := by
  have derived : differentiate Float "X" "X^3 + 2X" = .ok "3*x^2 + 2" := by decide +kernel
  have short : (Piece.ofChars (clean "3*x^2 + 2").toList).length ≤ maxTokens := by
    decide +kernel
  obtain ⟨_, _, again, _⟩ := differentiate_again derived
  exact ⟨derived, again short⟩

/-! ## A derivative beyond the limit -/

/-- A sum of `n + 1` equal terms. -/
def repeated (m : Monomial Float) (n : Nat) : Polynomial Float := ⟨List.replicate (n + 1) m, []⟩

section

variable {m : Monomial Float}

theorem terms_repeated (nonzero : m.isZero = false) (n : Nat) :
    (repeated m n).terms.filter (!·.isZero) = m :: List.replicate n m := by
  rw [← List.replicate_succ, List.filter_eq_self.mpr]
  · rfl
  · intro k hk
    simp [List.eq_of_mem_replicate hk, nonzero]

theorem derivative_repeated (nonzero : m.derivative.isZero = false) (n : Nat) :
    (repeated m n).derivative = repeated m.derivative n := by
  have terms := terms_repeated nonzero n
  rw [← List.replicate_succ] at terms
  rw [Polynomial.derivative, repeated, List.map_replicate]
  exact congrArg (Polynomial.mk · []) terms

theorem writable_repeated (writable : m.Writable) (n : Nat) :
    ∀ k ∈ (repeated m n).terms.filter (!·.isZero), k.Writable := by
  intro k hk
  rwa [List.eq_of_mem_replicate (List.mem_of_mem_filter hk)]

theorem readsAs_repeated (writable : m.Writable) (n : Nat) :
    ReadsAs "x" .expr (squeeze ((repeated m n).render "x"))
      (Polynomial.rereadSum "x" m (List.replicate n m)) 3 := by
  have terms := terms_repeated writable.nonzero n
  have all := writable_repeated writable n
  rw [terms] at all
  exact Polynomial.readsAs_rereadSum isVariable_x terms all

theorem length_ofChars_repeated (writable : m.Writable) (positive : m.isNegative = false)
    (size n : Nat)
    (term : (m.unsigned.treeWith (reread m.unsigned.coefficient) "x" false).size = size) :
    (Piece.ofChars (clean ((repeated m n).render "x")).toList).length = size + n * (size + 1) := by
  have flat := Polynomial.not_mem_render isVariable_x (writable_repeated writable n) (.inr rfl)
  rw [(readsAs_repeated writable n).length_ofChars flat, Polynomial.rereadSum,
    Polynomial.size_sum, positive, term]
  simp [term]

end

/-- The text `x^3 + x^3 + ⋯` of 342 terms has 1367 tokens. Its derivative `3*x^2 + 3*x^2 + ⋯` has
2051, which is more than the limit. -/
theorem differentiate_again_refused : ∃ d,
    differentiate Float "x" ((repeated ⟨1, 3⟩ 341).render "x") = .ok d ∧
      ∃ cause found, differentiate Float "x" d = .error (.parse cause) ∧
        cause.problem = .unexpected found .tooLong := by
  have cube : (⟨1, 3⟩ : Monomial Float).Printable := by
    refine ⟨by decide +kernel, by decide +kernel, by decide, ⟨⟨1, 0⟩, ?_⟩, ?_⟩ <;> decide +kernel
  have square : (⟨1, 3⟩ : Monomial Float).derivative.Writable := by
    apply Monomial.writable_of_isFinite
    · decide +kernel
    · decide +kernel
    · decide
  have same {k : Monomial Float} (hk : k ∈ (repeated ⟨1, 3⟩ 341).terms) : k = ⟨1, 3⟩ :=
    List.eq_of_mem_replicate hk
  have short : (Piece.ofChars (clean ((repeated ⟨1, 3⟩ 341).render "x")).toList).length ≤
      maxTokens := by
    rw [length_ofChars_repeated cube.writable (by decide +kernel) 3 341 (by decide +kernel)]
    decide
  have derived : differentiate Float "x" ((repeated ⟨1, 3⟩ 341).render "x") =
      .ok ((repeated ⟨1, 3⟩ 341).derivative.render "x") := by
    apply Polynomial.differentiate_render isVariable_x
    · intro k hk
      exact same hk ▸ cube.power_le
    · intro k hk
      exact same (List.mem_of_mem_filter hk) ▸ cube
    · exact short
    · intro k hk
      exact same hk ▸ square.finite
  rw [derivative_repeated square.nonzero] at derived
  have formula := Polynomial.not_mem_render isVariable_x (writable_repeated square 341) (.inl rfl)
  have long : maxTokens < (Piece.ofChars
      (clean ((repeated (Monomial.derivative ⟨1, 3⟩) 341).render "x")).toList).length := by
    rw [length_ofChars_repeated square (by decide +kernel) 5 341 (by decide +kernel)]
    decide
  obtain ⟨cause, found, rejected, why⟩ :=
    (readsAs_repeated square 341).parse_tooLong isVariable_x.lower_eq long
  refine ⟨_, derived, cause, found, ?_, why⟩
  rw [differentiate, if_neg formula, rejected]

end Univariate

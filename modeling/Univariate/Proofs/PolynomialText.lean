import Univariate.Polynomial.Derivative
import Univariate.Proofs.PrintedTerms

/-!
# Printed polynomials are read back

The text of a polynomial is read as a sum that groups to the left, in which a negative term after
the first is subtracted and a first negative term starts with a minus. Taken apart, that sum has
the terms that were printed, with their coefficients and powers. So the text of a polynomial is
differentiated to the text of its derivative.
-/
namespace Univariate

open Lexer Text Arith

section

variable {α : Type} [Arith α] [Numeral α]

/-- The characters of terms without signs. -/
def IsTermChar (c : Char) : Prop :=
  Piece.isNumeric c = true ∨ isAlphabetic c = true ∨ c = '*' ∨ c = '^'

namespace IsTermChar

variable {c : Char}

theorem isBlank (h : IsTermChar c) : isBlank c = false := by
  rcases h with numeric | letter | rfl | rfl
  · exact Piece.isBlank_of_isNumeric numeric
  · exact isBlank_eq_false_of_isAlphabetic letter
  · decide
  · decide

theorem ne_of_lt {d : Char} (h : IsTermChar c) (low : d.toNat < 65)
    (noNumber : Piece.isNumeric d = false) (noStar : d ≠ '*') : c ≠ d := by
  rintro rfl
  rcases h with numeric | letter | rfl | rfl
  · rw [noNumber] at numeric
    cases numeric
  · rw [isAlphabetic_eq_false_of_lt low] at letter
    cases letter
  · exact noStar rfl
  · exact absurd low (by decide)

end IsTermChar

theorem Monomial.isTermChar_powerText {v : String} (name : IsVariable v) (n : Nat) :
    ∀ c ∈ (powerText v n).toList, IsTermChar c := by
  have letters : ∀ c ∈ v.toList, IsTermChar c := fun c hc => .inr (.inl (name.letters c hc))
  intro c hc
  unfold powerText at hc
  split at hc
  · exact letters c hc
  · simp only [String.toList_append, List.mem_append] at hc
    rcases hc with (hc | hc) | hc
    · exact letters c hc
    · exact .inr (.inr (.inr (List.mem_singleton.mp hc)))
    · exact .inl ((Decimal.isNumeric_of_ofChars? (Decimal.ofChars?_repr n)).2 c hc)

variable [LawfulNumber α] {v : String}

theorem Monomial.Legible.isTermChar {m : Monomial α} (h : m.Legible) (name : IsVariable v) :
    ∀ c ∈ (m.render v).toList, IsTermChar c := by
  obtain ⟨d, written⟩ := h.written
  have digits : ∀ c ∈ (formatNumber m.coefficient).toList, IsTermChar c :=
    fun c hc => .inl ((Decimal.isNumeric_of_ofChars? written).2 c hc)
  intro c hc
  rw [h.render] at hc
  split at hc
  · exact digits c hc
  · split at hc
    · exact isTermChar_powerText name _ c hc
    · simp only [String.toList_append, List.mem_append] at hc
      rcases hc with (hc | hc) | hc
      · exact digits c hc
      · exact .inr (.inr (.inl (List.mem_singleton.mp hc)))
      · exact isTermChar_powerText name _ c hc

theorem Monomial.Legible.text_ne_nil {m : Monomial α} (h : m.Legible) (name : IsVariable v) :
    (m.render v).toList ≠ [] :=
  (readsAs_treeWith h name false).ne_nil

namespace Polynomial

theorem mergeSigns_append {xs : List Char} (plain : '+' ∉ xs) (ys : List Char) :
    mergeSigns (xs ++ ys) = xs ++ mergeSigns ys := by
  induction xs with
  | nil => rfl
  | cons x xs ih =>
    obtain ⟨first, others⟩ := not_or.mp (List.mem_cons.not.mp plain)
    rw [List.cons_append, mergeSigns.eq_2 x _ (fun _ plus _ => first plus.symm), ih others]
    rfl

theorem mergeSigns_plus {cs : List Char} (next : cs.head? ≠ some '-') :
    mergeSigns ('+' :: ' ' :: cs) = '+' :: ' ' :: mergeSigns cs := by
  rw [mergeSigns.eq_2 '+', mergeSigns.eq_2 ' ' cs (by simp)]
  rintro ds - whole
  obtain rfl := (List.cons.inj whole).2
  exact next rfl

theorem toList_intercalate (t : String) (ts : List String) :
    (" + ".intercalate (t :: ts)).toList =
      t.toList ++ ts.flatMap fun u => [' ', '+', ' '] ++ u.toList := by
  induction ts generalizing t with
  | nil => simp
  | cons u ts ih =>
    rw [String.intercalate_cons_cons, String.toList_append, String.toList_append, ih]
    simp

/-- What the text has after its first term. -/
def tailText (v : String) (ms : List (Monomial α)) : List Char :=
  ms.flatMap fun m => m.sign.spaced.toList ++ (m.unsigned.render v).toList

theorem mergeSigns_term (name : IsVariable v) {m : Monomial α} (h : m.Writable)
    (rest : List Char) : mergeSigns ([' ', '+', ' '] ++ (m.render v).toList ++ rest) =
      m.sign.spaced.toList ++ (m.unsigned.render v).toList ++ mergeSigns rest := by
  have chars := h.legible.isTermChar name
  have plus : '+' ∉ (m.unsigned.render v).toList := fun hc =>
    (chars '+' hc).ne_of_lt (by decide) (by decide) (by decide) rfl
  have blank (cs : List Char) : mergeSigns (' ' :: cs) = ' ' :: mergeSigns cs :=
    mergeSigns.eq_2 ' ' cs (by simp)
  have merged := mergeSigns_append plus rest
  rw [h.render]
  cases sign : m.isNegative with
  | true =>
    have spaced : m.sign.spaced.toList = [' ', '-', ' '] := by
      rw [Monomial.sign, if_pos sign]
      decide
    rw [spaced]
    simp [blank, Monomial.signChars, mergeSigns, merged]
  | false =>
    have spaced : m.sign.spaced.toList = [' ', '+', ' '] := by
      rw [Monomial.sign, sign]
      decide
    obtain ⟨c, cs, text⟩ := List.exists_cons_of_ne_nil (h.legible.text_ne_nil name)
    have first : ((m.unsigned.render v).toList ++ rest).head? ≠ some '-' := by
      rw [text]
      intro minus
      exact (chars c (by simp [text])).ne_of_lt (by decide) (by decide) (by decide)
        (Option.some.inj minus)
    rw [spaced]
    simp [blank, Monomial.signChars, mergeSigns_plus first, merged]

theorem mergeSigns_tail (name : IsVariable v) {ms : List (Monomial α)}
    (writable : ∀ m ∈ ms, m.Writable) :
    mergeSigns ((ms.map (Monomial.render v)).flatMap fun u => [' ', '+', ' '] ++ u.toList) =
      tailText v ms := by
  induction ms with
  | nil => rfl
  | cons m ms ih =>
    have later := ih fun k hk => writable k (List.mem_cons_of_mem m hk)
    rw [List.map_cons, List.flatMap_cons, mergeSigns_term name (writable m List.mem_cons_self),
      later]
    rfl

/-- The text of a polynomial with terms that are not zero. -/
theorem toList_render (name : IsVariable v) {p : Polynomial α} {m : Monomial α}
    {ms : List (Monomial α)} (terms : p.terms.filter (!·.isZero) = m :: ms)
    (writable : ∀ k ∈ m :: ms, k.Writable) :
    (p.render v).toList = (m.render v).toList ++ tailText v ms := by
  have first := writable m List.mem_cons_self
  have chars := first.legible.isTermChar name
  have text : (m.render v).toList ≠ [] := by
    rw [first.render]
    exact List.append_ne_nil_of_right_ne_nil _ (first.legible.text_ne_nil name)
  have plus : '+' ∉ (m.render v).toList := by
    rw [first.render, List.mem_append]
    rintro (sign | char)
    · unfold Monomial.signChars at sign
      split at sign <;> simp at sign
    · exact (chars '+' char).ne_of_lt (by decide) (by decide) (by decide) rfl
  have merged : mergeSigns (" + ".intercalate ((m :: ms).map (Monomial.render v))).toList =
      (m.render v).toList ++ tailText v ms := by
    rw [List.map_cons, toList_intercalate, mergeSigns_append plus,
      mergeSigns_tail name fun k hk => writable k (List.mem_cons_of_mem m hk)]
  rw [render, terms, merged, if_neg, String.toList_ofList]
  intro empty
  have := congrArg String.toList empty
  rw [String.toList_ofList] at this
  exact text (List.append_eq_nil_iff.mp this).1

/-- The text after its first term, without blanks. -/
def tailChars (v : String) (ms : List (Monomial α)) : List Char :=
  ms.flatMap fun m => m.sign.symbol.toList ++ (m.unsigned.render v).toList

theorem filter_termChars {cs : List Char} (h : ∀ c ∈ cs, IsTermChar c) :
    cs.filter (! isBlank ·) = cs :=
  List.filter_eq_self.mpr fun c hc => by simp [(h c hc).isBlank]

theorem squeeze_render (name : IsVariable v) {p : Polynomial α} {m : Monomial α}
    {ms : List (Monomial α)} (terms : p.terms.filter (!·.isZero) = m :: ms)
    (writable : ∀ k ∈ m :: ms, k.Writable) : squeeze (p.render v) =
      Monomial.signChars m.isNegative ++ (m.unsigned.render v).toList ++ tailChars v ms := by
  have plain (k : Monomial α) (hk : k ∈ m :: ms) :=
    filter_termChars ((writable k hk).legible.isTermChar name)
  have sign : (Monomial.signChars m.isNegative).filter (! isBlank ·) =
      Monomial.signChars m.isNegative := by
    cases m.isNegative <;> decide
  have tail : (tailText v ms).filter (! isBlank ·) = tailChars v ms := by
    have others : ∀ k ∈ ms, (k.unsigned.render v).toList.filter (! isBlank ·) =
        (k.unsigned.render v).toList := fun k hk => plain k (List.mem_cons_of_mem m hk)
    clear terms writable plain sign
    induction ms with
    | nil => rfl
    | cons k ms ih =>
      have spaced : k.sign.spaced.toList.filter (! isBlank ·) = k.sign.symbol.toList :=
        squeeze_spaced k.sign
      have later := ih fun j hj => others j (List.mem_cons_of_mem k hj)
      simp only [tailText, tailChars, List.flatMap_cons, List.filter_append, spaced,
        others k List.mem_cons_self] at later ⊢
      rw [later]
  rw [squeeze, toList_render name terms writable,
    (writable m List.mem_cons_self).render, List.filter_append, List.filter_append, sign,
    plain m List.mem_cons_self, tail]

/-- The tree of a sum whose first part is `e`. -/
def sumTree (v : String) (e : Expr α) (ms : List (Monomial α)) : Expr α :=
  ms.foldl (fun e m => .bin m.sign e (m.unsigned.tree v false)) e

omit [LawfulNumber α] in
/-- A sum is read when its terms are. -/
theorem readsAs_sum {tree : Monomial α → Expr α} {cs : List Char} {e : Expr α}
    {ms : List (Monomial α)}
    (terms : ∀ m ∈ ms, ReadsAs v .term (m.unsigned.render v).toList (tree m) 2)
    (first : ReadsAs v .expr cs e 3) : ReadsAs v .expr (cs ++ tailChars v ms)
      (ms.foldl (fun e m => .bin m.sign e (tree m)) e) 3 := by
  induction ms generalizing cs e with
  | nil => simpa [tailChars] using first
  | cons m ms ih =>
    have term := terms m List.mem_cons_self
    have sum : ReadsAs v .expr (cs ++ m.sign.symbol.toList ++ (m.unsigned.render v).toList)
        (.bin m.sign e (tree m)) 3 := by
      unfold Monomial.sign
      split
      · exact first.bin .sub term
      · exact first.bin .add term
    have whole := ih (fun k hk => terms k (List.mem_cons_of_mem m hk)) sum
    simpa [tailChars] using whole

theorem readsAs_sumTree (name : IsVariable v) {cs : List Char} {e : Expr α}
    {ms : List (Monomial α)} (printable : ∀ m ∈ ms, m.Printable) (first : ReadsAs v .expr cs e 3) :
    ReadsAs v .expr (cs ++ tailChars v ms) (sumTree v e ms) 3 :=
  readsAs_sum (fun m hm => Monomial.readsAs_tree (printable m hm).plain name false) first

omit [Numeral α] [LawfulNumber α] in
/-- What is collected from a term. -/
theorem collect_term {e : Expr α} {m : Monomial α} (term : Monomial.ofTerm? e = some m)
    (negate : Bool) : collect negate e = ⟨[if negate then m.negated else m], []⟩ := by
  have whole : collect negate e = ofTerm negate e := by
    cases e with
    | bin op l r => cases op <;> first | rfl | cases term
    | neg e =>
      rw [collect, if_neg]
      cases e with
      | bin op l r => cases op <;> simp_all [Monomial.ofTerm?, Expr.isSum]
      | _ => simp [Expr.isSum]
    | _ => rfl
  rw [whole, ofTerm, term]

theorem collect_sumTree {e : Expr α} {ms : List (Monomial α)}
    (printable : ∀ m ∈ ms, m.Printable) :
    collect false (sumTree v e ms) = (collect false e).append ⟨ms, []⟩ := by
  induction ms generalizing e with
  | nil => simp [sumTree, append]
  | cons m ms ih =>
    have term := printable m List.mem_cons_self
    have tree : Monomial.ofTerm? (m.unsigned.tree v false) = some m.unsigned :=
      Monomial.ofTerm?_tree term.plain false
    have sum : collect false (.bin m.sign e (m.unsigned.tree v false)) =
        (collect false e).append ⟨[m], []⟩ := by
      have signed := term.writable.negated_unsigned
      cases negative : m.isNegative with
      | true =>
        rw [negative] at signed
        rw [Monomial.sign, negative, if_pos rfl, collect, collect_term tree]
        exact congrArg (fun k => (collect false e).append ⟨[k], []⟩) signed
      | false =>
        rw [negative] at signed
        rw [Monomial.sign, negative, if_neg Bool.false_ne_true, collect, collect_term tree]
        exact congrArg (fun k => (collect false e).append ⟨[k], []⟩) signed
    have whole := @ih (.bin m.sign e (m.unsigned.tree v false))
      fun k hk => printable k (List.mem_cons_of_mem m hk)
    rw [sum] at whole
    simpa [append, sumTree] using whole

/-- The terms that the text of a polynomial shows. -/
def shown (p : Polynomial α) : List (Monomial α) :=
  if (p.terms.filter (!·.isZero)).isEmpty then [Monomial.constant zero]
  else p.terms.filter (!·.isZero)

omit [LawfulNumber α] in
theorem render_of_nil {p : Polynomial α} (terms : p.terms.filter (!·.isZero) = []) :
    p.render v = "0" := by
  rw [render, terms]
  rfl

/-- The text is no equation and has no parentheses. -/
theorem not_mem_render (name : IsVariable v) {p : Polynomial α}
    (writable : ∀ m ∈ p.terms.filter (!·.isZero), m.Writable) {d : Char}
    (char : d = '=' ∨ d = '(') : d ∉ (p.render v).toList := by
  have term {m : Monomial α} (h : m.Writable) : d ∉ (m.unsigned.render v).toList := by
    intro hc
    have ne := (h.legible.isTermChar name d hc).ne_of_lt (d := d)
    rcases char with rfl | rfl <;> exact ne (by decide) (by decide) (by decide) rfl
  cases terms : p.terms.filter (!·.isZero) with
  | nil =>
    rw [render_of_nil terms]
    rcases char with rfl | rfl <;> decide
  | cons m ms =>
    rw [terms] at writable
    rw [toList_render name terms writable, (writable m List.mem_cons_self).render]
    simp only [tailText, List.mem_append, List.mem_flatMap, not_or, not_exists, not_and]
    refine ⟨⟨?_, term (writable m List.mem_cons_self)⟩, fun k hk => ⟨?_, ?_⟩⟩
    · rcases char with rfl | rfl <;> cases m.isNegative <;> decide
    · rcases char with rfl | rfl <;> cases k.sign <;> decide
    · exact term (writable k (List.mem_cons_of_mem m hk))

/-- The tree of the text of a polynomial. -/
def tree (v : String) (p : Polynomial α) : Expr α :=
  match p.terms.filter (!·.isZero) with
  | [] => .num zero
  | m :: ms => sumTree v (m.unsigned.tree v m.isNegative) ms

/-- A printed polynomial is parsed as its tree. Only a variable that is written has to be a name. -/
theorem parse_eq_tree {w : String} (same : lower w = v) {p : Polynomial α}
    (name : p.terms.filter (!·.isZero) ≠ [] → IsVariable v)
    (printable : ∀ m ∈ p.terms.filter (!·.isZero), m.Printable)
    (short : (Piece.ofChars (clean (p.render v)).toList).length ≤ maxTokens) :
    Expr.parse w (p.render v) = .ok (p.tree v) := by
  suffices reads : ReadsAs v .expr (squeeze (p.render v)) (p.tree v) 3 from
    reads.parse same (by decide) short
  rw [tree]
  cases terms : p.terms.filter (!·.isZero) with
  | nil =>
    have value : (Numeral.ofDecimal ⟨0, 0⟩ : α) = zero :=
      LawfulNumber.ofDecimal_whole (Nat.zero_le _)
    have written : Decimal.ofChars? (squeeze "0") = some ⟨0, 0⟩ := by decide
    rw [render_of_nil terms, ← value]
    exact ((ReadsAs.number written).lift (by decide)).mono (by decide)
  | cons m ms =>
    rw [terms] at name printable
    have name := name (List.cons_ne_nil m ms)
    have first := Monomial.readsAs_tree (printable m List.mem_cons_self).plain name m.isNegative
    have head : ReadsAs v .expr _ _ 3 := (first.lift (by decide)).mono (by decide)
    rw [squeeze_render name terms fun k hk => (printable k hk).writable]
    exact readsAs_sumTree name (fun k hk => printable k (List.mem_cons_of_mem m hk)) head

/-- What is collected from the tree of a polynomial are the terms that its text shows. -/
theorem ofExpr_tree {p : Polynomial α}
    (printable : ∀ m ∈ p.terms.filter (!·.isZero), m.Printable) :
    ofExpr (p.tree v) = ⟨p.shown, []⟩ := by
  rw [ofExpr, tree, shown]
  cases terms : p.terms.filter (!·.isZero) with
  | nil =>
    have term : Monomial.ofTerm? (.num zero : Expr α) = some (Monomial.constant zero) :=
      Monomial.finite?_of_isFinite (LawfulNumber.isFinite_ofNat (Nat.zero_le _))
    exact collect_term term false
  | cons m ms =>
    rw [terms] at printable
    have first := printable m List.mem_cons_self
    have term := Monomial.ofTerm?_tree (v := v) first.plain m.isNegative
    rw [first.writable.negated_unsigned] at term
    simp only
    rw [collect_sumTree fun k hk => printable k (List.mem_cons_of_mem m hk), collect_term term]
    rfl

/-- A printed polynomial is parsed, and what is collected from its tree are its terms. -/
theorem exists_parse_render (name : IsVariable v) {p : Polynomial α}
    (printable : ∀ m ∈ p.terms.filter (!·.isZero), m.Printable)
    (short : (Piece.ofChars (clean (p.render v)).toList).length ≤ maxTokens) :
    ∃ e, Expr.parse v (p.render v) = .ok e ∧ ofExpr e = ⟨p.shown, []⟩ :=
  ⟨p.tree v, parse_eq_tree name.lower_eq (fun _ => name) printable short, ofExpr_tree printable⟩

/-- The derivative of a term that is zero is zero. -/
theorem isZero_derivative {m : Monomial α} (h : m.isZero = true) (le : m.power ≤ maxNat) :
    m.derivative.isZero = true := by
  obtain ⟨c, n⟩ := m
  cases n with
  | zero => exact LawfulNumber.beq_self (LawfulNumber.isFinite_ofNat (Nat.zero_le _))
  | succ n => exact LawfulNumber.zero_mul h le

theorem filter_derivative {ms : List (Monomial α)} (powers : ∀ m ∈ ms, m.power ≤ maxNat) :
    ((ms.filter (!·.isZero)).map Monomial.derivative).filter (!·.isZero) =
      (ms.map Monomial.derivative).filter (!·.isZero) := by
  induction ms with
  | nil => rfl
  | cons m ms ih =>
    have later := ih fun k hk => powers k (List.mem_cons_of_mem m hk)
    cases zero : m.isZero with
    | true =>
      have dropped := isZero_derivative zero (powers m List.mem_cons_self)
      rw [List.filter_cons_of_neg (by simp [zero]), later, List.map_cons,
        List.filter_cons_of_neg (by simp [dropped])]
    | false =>
      rw [List.filter_cons_of_pos (by simp [zero]), List.map_cons, List.map_cons,
        List.filter_cons, List.filter_cons, later]

/-- Terms that are zero make no difference to the derivative. -/
theorem derivative_shown {p : Polynomial α} (powers : ∀ m ∈ p.terms, m.power ≤ maxNat) :
    (⟨p.shown, []⟩ : Polynomial α).derivative = p.derivative := by
  have kept := filter_derivative powers
  rw [derivative, derivative, ← kept, shown]
  split
  · rename_i none
    have zero : (Monomial.constant (zero : α)).derivative.isZero = true :=
      isZero_derivative (LawfulNumber.beq_self (LawfulNumber.isFinite_ofNat (Nat.zero_le _)))
        (Nat.zero_le _)
    rw [List.isEmpty_iff.mp none]
    simp [zero]
  · rfl

/-- The text of a polynomial is differentiated to the text of its derivative. -/
theorem differentiate_render (name : IsVariable v) {p : Polynomial α}
    (powers : ∀ m ∈ p.terms, m.power ≤ maxNat)
    (printable : ∀ m ∈ p.terms.filter (!·.isZero), m.Printable)
    (short : (Piece.ofChars (clean (p.render v)).toList).length ≤ maxTokens)
    (defined : ∀ m ∈ p.terms, isFinite m.derivative.coefficient = true) :
    Univariate.differentiate α v (p.render v) = .ok (p.derivative.render v) := by
  obtain ⟨e, parsed, collected⟩ := exists_parse_render name printable short
  have none : p.shown.find? (fun m => !isFinite m.derivative.coefficient) = none := by
    rw [List.find?_eq_none]
    intro m hm
    unfold shown at hm
    split at hm
    · obtain rfl := List.mem_singleton.mp hm
      simp [Monomial.constant, Monomial.derivative, zero, LawfulNumber.isFinite_ofNat]
    · simp [defined m (List.mem_of_mem_filter hm)]
  rw [Univariate.differentiate,
    if_neg (not_mem_render name (fun m hm => (printable m hm).writable) (.inl rfl)), parsed]
  simp only [collected, differentiate, none, name.lower_eq]
  rw [derivative_shown powers]

end Polynomial

end

namespace Polynomial

/-- A polynomial is read back from its text: the text parses, the terms of its tree are those of
the polynomial that are not zero, and its derivative is the text of the derivative. -/
theorem ofExpr_render {v : String} {p : Polynomial Float} (name : IsVariable v)
    (finite : ∀ m ∈ p.terms, m.coefficient.isFinite = true)
    (powers : ∀ m ∈ p.terms, m.power ≤ maxNat)
    (reads : ∀ m ∈ p.terms, m.isZero = false → ReadsBack m.coefficient.abs)
    (short : (Piece.ofChars (clean (p.render v)).toList).length ≤ maxTokens) :
    (∃ e, Expr.parse v (p.render v) = .ok e ∧ ofExpr e = ⟨p.shown, []⟩) ∧
      ((∀ m ∈ p.terms, m.derivative.coefficient.isFinite = true) →
        Univariate.differentiate Float v (p.render v) = .ok (p.derivative.render v)) := by
  have printable : ∀ m ∈ p.terms.filter (!·.isZero), m.Printable := by
    intro m hm
    obtain ⟨hm, nonzero⟩ := List.mem_filter.mp hm
    have nonzero : m.isZero = false := by simpa using nonzero
    exact ⟨finite m hm, nonzero, powers m hm, reads m hm nonzero⟩
  exact ⟨exists_parse_render name printable short, differentiate_render name powers printable short⟩

/-- A polynomial with a leading minus, a term that is zero, and a constant. -/
def quadratic : Polynomial Float := ⟨[⟨-1, 2⟩, ⟨0, 5⟩, ⟨0.5, 1⟩, ⟨-2, 0⟩], []⟩

theorem ofExpr_render_quadratic : quadratic.render "x" = "-x^2 + 0.5*x - 2" ∧
    (∃ e, Expr.parse "x" (quadratic.render "x") = .ok e ∧
      ofExpr e = ⟨[⟨-1, 2⟩, ⟨0.5, 1⟩, ⟨-2, 0⟩], []⟩) ∧
    Univariate.differentiate Float "x" (quadratic.render "x") = .ok "-2*x + 0.5" := by
  have text : quadratic.render "x" = "-x^2 + 0.5*x - 2" := by decide +kernel
  have finite : ∀ m ∈ quadratic.terms, m.coefficient.isFinite = true := by decide +kernel
  have powers : ∀ m ∈ quadratic.terms, m.power ≤ maxNat := by decide +kernel
  have reads : ∀ m ∈ quadratic.terms, m.isZero = false → ReadsBack m.coefficient.abs := by
    intro m hm nonzero
    simp only [quadratic, List.mem_cons, List.not_mem_nil, or_false] at hm
    rcases hm with rfl | rfl | rfl | rfl
    · exact ⟨⟨⟨1, 0⟩, by decide +kernel⟩, by decide +kernel⟩
    · exact absurd nonzero (by decide +kernel)
    · exact ⟨⟨⟨5, 1⟩, by decide +kernel⟩, by decide +kernel⟩
    · exact ⟨⟨⟨2, 0⟩, by decide +kernel⟩, by decide +kernel⟩
  have short : (Piece.ofChars (clean (quadratic.render "x")).toList).length ≤ maxTokens := by
    rw [text]
    decide +kernel
  have defined : ∀ m ∈ quadratic.terms, m.derivative.coefficient.isFinite = true := by
    decide +kernel
  have shown : quadratic.shown = [⟨-1, 2⟩, ⟨0.5, 1⟩, ⟨-2, 0⟩] := by decide +kernel
  have derivative : quadratic.derivative.render "x" = "-2*x + 0.5" := by decide +kernel
  obtain ⟨read, differentiated⟩ := ofExpr_render isVariable_x finite powers reads short
  rw [shown] at read
  rw [derivative] at differentiated
  exact ⟨text, read, differentiated defined⟩

end Polynomial

end Univariate

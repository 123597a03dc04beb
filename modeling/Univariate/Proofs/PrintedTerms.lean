import Univariate.Number.Decimal.Lemmas
import Univariate.Polynomial.Monomial
import Univariate.Proofs.Doubles
import Univariate.Proofs.RoundTrip

/-!
# Printed terms

The text of a monomial is its sign and the text of its magnitude, which is read as a product that
is the same monomial again. A minus in front of such a text belongs to the first factor, and the
product is then the monomial with the opposite sign.

What the numbers have to obey is in `LawfulNumber`. Only that the magnitude of the coefficient is
read back from its own text is asked for.
-/
namespace Univariate

open Lexer Text Arith

/-! ## Texts and their trees -/

section

variable {α : Type} [Numeral α] {v : String}

/-- The characters are read as a tree, with a nesting of at most `n`. -/
def ReadsAs (v : String) (level : Level) (cs : List Char) (e : Expr α) (n : Nat) : Prop :=
  ∃ ts k, Spells v cs ts ∧ Sentence level ts e k ∧ k ≤ n

namespace ReadsAs

variable {level looser : Level} {cs xs ys : List Char} {e l r : Expr α} {m n : Nat}

theorem lift (h : ReadsAs v level cs e n) (h' : looser.min ≤ level.min) :
    ReadsAs v looser cs e n := by
  obtain ⟨ts, k, spells, sentence, le⟩ := h
  exact ⟨ts, k, spells, sentence.lift h', le⟩

theorem mono (h : ReadsAs v level cs e m) (le : m ≤ n) : ReadsAs v level cs e n := by
  obtain ⟨ts, k, spells, sentence, le'⟩ := h
  exact ⟨ts, k, spells, sentence, Nat.le_trans le' le⟩

theorem number {d : Decimal} (written : Decimal.ofChars? cs = some d) :
    ReadsAs v .primary cs (.num (Numeral.ofDecimal d) : Expr α) 0 :=
  ⟨_, 0, .number written, .num _, Nat.le_refl 0⟩

theorem var (name : IsVariable v) : ReadsAs v .primary v.toList (.var v : Expr α) 0 :=
  ⟨_, 0, .var name, .var v, Nat.le_refl 0⟩

omit [Numeral α] in
theorem tokens_ne_nil {ts : List (Token α)} (h : Sentence level ts e n) : ts ≠ [] := by
  obtain ⟨t, head, _⟩ := h.phrase.starts
  rintro rfl
  cases head

theorem bin (op : Op) (left : ReadsAs v op.left xs l m) (right : ReadsAs v op.right ys r n) :
    ReadsAs v op.level (xs ++ op.symbol.toList ++ ys) (.bin op l r) (max m (n + 1)) := by
  obtain ⟨ts, j, spells, sentence, le⟩ := left
  obtain ⟨us, k, spells', sentence', le'⟩ := right
  obtain ⟨c, symbol, sign⟩ := IsSign.op (α := α) v op
  have whole := spells.join sign spells' fun _ => ⟨tokens_ne_nil sentence, tokens_ne_nil sentence'⟩
  rw [symbol, List.append_assoc]
  exact ⟨_, _, whole, sentence.bin op sentence', by omega⟩

theorem minus (h : ReadsAs v .factor cs e n) :
    ReadsAs v .factor ('-' :: cs) (.neg e) (n + 1) := by
  obtain ⟨ts, k, spells, sentence, le⟩ := h
  obtain ⟨c, symbol, sign⟩ := IsSign.op (α := α) v .sub
  obtain rfl : '-' = c := List.singleton_inj.mp symbol
  have whole := (Spells.nil v).join sign spells (by simp)
  exact ⟨_, _, whole, sentence.minus, Nat.succ_le_succ le⟩

theorem group (h : ReadsAs v .expr cs e n) : ReadsAs v .primary ('(' :: cs ++ [')']) e (n + 1) := by
  obtain ⟨ts, k, spells, sentence, le⟩ := h
  exact ⟨_, _, spells.enclosed, sentence.group, Nat.succ_le_succ le⟩

theorem call (f : Func) (h : ReadsAs v .expr cs e n) :
    ReadsAs v .primary (f.name.toList ++ '(' :: cs ++ [')']) (.call f e) (n + 1) := by
  obtain ⟨ts, k, spells, sentence, le⟩ := h
  have head := (Spells.func (α := α) v f).join (.opening v) spells (by simp)
  have whole := head.join (.closing v) (.nil v) (by simp)
  refine ⟨_, _, whole, ?_, Nat.succ_le_succ le⟩
  simpa using sentence.call f

theorem ne_nil (h : ReadsAs v level cs e n) : cs ≠ [] := by
  obtain ⟨ts, k, spells, sentence, _⟩ := h
  exact spells.ne_nil (tokens_ne_nil sentence)

/-- What reads as a tree is parsed as that tree, if it is not too long. -/
theorem parse {w text : String} (same : lower w = v) (h : ReadsAs v .expr (squeeze text) e n)
    (shallow : n < maxDepth) (short : (Piece.ofChars (clean text).toList).length ≤ maxTokens) :
    Expr.parse w text = .ok e := by
  obtain ⟨ts, k, spells, sentence, le⟩ := h
  rw [toList_clean spells.isSmall, spells.reads.length_eq] at short
  simp only [Expr.parse, tokenize_of_spells same spells short,
    insertProducts_sentence sentence, bind, Except.bind,
    Expr.ofTokens_sentence sentence (Nat.lt_of_le_of_lt le shallow)]

/-- What reads as a tree is parsed as that tree or refused for one of the two limits. -/
theorem parse_cases {w text : String} (same : lower w = v)
    (h : ReadsAs v .expr (squeeze text) e n) :
    Expr.parse w text = .ok e ∨ ∃ error found, Expr.parse (α := α) w text = .error error ∧
      (error.problem = .unexpected found .tooLong ∨
        error.problem = .unexpected found .tooDeep) := by
  obtain ⟨ts, k, spells, sentence, le⟩ := h
  by_cases long : maxTokens < ts.length
  · obtain ⟨error, found, rejected, why⟩ := tokenize_tooLong same spells long
    refine .inr ⟨error, found, ?_, .inl why⟩
    simp only [Expr.parse, rejected, bind, Except.bind]
  have read := tokenize_of_spells same spells (Nat.le_of_not_lt long)
  rw [insertProducts_sentence sentence] at read
  by_cases deep : maxDepth ≤ k
  · obtain ⟨i, rejected⟩ := Expr.ofTokens_tooDeep sentence deep
    refine .inr ⟨Fault.locate ts (.unexpected i .tooDeep), _, ?_, .inr rfl⟩
    simp only [Expr.parse, read, bind, Except.bind, rejected]
  · left
    simp only [Expr.parse, read, bind, Except.bind,
      Expr.ofTokens_sentence sentence (Nat.lt_of_not_le deep)]

end ReadsAs

end

/-! ## Terms -/

theorem Decimal.ofChars?_repr (n : Nat) : Decimal.ofChars? (Nat.repr n).toList = some ⟨n, 0⟩ := by
  have digits : ∀ c ∈ Nat.toDigits 10 n, c.isDigit := fun c hc =>
    Nat.isDigit_of_mem_toDigits (by decide) (by decide) hc
  rw [Nat.toList_repr, Decimal.ofChars?_whole digits Nat.toDigits_ne_nil,
    Nat.ofDigitChars_toDigits (by decide) (by decide)]

section

variable {α : Type} [Arith α] [Numeral α]

namespace Monomial

/-- A term that is written without a sign and whose coefficient is read back. -/
structure Plain (m : Monomial α) : Prop where
  finite : isFinite m.coefficient = true
  nonzero : m.isZero = false
  power_le : m.power ≤ maxNat
  reads : ReadsBack m.coefficient

/-- A term that is written without a sign, whatever its coefficient is read as. -/
structure Legible (m : Monomial α) : Prop where
  finite : isFinite m.coefficient = true
  nonzero : m.isZero = false
  power_le : m.power ≤ maxNat
  written : ∃ d, Decimal.ofChars? (formatNumber m.coefficient).toList = some d

theorem Plain.legible {m : Monomial α} (h : m.Plain) : m.Legible :=
  ⟨h.finite, h.nonzero, h.power_le, h.reads.written⟩

def powerText (v : String) (n : Nat) : String := if n = 1 then v else v ++ "^" ++ Nat.repr n

def powerTree (v : String) (n : Nat) : Expr α :=
  if n = 1 then .var v else .bin .pow (.var v) (.num (ofNat n))

/-- The text of a term without a sign. -/
theorem render_eq (v : String) (m : Monomial α) : m.render v =
    if m.power = 0 then formatNumber m.coefficient
    else if m.coefficient == one then powerText v m.power
    else if m.coefficient == -one then "-" ++ powerText v m.power
    else formatNumber m.coefficient ++ "*" ++ powerText v m.power := rfl

def signChars (minus : Bool) : List Char := if minus then ['-'] else []

def withSign (minus : Bool) (e : Expr α) : Expr α := if minus then .neg e else e

/-- The tree of a term without a sign, or with a minus. The minus goes to the first factor. -/
def tree (v : String) (minus : Bool) (m : Monomial α) : Expr α :=
  if m.power = 0 then withSign minus (.num m.coefficient)
  else if m.coefficient == one then withSign minus (powerTree v m.power)
  else .bin .mul (withSign minus (.num m.coefficient)) (powerTree v m.power)

/-- The tree of a term whose coefficient is read as `c`. -/
def treeWith (c : α) (v : String) (minus : Bool) (m : Monomial α) : Expr α :=
  if m.power = 0 then withSign minus (.num c)
  else if m.coefficient == one then withSign minus (powerTree v m.power)
  else .bin .mul (withSign minus (.num c)) (powerTree v m.power)

variable [LawfulNumber α] {v : String} {m : Monomial α}

namespace Legible

theorem not_lt_zero (h : m.Legible) : ¬ m.coefficient < zero := by
  intro negative
  have signed := LawfulNumber.signed h.finite h.nonzero
  rw [if_pos negative] at signed
  obtain ⟨d, written⟩ := h.written
  have nonzero : (m.coefficient == zero) = false := h.nonzero
  have minus : '-' ∈ (formatNumber m.coefficient).toList := by
    simp [formatNumber, nonzero, signed.2]
  exact absurd ((Decimal.isNumeric_of_ofChars? written).2 _ minus) (by decide)

theorem ne_neg_one (h : m.Legible) : (m.coefficient == -one) = false := by
  rw [← Bool.not_eq_true]
  intro equal
  have nonzero : (-(one : α) == zero) = false := by
    rw [LawfulNumber.isZero_neg, LawfulNumber.one_ne_zero]
  have negative := LawfulNumber.neg_one_lt_zero (α := α)
  rw [← LawfulNumber.eq_of_beq equal nonzero] at negative
  exact h.not_lt_zero negative

theorem render (h : m.Legible) (v : String) : m.render v =
    if m.power = 0 then formatNumber m.coefficient
    else if m.coefficient == one then powerText v m.power
    else formatNumber m.coefficient ++ "*" ++ powerText v m.power := by
  rw [render_eq, h.ne_neg_one]
  rfl

omit [LawfulNumber α] in
theorem readsAs_number (h : m.Legible) :
    ReadsAs v .primary (formatNumber m.coefficient).toList (.num (reread m.coefficient)) 0 := by
  obtain ⟨d, written⟩ := h.written
  have value : reread m.coefficient = Numeral.ofDecimal d := by
    rw [reread, written]
    rfl
  rw [value]
  exact .number written

end Legible

theorem Plain.reread_eq (h : m.Plain) : reread m.coefficient = m.coefficient :=
  LawfulNumber.eq_of_beq h.reads.equal h.nonzero

theorem readsAs_powerText (name : IsVariable v) {n : Nat} (le : n ≤ maxNat) :
    ReadsAs v .factor (powerText v n).toList (powerTree v n : Expr α) 1 := by
  have base := ReadsAs.var (α := α) name
  unfold powerText powerTree
  split
  · exact (base.lift (by decide)).mono (by decide)
  · have exponent := ReadsAs.number (α := α) (v := v) (Decimal.ofChars?_repr n)
    rw [LawfulNumber.ofDecimal_whole le] at exponent
    have whole := base.bin .pow (exponent.lift (by decide))
    rwa [String.toList_append, String.toList_append]

omit [Arith α] [LawfulNumber α] in
theorem readsAs_withSign {cs : List Char} {e : Expr α} {n : Nat} (minus : Bool)
    (h : ReadsAs v .factor cs e n) :
    ReadsAs v .factor (signChars minus ++ cs) (withSign minus e) (n + 1) := by
  cases minus with
  | true => exact h.minus
  | false => exact h.mono (Nat.le_succ n)

theorem readsAs_treeWith (h : m.Legible) (name : IsVariable v) (minus : Bool) :
    ReadsAs v .term (signChars minus ++ (m.render v).toList)
      (m.treeWith (reread m.coefficient) v minus) 2 := by
  have coefficient : ReadsAs v .factor _ (.num (reread m.coefficient)) 0 :=
    h.readsAs_number.lift (by decide)
  have number := readsAs_withSign minus coefficient
  have power := readsAs_powerText (α := α) name h.power_le
  rw [h.render, treeWith]
  by_cases constant : m.power = 0
  · rw [if_pos constant, if_pos constant]
    exact (number.lift (by decide)).mono (by decide)
  · rw [if_neg constant, if_neg constant]
    by_cases unit : (m.coefficient == one) = true
    · rw [if_pos unit, if_pos unit]
      exact (readsAs_withSign minus power).lift (by decide)
    · rw [if_neg unit, if_neg unit, String.toList_append, String.toList_append,
        ← List.append_assoc, ← List.append_assoc]
      exact (number.lift (by decide)).bin .mul power

theorem readsAs_tree (h : m.Plain) (name : IsVariable v) (minus : Bool) :
    ReadsAs v .term (signChars minus ++ (m.render v).toList) (m.tree v minus) 2 := by
  have tree := readsAs_treeWith h.legible name minus
  rwa [h.reread_eq] at tree

section

omit [Numeral α] [LawfulNumber α]

theorem finite?_of_isFinite (h : isFinite m.coefficient = true) : finite? m = some m := if_pos h

theorem ofTerm?_mul {l r : Expr α} {a b : Monomial α} (left : ofTerm? l = some a)
    (right : ofTerm? r = some b) : ofTerm? (.bin .mul l r) = mul? a b := by
  rw [ofTerm?, left, right]
  rfl

theorem ofTerm?_pow {l r : Expr α} {a b : Monomial α} (left : ofTerm? l = some a)
    (right : ofTerm? r = some b) : ofTerm? (.bin .pow l r) = pow? a b := by
  rw [ofTerm?, left, right]
  rfl

end

/-- The tree of a power of the variable is its term. -/
theorem ofTerm?_powerTree {n : Nat} (le : n ≤ maxNat) :
    ofTerm? (powerTree v n : Expr α) = some ⟨one, n⟩ := by
  have finite_one : isFinite (one : α) = true := LawfulNumber.isFinite_ofNat (by decide)
  have base : ofTerm? (.var v : Expr α) = some ⟨one, 1⟩ := finite?_of_isFinite finite_one
  unfold powerTree
  split
  · rename_i first
    rw [first, base]
  · have exponent : ofTerm? (.num (ofNat n) : Expr α) = some (constant (ofNat n)) :=
      finite?_of_isFinite (LawfulNumber.isFinite_ofNat le)
    rw [ofTerm?_pow base exponent]
    simp only [pow?, constant, LawfulNumber.toNat?_ofNat le, LawfulNumber.one_pow, Nat.one_mul]
    simp [finite?, finite_one, le]

theorem mul?_constant {c : α} (h : isFinite c = true) (n : Nat) :
    mul? (constant c) ⟨one, n⟩ = some ⟨c, n⟩ := by
  simp only [mul?, constant, LawfulNumber.mul_one, Nat.zero_add]
  exact finite?_of_isFinite h

theorem ofTerm?_withSign {e : Expr α} {minus : Bool} (h : isFinite m.coefficient = true)
    (term : ofTerm? e = some m) :
    ofTerm? (withSign minus e) = some (if minus then m.negated else m) := by
  cases minus with
  | false => exact term
  | true =>
    have finite : isFinite m.negated.coefficient = true :=
      (LawfulNumber.isFinite_neg _).trans h
    rw [withSign, if_pos rfl, ofTerm?, term]
    exact finite?_of_isFinite finite

/-- The tree of a term is that term. -/
theorem ofTerm?_tree (h : m.Plain) (minus : Bool) :
    ofTerm? (m.tree v minus) = some (if minus then m.negated else m) := by
  have number : ofTerm? (.num m.coefficient : Expr α) = some (constant m.coefficient) :=
    finite?_of_isFinite h.finite
  have finite : isFinite (constant m.coefficient).coefficient = true := h.finite
  rw [tree]
  by_cases constant_ : m.power = 0
  · rw [if_pos constant_, ofTerm?_withSign finite number]
    obtain ⟨c, n⟩ := m
    obtain rfl : n = 0 := constant_
    rfl
  · have power := ofTerm?_powerTree (α := α) (v := v) h.power_le
    rw [if_neg constant_]
    by_cases unit : (m.coefficient == one) = true
    · have coefficient := LawfulNumber.eq_of_beq unit LawfulNumber.one_ne_zero
      have power : ofTerm? (powerTree v m.power : Expr α) = some m := by rw [power, ← coefficient]
      rw [if_pos unit, ofTerm?_withSign h.finite power]
    · rw [if_neg unit]
      rw [ofTerm?_mul (ofTerm?_withSign finite number) power]
      cases minus with
      | false => exact mul?_constant h.finite m.power
      | true => exact mul?_constant ((LawfulNumber.isFinite_neg _).trans h.finite) m.power

/-! ## Terms with signs -/

section

omit [LawfulNumber α]

/-- A term that is not zero and can be read back up to its sign. -/
structure Printable (m : Monomial α) : Prop where
  finite : isFinite m.coefficient = true
  nonzero : m.isZero = false
  power_le : m.power ≤ maxNat
  reads : ReadsBack (Arith.abs m.coefficient)

/-- A term that is not zero and is written as a decimal up to its sign. -/
structure Writable (m : Monomial α) : Prop where
  finite : isFinite m.coefficient = true
  nonzero : m.isZero = false
  power_le : m.power ≤ maxNat
  written : ∃ d, Decimal.ofChars? (formatNumber (Arith.abs m.coefficient)).toList = some d

theorem Printable.writable {m : Monomial α} (h : m.Printable) : m.Writable :=
  ⟨h.finite, h.nonzero, h.power_le, h.reads.written⟩

def isNegative (m : Monomial α) : Bool := decide (m.coefficient < zero)

def unsigned (m : Monomial α) : Monomial α := { m with coefficient := Arith.abs m.coefficient }

/-- The sign of a term that is not the first one. -/
def sign (m : Monomial α) : Op := if m.isNegative then .sub else .add

end

namespace Writable

theorem coefficient_eq (h : m.Writable) :
    m.coefficient = if m.isNegative then -m.unsigned.coefficient else m.unsigned.coefficient := by
  have signed := LawfulNumber.signed h.finite h.nonzero
  by_cases negative : m.coefficient < zero
  · have sign : m.isNegative = true := decide_eq_true negative
    rw [if_pos negative] at signed
    rw [if_pos sign]
    exact signed.1
  · have sign : ¬ m.isNegative = true := mt of_decide_eq_true negative
    rw [if_neg negative] at signed
    rw [if_neg sign]
    exact signed

theorem negated_unsigned (h : m.Writable) :
    (if m.isNegative then m.unsigned.negated else m.unsigned) = m := by
  have coefficient := h.coefficient_eq
  obtain ⟨c, n⟩ := m
  cases sign : isNegative ⟨c, n⟩ with
  | true =>
    rw [sign] at coefficient
    exact congrArg (Monomial.mk · n) coefficient.symm
  | false =>
    rw [sign] at coefficient
    exact congrArg (Monomial.mk · n) coefficient.symm

theorem legible (h : m.Writable) : m.unsigned.Legible := by
  have coefficient := h.coefficient_eq
  have finite := h.finite
  have nonzero : (m.coefficient == zero) = false := h.nonzero
  refine ⟨?_, ?_, h.power_le, h.written⟩
  · rw [coefficient] at finite
    split at finite
    · rwa [LawfulNumber.isFinite_neg] at finite
    · exact finite
  · rw [coefficient] at nonzero
    split at nonzero
    · rwa [LawfulNumber.isZero_neg] at nonzero
    · exact nonzero

theorem formatNumber_eq (h : m.Writable) (negative : m.isNegative = true) :
    formatNumber m.coefficient = "-" ++ formatNumber m.unsigned.coefficient := by
  have signed := LawfulNumber.signed h.finite h.nonzero
  rw [if_pos (of_decide_eq_true negative)] at signed
  have nonzero : (m.coefficient == zero) = false := h.nonzero
  have nonzero' : (m.unsigned.coefficient == zero) = false := h.legible.nonzero
  rw [formatNumber, formatNumber, nonzero, nonzero']
  exact signed.2

/-- A negative term is not one, and it is minus one where its magnitude is one. -/
theorem units (h : m.Writable) (negative : m.isNegative = true) :
    (m.coefficient == one) = false ∧
      (m.coefficient == -one) = (m.unsigned.coefficient == one) := by
  have coefficient := h.coefficient_eq
  rw [if_pos negative] at coefficient
  have finite_one : isFinite (one : α) = true := LawfulNumber.isFinite_ofNat (by decide)
  have nonzero : (-(one : α) == zero) = false := by
    rw [LawfulNumber.isZero_neg, LawfulNumber.one_ne_zero]
  constructor
  · rw [← Bool.not_eq_true]
    intro unit
    have lt_zero := of_decide_eq_true negative
    rw [LawfulNumber.eq_of_beq unit LawfulNumber.one_ne_zero] at lt_zero
    exact LawfulNumber.not_one_lt_zero lt_zero
  · rw [Bool.eq_iff_iff]
    refine ⟨fun unit => ?_, fun unit => ?_⟩
    · rw [LawfulNumber.eq_of_beq unit nonzero] at coefficient
      have magnitude : m.unsigned.coefficient = one := by
        rw [← LawfulNumber.neg_neg m.unsigned.coefficient, ← coefficient, LawfulNumber.neg_neg]
      rw [magnitude]
      exact LawfulNumber.beq_self finite_one
    · rw [coefficient, LawfulNumber.eq_of_beq unit LawfulNumber.one_ne_zero]
      exact LawfulNumber.beq_self ((LawfulNumber.isFinite_neg _).trans finite_one)

/-- The text of a term is its sign and the text without it. -/
theorem render (h : m.Writable) (v : String) :
    (m.render v).toList = signChars m.isNegative ++ (m.unsigned.render v).toList := by
  cases sign : m.isNegative with
  | false =>
    have unsigned := h.negated_unsigned
    rw [sign] at unsigned
    exact congrArg (fun m => (Monomial.render v m).toList) unsigned.symm
  | true =>
    have dash (s : String) : ("-" ++ s).toList = signChars true ++ s.toList := by simp [signChars]
    rw [h.legible.render, render_eq, h.formatNumber_eq sign, (h.units sign).1, (h.units sign).2]
    simp only [unsigned, Bool.false_eq_true, if_false, String.append_assoc]
    by_cases constant : m.power = 0
    · rw [if_pos constant, if_pos constant, dash]
    · rw [if_neg constant, if_neg constant]
      by_cases unit : (Arith.abs m.coefficient == one) = true
      · rw [if_pos unit, if_pos unit, dash]
      · rw [if_neg unit, if_neg unit, dash]

end Writable

theorem Printable.plain (h : m.Printable) : m.unsigned.Plain :=
  ⟨h.writable.legible.finite, h.writable.legible.nonzero, h.power_le, h.reads⟩

end Monomial

end

end Univariate

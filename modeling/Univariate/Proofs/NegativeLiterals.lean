import Univariate.Proofs.PrintedTerms
import Univariate.Proofs.ReadingBack

/-!
# Printed negative literals

A tree that is built directly may have negative literals. They are written with their minus and
without parentheses, as if they were atoms, and are read as a unary minus over the magnitude. A
minus binds like the level that it stands in everywhere but at the base of a power: there the power
takes the magnitude first, and the minus goes over the whole power. So a printed tree is read back,
its negative literals spelled as minuses, exactly if no negative literal is the base of a power.
-/
namespace Univariate

open Lexer Text Arith

theorem Op.right_ne_primary (op : Op) : op.right ≠ .primary := by cases op <;> decide

section

variable {α : Type} [Arith α] [Numeral α]

def withoutSign (c : α) : α := if c < zero then -c else c

/-- The magnitude is read back from its text, which stands after a minus if the number is
negative. -/
structure WritesSigned (c : α) : Prop where
  magnitude : ReadsBack (withoutSign c)
  minus : c < zero → formatNumber c = "-" ++ formatNumber (withoutSign c)

namespace Expr

/-- The magnitude of a literal that is negative. -/
def negative? : Expr α → Option α
  | num c => if c < zero then some (-c) else none
  | _ => none

/-- The magnitude of the base where a negative literal is raised to a power. -/
def negativeBase? (op : Op) (l : Expr α) : Option α := if op = .pow then l.negative? else none

/-- Each negative literal written as a minus over its magnitude. -/
def withMinuses : Expr α → Expr α
  | num c => Monomial.withSign (decide (c < zero)) (num (withoutSign c))
  | var name => var name
  | neg e => neg e.withMinuses
  | bin op l r => bin op l.withMinuses r.withMinuses
  | call f e => call f e.withMinuses

/-- The tree that the printed text stands for. -/
def readBack : Expr α → Expr α
  | num c => Monomial.withSign (decide (c < zero)) (num (Univariate.reread (withoutSign c)))
  | var name => var name
  | neg e => neg e.readBack
  | bin op l r =>
    match negativeBase? op l with
    | some c => neg (bin .pow (num (Univariate.reread c)) r.readBack)
    | none => bin op l.readBack r.readBack
  | call f e => call f e.readBack

/-- Whether a negative literal is the base of a power. -/
def raisesNegative : Expr α → Bool
  | num _ | var _ => false
  | neg e | call _ e => e.raisesNegative
  | bin op l r => (negativeBase? op l).isSome || l.raisesNegative || r.raisesNegative

omit [Numeral α] in
theorem eq_of_negativeBase? {op : Op} {l : Expr α} {c : α} (h : negativeBase? op l = some c) :
    op = .pow ∧ ∃ a, l = num a ∧ a < zero ∧ c = -a := by
  unfold negativeBase? at h
  split at h
  · rename_i power
    cases l with
    | num a =>
      simp only [negative?] at h
      split at h
      · rename_i negative
        cases h
        exact ⟨power, a, rfl, negative, rfl⟩
      · cases h
    | var _ | neg _ | bin _ _ _ | call _ _ => cases h
  · cases h

omit [Numeral α] in
theorem negative?_of_left {op : Op} {l : Expr α} (h : negativeBase? op l = none)
    (primary : op.left = .primary) : l.negative? = none := by
  cases op with
  | pow => exact h
  | add | sub | mul | div => cases primary

/-- What is read back is the tree with its negative literals written out, unless one of them is the
base of a power. -/
theorem same_readBack {e : Expr α} (literals : ∀ c ∈ e.literals, WritesSigned c) :
    e.readBack.same e.withMinuses = !e.raisesNegative := by
  induction e with
  | num c =>
    have equal := (literals c (by simp [Expr.literals])).magnitude.equal
    by_cases negative : c < zero <;>
      simp [readBack, withMinuses, Monomial.withSign, negative, same, raisesNegative, equal]
  | var name => simp [readBack, withMinuses, same, raisesNegative]
  | neg e ih => exact ih literals
  | bin op l r left right =>
    have left := left fun c hc => literals c (List.mem_append_left _ hc)
    have right := right fun c hc => literals c (List.mem_append_right _ hc)
    cases base : negativeBase? op l with
    | some c => simp [readBack, withMinuses, raisesNegative, base, same]
    | none => simp [readBack, withMinuses, raisesNegative, base, same, left, right, Bool.not_or]
  | call f e ih =>
    have arg := ih literals
    simp [readBack, withMinuses, same, raisesNegative, arg]

variable {v : String}

theorem readsAs_withoutSign {c : α} (literal : WritesSigned c) :
    ReadsAs v .primary (formatNumber (withoutSign c)).toList
      (num (Univariate.reread (withoutSign c))) 0 := by
  obtain ⟨d, written⟩ := literal.magnitude.written
  have value : Univariate.reread (withoutSign c) = Numeral.ofDecimal d := by
    simp [Univariate.reread, written]
  rw [value]
  exact .number written

theorem squeeze_literal {c : α} (literal : WritesSigned c) : squeeze (formatNumber c) =
    Monomial.signChars (decide (c < zero)) ++ (formatNumber (withoutSign c)).toList := by
  obtain ⟨d, written⟩ := literal.magnitude.written
  by_cases negative : c < zero
  · have minus : squeeze "-" = ['-'] := by decide
    rw [literal.minus negative, squeeze_append, squeeze_formatNumber written, minus,
      decide_eq_true negative]
    rfl
  · have same : withoutSign c = c := if_neg negative
    rw [same] at written
    rw [squeeze_formatNumber written, same, decide_eq_false negative]
    rfl

/-- The text of a tree is read at the level of its operator, or as a factor if it is a negative
literal. -/
structure ReadsBare (v : String) (e : Expr α) (bare : Level) (n : Nat) : Prop where
  reads : ReadsAs v bare (squeeze e.render) e.readBack n
  strong : e.binding ≤ bare.min ∨ bare = .factor
  place : e.negative? = none → e.binding ≤ bare.min

namespace ReadsBare

variable {e l r : Expr α} {bare : Level} {m n : Nat}

/-- With its parentheses an operand is read at the level that is asked for. A negative literal has
none and is no primary. -/
theorem exists_enclose (h : ReadsBare v e bare n) (level : Level)
    (atom : level = .primary → e.negative? = none) :
    ∃ n, ReadsAs v level (squeeze (e.enclose level.min e.render)) e.readBack n := by
  unfold enclose
  by_cases loose : e.binding < level.min
  · have whole : ReadsAs v .expr _ _ _ := h.reads.lift (by cases bare <;> decide)
    have grouped : ReadsAs v level _ _ _ :=
      (ReadsAs.group whole).lift (by cases level <;> decide)
    rw [if_pos loose]
    exact ⟨n + 1, by simpa [squeeze_opening, squeeze_closing] using grouped⟩
  · rw [if_neg loose]
    refine ⟨n, h.reads.lift ?_⟩
    rcases h.strong with strong | rfl
    · omega
    · cases level with
      | primary => exact Nat.le_trans (Nat.le_of_not_lt loose) (h.place (atom rfl))
      | expr | term | factor => decide

theorem exists_num {c : α} (literal : WritesSigned c) :
    ∃ bare n, ReadsBare v (num c) bare n := by
  have number := readsAs_withoutSign (v := v) literal
  by_cases negative : c < zero
  · have own : (num c).negative? = some (-c) := if_pos negative
    refine ⟨.factor, 1, ?_, .inr rfl, fun none => by rw [own] at none; cases none⟩
    rw [render, squeeze_literal literal, readBack]
    exact Monomial.readsAs_withSign _ (number.lift (by decide))
  · refine ⟨.primary, 0, ?_, .inl (Nat.le_refl 4), fun _ => Nat.le_refl 4⟩
    rw [render, squeeze_literal literal, readBack, decide_eq_false negative]
    exact number

theorem var (name : IsVariable v) : ReadsBare v (var v : Expr α) .primary 0 := by
  refine ⟨?_, .inl (Nat.le_refl 4), fun _ => Nat.le_refl 4⟩
  rw [render, squeeze_var name]
  exact .var name

theorem exists_neg (h : ReadsBare v e bare n) : ∃ n, ReadsBare v (neg e) .factor n := by
  obtain ⟨n, operand⟩ := h.exists_enclose .factor fun primary => absurd primary (by decide)
  have minus : squeeze "-" = ['-'] := by decide
  refine ⟨n + 1, ?_, .inr rfl, fun _ => Nat.le_succ 2⟩
  rw [render, squeeze_append, minus]
  exact operand.minus

theorem call (f : Func) (h : ReadsBare v e bare n) :
    ReadsBare v (call f e) .primary (n + 1) := by
  have arg : ReadsAs v .expr _ _ _ := h.reads.lift (by cases bare <;> decide)
  refine ⟨?_, .inl (Nat.le_refl 4), fun _ => Nat.le_refl 4⟩
  simpa [render, readBack, squeeze_name, squeeze_opening, squeeze_closing] using
    ReadsAs.call f arg

theorem exists_right (op : Op) (h : ReadsBare v r bare n) :
    ∃ n, ReadsAs v op.right (squeeze (r.enclose op.rightMin r.render)) r.readBack n := by
  rw [← op.min_right]
  exact h.exists_enclose op.right fun primary => absurd primary op.right_ne_primary

/-- The power is read before the minus that was printed in front of its base. -/
theorem exists_negativeBase {a : α} (literal : WritesSigned a) (negative : a < zero)
    (h : ReadsBare v r bare n) : ∃ n, ReadsBare v (bin .pow (num a) r) .factor n := by
  obtain ⟨n, right⟩ := h.exists_right .pow
  have base : negativeBase? .pow (num a) = some (-a) := by
    rw [negativeBase?, if_pos rfl, negative?, if_pos negative]
  have magnitude : withoutSign a = -a := if_pos negative
  have number := readsAs_withoutSign (v := v) literal
  rw [magnitude] at number
  have bare : (num a).enclose Op.pow.leftMin (num a : Expr α).render = formatNumber a := rfl
  refine ⟨max 0 (n + 1) + 1, ?_, .inr rfl, fun _ => Nat.le_refl 3⟩
  rw [readBack, base, render, squeeze_append, squeeze_append, squeeze_spaced, bare,
    squeeze_literal literal, decide_eq_true negative, magnitude]
  exact (number.bin .pow right).minus

theorem exists_bin {op : Op} {bareLeft : Level} (left : ReadsBare v l bareLeft m)
    (right : ReadsBare v r bare n) (atom : negativeBase? op l = none) :
    ∃ n, ReadsBare v (bin op l r) op.level n := by
  obtain ⟨m, left⟩ := left.exists_enclose op.left (negative?_of_left atom)
  obtain ⟨n, right⟩ := right.exists_right op
  have tight := Nat.le_of_eq op.min_level.symm
  rw [op.min_left] at left
  refine ⟨max m (n + 1), ?_, .inl tight, fun _ => tight⟩
  rw [readBack, atom, render, squeeze_append, squeeze_append, squeeze_spaced]
  exact left.bin op right

end ReadsBare

theorem exists_readsBare {e : Expr α} (name : IsVariable v) (own : ∀ n ∈ e.vars, n = v)
    (literals : ∀ c ∈ e.literals, WritesSigned c) : ∃ bare n, ReadsBare v e bare n := by
  induction e with
  | num c => exact ReadsBare.exists_num (literals c (by simp [Expr.literals]))
  | var n =>
    obtain rfl := own n (by simp [vars])
    exact ⟨_, _, .var name⟩
  | neg e ih =>
    obtain ⟨_, _, inner⟩ := ih own literals
    exact ⟨_, inner.exists_neg⟩
  | bin op l r ihLeft ihRight =>
    obtain ⟨_, _, right⟩ := ihRight (fun n hn => own n (List.mem_append_right _ hn))
      fun c hc => literals c (List.mem_append_right _ hc)
    cases base : negativeBase? op l with
    | some c =>
      obtain ⟨rfl, a, rfl, negative, rfl⟩ := eq_of_negativeBase? base
      exact ⟨_, right.exists_negativeBase (literals a (by simp [Expr.literals])) negative⟩
    | none =>
      obtain ⟨_, _, left⟩ := ihLeft (fun n hn => own n (List.mem_append_left _ hn))
        fun c hc => literals c (List.mem_append_left _ hc)
      exact ⟨_, left.exists_bin right base⟩
  | call f e ih =>
    obtain ⟨_, _, inner⟩ := ih own literals
    exact ⟨_, _, inner.call f⟩

end Expr

end

namespace Double

theorem ne_zero_of_lt {c : Float} (negative : c < zero) : (c == zero) = false := by
  rw [← Bool.not_eq_true]
  intro equal
  obtain ⟨s, unpacked⟩ := beq_zero_iff.mp equal
  have less : ((view c).compare (view zero) == some .lt) = true := of_decide_eq_true negative
  rw [unpacked, arith_zero, view_zero] at less
  cases s <;> cases less

theorem not_withoutSign_lt_zero {c : Float} (finite : c.isFinite = true) :
    ¬withoutSign c < zero := by
  by_cases negative : c < zero
  · obtain ⟨s, m, e, pos, unpacked⟩ := exists_finite finite (ne_zero_of_lt negative)
    have opposite : view (-c) = .finite (-s) m e pos := by rw [view_neg, unpacked]; rfl
    rw [withoutSign, if_pos negative, lt_zero_iff opposite, (lt_zero_iff unpacked).mp negative]
    rintro ⟨⟩
  · rwa [withoutSign, if_neg negative]

/-- Finite doubles are written so. -/
theorem writesSigned {c : Float} (finite : c.isFinite = true) : WritesSigned c := by
  refine ⟨readsBack ?_ (not_withoutSign_lt_zero finite), fun negative => ?_⟩
  · unfold withoutSign
    split
    · rw [isFinite_neg, finite]
    · exact finite
  · have nonzero := ne_zero_of_lt negative
    have signed := signed finite nonzero
    rw [if_pos negative] at signed
    have magnitude : -c = c.abs := by rw [signed.1, neg_neg, ← signed.1]
    rw [withoutSign, if_pos negative, formatNumber, formatNumber, isZero_neg, nonzero, magnitude]
    exact signed.2

end Double

namespace Expr

/-- The text of a tree stands for the tree in which a minus over a power takes the place of each
negative literal at its base, and a minus over the magnitude that of all others. It is refused for
nothing but its length and its nesting. So it stands for the tree that was printed exactly if no
negative literal is the base of a power. -/
theorem parse_render_of_signed {v : String} {e : Expr Float} (name : IsVariable v)
    (own : ∀ n ∈ e.vars, n = v) (finite : ∀ c ∈ e.literals, c.isFinite = true) :
    (parse v e.render = .ok e.readBack ∨
      ∃ error found, parse (α := Float) v e.render = .error error ∧
        (error.problem = .unexpected found .tooLong ∨
          error.problem = .unexpected found .tooDeep)) ∧
      (e.readBack.same e.withMinuses = true ↔ e.raisesNegative = false) := by
  have literals : ∀ c ∈ e.literals, WritesSigned c := fun c hc => Double.writesSigned (finite c hc)
  obtain ⟨bare, n, shown⟩ := exists_readsBare name own literals
  have whole : ReadsAs v .expr _ _ _ := shown.reads.lift (by cases bare <;> decide)
  refine ⟨ReadsAs.parse_cases name.lower_eq whole, ?_⟩
  rw [same_readBack literals, Bool.not_eq_true']

/-- `-2*x^-3 - -0.5` -/
def signedTerms : Expr Float :=
  .bin .sub (.bin .mul (.num (-2)) (.bin .pow (.var "x") (.num (-3)))) (.num (-0.5))

theorem parse_render_of_signed_terms :
    signedTerms.render = "-2*x^-3 - -0.5" ∧ signedTerms.raisesNegative = false ∧
      ∃ e, parse "x" signedTerms.render = .ok e ∧ e.same signedTerms.withMinuses = true := by
  have finite : ∀ c ∈ signedTerms.literals, c.isFinite = true := by
    have literals : signedTerms.literals = [-2, -3, -0.5] := rfl
    rw [literals]
    simp only [List.forall_mem_cons, List.not_mem_nil, false_implies, implies_true, and_true]
    decide +kernel
  have atoms : signedTerms.raisesNegative = false := by decide +kernel
  have accepted : (parse (α := Float) "x" signedTerms.render).toOption.isSome = true := by
    decide +kernel
  obtain ⟨read | ⟨error, _, refused, _⟩, same⟩ :=
    parse_render_of_signed (e := signedTerms) isVariable_x (by decide) finite
  · exact ⟨by decide +kernel, atoms, _, read, same.mpr atoms⟩
  · rw [refused] at accepted
    cases accepted

/-- The square of the literal `-2` -/
def negativeSquare : Expr Float := .bin .pow (.num (-2)) (.num 2)

/-- It is printed as the text of the opposite of a square. -/
theorem parse_render_of_signed_refused :
    negativeSquare.render = "-2^2" ∧
      parse "x" negativeSquare.render = .ok (.neg (.bin .pow (.num 2) (.num 2)) : Expr Float) ∧
      negativeSquare.withMinuses = .bin .pow (.neg (.num 2)) (.num 2) ∧
      ¬∀ e e' : Expr Float, (∀ c ∈ e.literals, c.isFinite = true) → (∀ n ∈ e.vars, n = "x") →
        parse "x" e.render = .ok e' → e'.same e.withMinuses = true := by
  have read : parse "x" negativeSquare.render =
      .ok (.neg (.bin .pow (.num 2) (.num 2)) : Expr Float) := by decide +kernel
  refine ⟨by decide +kernel, read, by decide +kernel, fun faithful => ?_⟩
  have finite : ∀ c ∈ negativeSquare.literals, c.isFinite = true := by
    have literals : negativeSquare.literals = [-2, 2] := rfl
    rw [literals]
    simp only [List.forall_mem_cons, List.not_mem_nil, false_implies, implies_true, and_true]
    decide +kernel
  have same := faithful negativeSquare _ finite (by decide) read
  exact absurd same (by decide +kernel)

end Expr

end Univariate

import Univariate.Number.Double
import Univariate.Proofs.Parsing
import Univariate.Proofs.Neighbours
import Univariate.Proofs.Spelling

/-!
# Printed expressions are read back

The text of a tree spells a sentence whose tree is the one that was printed, each literal replaced
by the number that its text stands for. So the text is refused only for its length or its nesting,
and never taken for another tree. Trees need not come from a text; their literals are only asked
to be written as decimals.
-/
namespace Univariate

open Lexer Text

variable {α : Type} [Arith α] [Numeral α]

/-- The number that the text of a number stands for. -/
def reread (c : α) : α :=
  ((Decimal.ofChars? (formatNumber c).toList).map Numeral.ofDecimal).getD c

/-- The number is written as digits with at most one point, which stand for an equal number. -/
structure ReadsBack (c : α) : Prop where
  written : ∃ d, Decimal.ofChars? (formatNumber c).toList = some d
  equal : (reread c == c) = true

namespace Expr

def literals : Expr α → List α
  | num c => [c]
  | var _ => []
  | neg e | call _ e => e.literals
  | bin _ l r => l.literals ++ r.literals

def vars : Expr α → List String
  | num _ => []
  | var name => [name]
  | neg e | call _ e => e.vars
  | bin _ l r => l.vars ++ r.vars

/-- Equal up to literals that compare equal, such as the two zeros. -/
def same : Expr α → Expr α → Bool
  | num a, num b => a == b
  | var s, var t => s == t
  | neg a, neg b => same a b
  | bin o a b, bin p c d => o == p && same a c && same b d
  | call f a, call g b => f == g && same a b
  | _, _ => false

def reread : Expr α → Expr α
  | num c => num (Univariate.reread c)
  | var name => var name
  | neg e => neg e.reread
  | bin op l r => bin op l.reread r.reread
  | call f e => call f e.reread

def encloseTokens (min : Nat) (e : Expr α) (ts : List (Token α)) : List (Token α) :=
  if e.binding < min then .opening :: ts ++ [.closing] else ts

def encloseNesting (min : Nat) (e : Expr α) (n : Nat) : Nat :=
  if e.binding < min then n + 1 else n

/-- The tokens of the printed text. -/
def tokens : Expr α → List (Token α)
  | num c => [.num (Univariate.reread c)]
  | var name => [.var name]
  | neg e => .op .sub :: e.encloseTokens (minusBinding + 1) e.tokens
  | bin op l r =>
    l.encloseTokens op.leftMin l.tokens ++ .op op :: r.encloseTokens op.rightMin r.tokens
  | call f e => .func f :: .opening :: e.tokens ++ [.closing]

/-- The nesting of the printed text, its parentheses included. -/
def nesting : Expr α → Nat
  | num _ | var _ => 0
  | neg e => e.encloseNesting (minusBinding + 1) e.nesting + 1
  | bin op l r =>
    max (l.encloseNesting op.leftMin l.nesting) (r.encloseNesting op.rightMin r.nesting + 1)
  | call _ e => e.nesting + 1

def level : Expr α → Level
  | num _ | var _ | call _ _ => .primary
  | neg _ => .factor
  | bin op _ _ => op.level

omit [Arith α] [Numeral α] in
theorem binding_le_min_level (e : Expr α) : e.binding ≤ e.level.min := by
  cases e with
  | bin op l r => exact Nat.le_of_eq op.min_level.symm
  | num _ | var _ | call _ _ => exact Nat.le_refl _
  | neg _ => exact Nat.le_succ _

omit [Arith α] [Numeral α] in
/-- With its parentheses an operand is of the level that is asked for. -/
theorem sentence_enclose {e f : Expr α} {ts : List (Token α)} {n : Nat}
    (sentence : Sentence e.level ts f n) (level : Level) :
    Sentence level (e.encloseTokens level.min ts) f (e.encloseNesting level.min n) := by
  unfold encloseTokens encloseNesting
  by_cases loose : e.binding < level.min
  · rw [if_pos loose, if_pos loose]
    have whole : Sentence .expr ts f n := sentence.lift (by cases e.level <;> decide)
    exact whole.group.lift (by cases level <;> decide)
  · rw [if_neg loose, if_neg loose]
    exact sentence.lift (Nat.le_trans (Nat.le_of_not_lt loose) e.binding_le_min_level)

/-- The printed tokens are a sentence with the printed tree. -/
theorem sentence_tokens (e : Expr α) : Sentence e.level e.tokens e.reread e.nesting := by
  induction e with
  | num c => exact .num _
  | var name => exact .var name
  | neg e ih => exact (sentence_enclose ih .factor).minus
  | bin op l r ihLeft ihRight =>
    have left := sentence_enclose ihLeft op.left
    have right := sentence_enclose ihRight op.right
    rw [op.min_left] at left
    rw [op.min_right] at right
    exact left.bin op right
  | call f e ih => exact .call f (ih.lift (by cases e.level <;> decide))

theorem same_reread {e : Expr α} (literals : ∀ c ∈ e.literals, ReadsBack c) :
    e.reread.same e = true := by
  induction e with
  | num c => exact (literals c (by simp [Expr.literals])).equal
  | var name => simp [reread, same]
  | neg e ih => exact ih literals
  | bin op l r ihLeft ihRight =>
    have left := ihLeft fun c hc => literals c (List.mem_append_left _ hc)
    have right := ihRight fun c hc => literals c (List.mem_append_right _ hc)
    simp [reread, same, left, right]
  | call f e ih =>
    have arg := ih literals
    simp [reread, same, arg]

end Expr

/-! ## Spelling of the text -/

namespace Lexer

theorem squeeze_formatNumber {c : α} {d : Decimal}
    (written : Decimal.ofChars? (formatNumber c).toList = some d) :
    squeeze (formatNumber c) = (formatNumber c).toList :=
  squeeze_eq_toList fun _ hc =>
    Piece.isBlank_of_isNumeric ((Decimal.isNumeric_of_ofChars? written).2 _ hc)

theorem squeeze_opening : squeeze "(" = ['('] := by decide

theorem squeeze_closing : squeeze ")" = [')'] := by decide

theorem squeeze_spaced (op : Op) : squeeze op.spaced = op.symbol.toList := by
  cases op <;> decide

theorem squeeze_name (f : Func) : squeeze f.name = f.name.toList :=
  squeeze_eq_toList fun c hc => isBlank_eq_false_of_isAlphabetic (f.isAlphabetic_of_mem_name c hc)

theorem squeeze_var {v : String} (name : IsVariable v) : squeeze v = v.toList :=
  squeeze_eq_toList fun c hc => isBlank_eq_false_of_isAlphabetic (name.letters c hc)

end Lexer

namespace Expr

theorem tokens_ne_nil (e : Expr α) : e.tokens ≠ [] := by
  cases e <;> simp [tokens]

theorem encloseTokens_ne_nil (min : Nat) (e : Expr α) :
    e.encloseTokens min e.tokens ≠ [] := by
  unfold encloseTokens
  split
  · simp
  · exact e.tokens_ne_nil

omit [Arith α] in
theorem spells_enclose {v text : String} {ts : List (Token α)}
    (spells : Spells v (squeeze text) ts) (min : Nat) (e : Expr α) :
    Spells v (squeeze (e.enclose min text)) (e.encloseTokens min ts) := by
  unfold enclose encloseTokens
  split
  · simpa [squeeze_opening, squeeze_closing] using spells.enclosed
  · exact spells

/-- The text of a tree spells its tokens. Only a variable that occurs has to be a name. -/
theorem spells_render_of_written {v : String} {e : Expr α}
    (own : ∀ n ∈ e.vars, n = v ∧ IsVariable v)
    (written : ∀ c ∈ e.literals, ∃ d, Decimal.ofChars? (formatNumber c).toList = some d) :
    Spells v (squeeze e.render) e.tokens := by
  induction e with
  | num c =>
    obtain ⟨d, written⟩ := written c (by simp [Expr.literals])
    have value : Univariate.reread c = Numeral.ofDecimal d := by
      simp [Univariate.reread, written]
    rw [render, squeeze_formatNumber written, tokens, value]
    exact .number written
  | var n =>
    obtain ⟨rfl, name⟩ := own n (by simp [vars])
    rw [render, squeeze_var name]
    exact .var name
  | neg e ih =>
    obtain ⟨c, symbol, sign⟩ := IsSign.op (α := α) v .sub
    have inner := spells_enclose (ih own written) (minusBinding + 1) e
    have whole := (Spells.nil v).join sign inner (by rintro rfl; exact absurd symbol (by decide))
    have minus : squeeze "-" = [c] := by rw [← symbol]; decide
    simpa [render, tokens, minus] using whole
  | bin op l r ihLeft ihRight =>
    obtain ⟨c, symbol, sign⟩ := IsSign.op (α := α) v op
    have left := spells_enclose (ihLeft (fun n hn => own n (List.mem_append_left _ hn))
      fun c hc => written c (List.mem_append_left _ hc)) op.leftMin l
    have right := spells_enclose (ihRight (fun n hn => own n (List.mem_append_right _ hn))
      fun c hc => written c (List.mem_append_right _ hc)) op.rightMin r
    have whole := left.join sign right fun _ => ⟨encloseTokens_ne_nil _ l, encloseTokens_ne_nil _ r⟩
    simpa [render, tokens, squeeze_spaced, symbol] using whole
  | call f e ih =>
    have head := (Spells.func (α := α) v f).join (.opening v) (ih own written) (by simp)
    have whole := head.join (.closing v) (.nil v) (by simp)
    simpa [render, tokens, squeeze_name, squeeze_opening, squeeze_closing] using whole

theorem spells_render {v : String} {e : Expr α} (name : IsVariable v)
    (own : ∀ n ∈ e.vars, n = v) (literals : ∀ c ∈ e.literals, ReadsBack c) :
    Spells v (squeeze e.render) e.tokens :=
  spells_render_of_written (fun n hn => ⟨own n hn, name⟩) fun c hc => (literals c hc).written

/-- Printing and then parsing gives the tree again, unless the text is too long or nested too
deeply, and then the error says so. -/
theorem parse_render {v : String} {e : Expr α} (name : IsVariable v)
    (own : ∀ n ∈ e.vars, n = v) (literals : ∀ c ∈ e.literals, ReadsBack c) :
    (e.tokens.length ≤ maxTokens ∧ e.nesting < maxDepth ∧
      ∃ e', parse v e.render = .ok e' ∧ e'.same e = true) ∨
    (maxTokens < e.tokens.length ∧ ∃ error found, parse (α := α) v e.render = .error error ∧
      error.problem = .unexpected found .tooLong) ∨
    (e.tokens.length ≤ maxTokens ∧ maxDepth ≤ e.nesting ∧ ∃ error found,
      parse (α := α) v e.render = .error error ∧ error.problem = .unexpected found .tooDeep) := by
  have spells := spells_render name own literals
  have sentence : Sentence .expr e.tokens e.reread e.nesting :=
    e.sentence_tokens.lift (by cases e.level <;> decide)
  by_cases long : maxTokens < e.tokens.length
  · obtain ⟨error, found, rejected, why⟩ := tokenize_tooLong name.lower_eq spells long
    refine .inr (.inl ⟨long, error, found, ?_, why⟩)
    simp only [parse, rejected, bind, Except.bind]
  have fits := Nat.le_of_not_lt long
  have read : tokenize v e.render = .ok e.tokens := by
    rw [tokenize_of_spells name.lower_eq spells fits, insertProducts_sentence sentence]
  by_cases deep : maxDepth ≤ e.nesting
  · obtain ⟨k, rejected⟩ := ofTokens_tooDeep sentence deep
    refine .inr (.inr ⟨fits, deep, Fault.locate e.tokens (.unexpected k .tooDeep), _, ?_, rfl⟩)
    simp only [parse, read, bind, Except.bind, rejected]
  · have shallow := Nat.lt_of_not_le deep
    refine .inl ⟨fits, shallow, e.reread, ?_, same_reread literals⟩
    simp only [parse, read, bind, Except.bind, ofTokens_sentence sentence shallow]

/-- A tree with a minus over a power, a fraction, a difference on the right and a call. -/
def sample : Expr Float :=
  .bin .sub (.bin .mul (.neg (.bin .pow (.var "x") (.num 2))) (.num 0.5))
    (.bin .sub (.var "x") (.call .sin (.var "x")))

theorem parse_render_sample :
    sample.render = "-x^2*0.5 - (x - sin(x))" ∧
      ∃ e', parse "x" sample.render = .ok e' ∧ e'.same sample = true := by
  have literals : ∀ c ∈ sample.literals, ReadsBack c := by
    intro c hc
    simp only [sample, Expr.literals, List.nil_append, List.append_nil, List.cons_append,
      List.mem_cons, List.not_mem_nil, or_false] at hc
    rcases hc with rfl | rfl
    · exact ⟨⟨⟨2, 0⟩, by decide +kernel⟩, by decide +kernel⟩
    · exact ⟨⟨⟨5, 1⟩, by decide +kernel⟩, by decide +kernel⟩
  refine ⟨by decide +kernel, ?_⟩
  rcases parse_render isVariable_x (by decide) literals with ⟨_, _, read⟩ | ⟨long, _⟩ | ⟨_, deep, _⟩
  · exact read
  · exact absurd long (by decide +kernel)
  · exact absurd deep (by decide +kernel)

end Expr

end Univariate

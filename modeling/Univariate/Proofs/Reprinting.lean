import Univariate.Proofs.Lengths
import Univariate.Proofs.RoundTrip
import Univariate.Proofs.Unsigned

/-!
# Printing what was read

The text of a tree that was parsed is again a sentence, in the same variable: its literals are
finite numbers without a sign, and its variables have a name in lower case. So it is refused at most
for its length or for its nesting, and these differ from those of the source. Implied products are
written out, which counts, and a minus that stands directly after `*`, `/`, `^` or another minus
gets parentheses, which are two tokens and one level more. All other parentheses that are printed
were in the source.
-/
namespace Univariate

open Lexer Text

variable {α : Type}

/-! ## Literals and variables -/

namespace Expr

/-- The literals and variables, in order. -/
def operands : Expr α → List (Token α)
  | num c => [.num c]
  | var name => [.var name]
  | neg e | call _ e => e.operands
  | bin _ l r => l.operands ++ r.operands

theorem num_mem_operands {e : Expr α} {c : α} (h : c ∈ e.literals) : .num c ∈ e.operands := by
  induction e with
  | num _ => simpa [literals, operands] using h
  | var _ => cases h
  | neg e ih | call f e ih => exact ih h
  | bin op l r left right =>
    rw [operands, List.mem_append]
    exact (List.mem_append.mp h).imp left right

theorem var_mem_operands {e : Expr α} {name : String} (h : name ∈ e.vars) :
    .var name ∈ e.operands := by
  induction e with
  | num _ => cases h
  | var _ => simpa [vars, operands] using h
  | neg e ih | call f e ih => exact ih h
  | bin op l r left right =>
    rw [operands, List.mem_append]
    exact (List.mem_append.mp h).imp left right

end Expr

/-- The operands of a tree are tokens of its sentence. -/
theorem Sentence.mem_of_mem_operands {level : Level} {ts : List (Token α)} {e : Expr α} {n : Nat}
    (sentence : Sentence level ts e n) {t : Token α} (h : t ∈ e.operands) : t ∈ ts := by
  induction sentence with
  | num _ | var _ => exact h
  | group _ ih | call f _ ih => simp [ih h]
  | minus _ ih => exact List.mem_cons_of_mem _ (ih h)
  | bin op _ _ left right =>
    rcases List.mem_append.mp h with h | h
    · exact List.mem_append_left _ (left h)
    · exact List.mem_append_right _ (List.mem_cons_of_mem _ (right h))
  | factor _ ih | term _ ih | expr _ ih => exact ih h

theorem Lexer.mem_insertProducts {t : Token α} {ts : List (Token α)} (h : t ∈ insertProducts ts) :
    t ∈ ts ∨ t = .op .mul := by
  fun_induction insertProducts ts with
  | case1 u w ts _ ih =>
    simp only [List.mem_cons] at h ih ⊢
    rcases h with rfl | rfl | h
    · exact .inl (.inl rfl)
    · exact .inr rfl
    · rcases ih h with known | mul
      · exact .inl (.inr known)
      · exact .inr mul
  | case2 u w ts _ ih =>
    simp only [List.mem_cons] at h ih ⊢
    rcases h with rfl | h
    · exact .inl (.inl rfl)
    · rcases ih h with known | mul
      · exact .inl (.inr known)
      · exact .inr mul
  | case3 ts _ => exact .inl h

section

variable [Numeral α] {v input : String} {ts : List (Token α)} {t : Token α}

/-- Each token but the products is that of a lexeme. -/
theorem Lexer.exists_lexeme (read : tokenize v input = .ok ts) (h : t ∈ ts) :
    (∃ l : Lexeme (lower v), t = l.token) ∨ t = .op .mul := by
  obtain ⟨us, scanned, rfl⟩ := scan_of_tokenize read
  obtain ⟨ls, rfl, _⟩ := Lexeme.of_scan scanned
  rcases mem_insertProducts h with known | mul
  · obtain ⟨l, _, rfl⟩ := List.mem_map.mp known
    exact .inl ⟨l, rfl⟩
  · exact .inr mul

namespace Expr

variable {e : Expr α}

theorem exists_lexeme_of_parse (parsed : parse v input = .ok e) (h : t ∈ e.operands) :
    (∃ l : Lexeme (lower v), t = l.token) ∨ t = .op .mul := by
  obtain ⟨ts, read, accepted⟩ := tokens_of_parse parsed
  obtain ⟨n, _, sentence⟩ := sentence_of_ofTokens accepted
  exact exists_lexeme read (sentence.mem_of_mem_operands h)

theorem exists_ofDecimal_of_parse (parsed : parse v input = .ok e) {c : α}
    (h : c ∈ e.literals) : ∃ d, c = Numeral.ofDecimal d := by
  obtain ⟨l, token⟩ | mul := exists_lexeme_of_parse parsed (num_mem_operands h)
  · cases l with
    | number digits d reads => exact ⟨d, Token.num.inj token⟩
    | var _ | func _ | op _ | opening | closing => cases token
  · cases mul

theorem isVariable_of_parse (parsed : parse v input = .ok e) {name : String}
    (h : name ∈ e.vars) : name = lower v ∧ IsVariable (lower v) := by
  obtain ⟨l, token⟩ | mul := exists_lexeme_of_parse parsed (var_mem_operands h)
  · cases l with
    | var isName => exact ⟨Token.var.inj token, isName, lower_lower v⟩
    | number _ _ _ | func _ | op _ | opening | closing => cases token
  · cases mul

end Expr

end

/-! ## Reading the printed text -/

namespace Expr

section

variable [Arith α] [Numeral α] {v w : String} {e : Expr α}

theorem sentence_printed (e : Expr α) : Sentence .expr e.tokens e.reread e.nesting :=
  e.sentence_tokens.lift (by cases e.level <;> decide)

theorem tokenize_render (same : lower v = w) (spells : Spells w (squeeze e.render) e.tokens)
    (fits : e.tokens.length ≤ maxTokens) : tokenize v e.render = .ok e.tokens := by
  rw [tokenize_of_spells same spells fits, insertProducts_sentence e.sentence_printed]

theorem parse_render_fits (same : lower v = w) (spells : Spells w (squeeze e.render) e.tokens)
    (fits : e.tokens.length ≤ maxTokens) (shallow : e.nesting < maxDepth) :
    parse v e.render = .ok e.reread := by
  simp only [parse, tokenize_render same spells fits, bind, Except.bind,
    ofTokens_sentence e.sentence_printed shallow]

theorem parse_render_tooDeep (same : lower v = w) (spells : Spells w (squeeze e.render) e.tokens)
    (fits : e.tokens.length ≤ maxTokens) (deep : maxDepth ≤ e.nesting) :
    ∃ error found, parse (α := α) v e.render = .error error ∧
      error.problem = .unexpected found .tooDeep := by
  obtain ⟨k, rejected⟩ := ofTokens_tooDeep e.sentence_printed deep
  refine ⟨Fault.locate e.tokens (.unexpected k .tooDeep), _, ?_, rfl⟩
  simp only [parse, tokenize_render same spells fits, bind, Except.bind, rejected]

theorem parse_render_tooLong (same : lower v = w) (spells : Spells w (squeeze e.render) e.tokens)
    (long : maxTokens < e.tokens.length) :
    ∃ error found, parse (α := α) v e.render = .error error ∧
      error.problem = .unexpected found .tooLong := by
  obtain ⟨error, found, rejected, why⟩ := tokenize_tooLong same spells long
  refine ⟨error, found, ?_, why⟩
  simp only [parse, rejected, bind, Except.bind]

end

/-- The text of a tree that was parsed spells its tokens, if all its numbers are finite. -/
theorem spells_render_of_parse {v input : String} {e : Expr Float}
    (parsed : parse v input = .ok e) (finite : ∀ c ∈ e.literals, c.isFinite = true) :
    Spells (lower v) (squeeze e.render) e.tokens := by
  apply spells_render_of_written
  · intro n hn
    exact isVariable_of_parse parsed hn
  · intro c hc
    obtain ⟨d, rfl⟩ := exists_ofDecimal_of_parse parsed hc
    exact Double.ofChars?_formatNumber (finite _ hc) (Double.unsigned_ofDecimal d)

end Expr

/-! ## Stacked signs -/

/-- Where a token stands: at the start of a text, a group or an operand of a sum; right after a
minus or an operator that binds tighter than a sum; or after an operand. -/
inductive Place where
  | start
  | factor
  | operand
  deriving DecidableEq

namespace Place

def after (p : Place) : Token α → Place
  | .num _ | .var _ | .closing => operand
  | .opening | .func _ | .op .add => start
  | .op .sub => if p = operand then start else factor
  | .op .mul | .op .div | .op .pow => factor

def isStacked (p : Place) : Token α → Bool
  | .op .sub => p == factor
  | _ => false

/-- The least binding that a tree of this level has without parentheses where it stands in the
source. -/
def least : Place → Level → Nat
  | start, .factor => minusBinding
  | _, level => level.min

end Place

/-- How many minuses of the tokens stand directly after `*`, `/`, `^` or a minus that is not a
difference. -/
def stackedSigns (p : Place) : List (Token α) → Nat
  | [] => 0
  | t :: ts => (if p.isStacked t then 1 else 0) + stackedSigns (p.after t) ts

theorem stackedSigns_append (p : Place) (ts us : List (Token α)) :
    stackedSigns p (ts ++ us) = stackedSigns p ts + stackedSigns (ts.foldl Place.after p) us := by
  induction ts generalizing p with
  | nil => simp [stackedSigns]
  | cons t ts ih =>
    simp only [List.cons_append, stackedSigns, List.foldl_cons, ih]
    omega

/-- After a sentence stands what may follow an operand. -/
theorem Sentence.place {level : Level} {ts : List (Token α)} {e : Expr α} {n : Nat}
    (sentence : Sentence level ts e n) (p : Place) : ts.foldl Place.after p = .operand := by
  induction sentence generalizing p with
  | num v | var name => rfl
  | group _ ih | call f _ ih => simp [Place.after]
  | minus _ ih => exact ih _
  | bin op _ _ left right =>
    rw [List.foldl_append]
    exact right _
  | factor _ ih | term _ ih | expr _ ih => exact ih p

namespace Expr

section

variable [Arith α] [Numeral α] {e : Expr α} {min length depth : Nat}

/-- Printed where a binding of at least `min` is asked for, the tree has at most `length` tokens
and is nested at most `depth`. -/
structure FitsIn (min : Nat) (e : Expr α) (length depth : Nat) : Prop where
  tokens : (e.encloseTokens min e.tokens).length ≤ length
  nesting : e.encloseNesting min e.nesting ≤ depth

theorem fitsIn_iff : e.FitsIn min length depth ↔
    if e.binding < min then e.tokens.length + 2 ≤ length ∧ e.nesting + 1 ≤ depth
    else e.tokens.length ≤ length ∧ e.nesting ≤ depth := by
  have fields : e.FitsIn min length depth ↔ (e.encloseTokens min e.tokens).length ≤ length ∧
      e.encloseNesting min e.nesting ≤ depth := ⟨fun h => ⟨h.1, h.2⟩, fun h => ⟨h.1, h.2⟩⟩
  rw [fields, encloseTokens, encloseNesting]
  split
  · rw [List.length_append, List.length_cons]
    rfl
  · rfl

namespace FitsIn

variable {looser length' depth' : Nat}

theorem bare (binding : min ≤ e.binding) (tokens : e.tokens.length ≤ length)
    (nesting : e.nesting ≤ depth) : e.FitsIn min length depth := by
  rw [fitsIn_iff, if_neg (Nat.not_lt.mpr binding)]
  exact ⟨tokens, nesting⟩

theorem inside (h : e.FitsIn min length depth) :
    e.tokens.length ≤ length ∧ e.nesting ≤ depth := by
  rw [fitsIn_iff] at h
  split at h <;> omega

/-- Parentheses cost two tokens and one level. -/
theorem enclosed (h : e.FitsIn looser length depth) (min : Nat) :
    e.FitsIn min (length + 2) (depth + 1) := by
  have := h.inside
  rw [fitsIn_iff]
  split <;> omega

theorem mono (h : e.FitsIn min length depth) (le : looser ≤ min) (more : length ≤ length')
    (deeper : depth ≤ depth') : e.FitsIn looser length' depth' := by
  rw [fitsIn_iff] at h ⊢
  split at h <;> split <;> omega

theorem neg (h : e.FitsIn (minusBinding + 1) length depth) :
    (Expr.neg e).FitsIn minusBinding (length + 1) (depth + 1) :=
  bare (Nat.le_refl _) (Nat.succ_le_succ h.tokens) (Nat.succ_le_succ h.nesting)

theorem bin (op : Op) {l r : Expr α} (left : l.FitsIn op.leftMin length depth)
    (right : r.FitsIn op.rightMin length' depth') :
    (Expr.bin op l r).FitsIn op.binding (length + (length' + 1)) (max depth (depth' + 1)) := by
  have tokens := Nat.add_le_add left.tokens (Nat.succ_le_succ right.tokens)
  have nesting := max_le_max left.nesting (Nat.succ_le_succ right.nesting)
  apply bare
  · exact Nat.le_refl op.binding
  · simpa [Expr.tokens] using tokens
  · exact nesting

theorem call (f : Func) (h : e.FitsIn min length depth) :
    (Expr.call f e).FitsIn 4 (length + 3) (depth + 1) := by
  obtain ⟨tokens, nesting⟩ := h.inside
  apply bare
  · exact Nat.le_refl 4
  · simpa [Expr.tokens] using tokens
  · exact Nat.succ_le_succ nesting

end FitsIn

end

end Expr

namespace Place

theorem least_primary (p : Place) : p.least .primary = 4 := by cases p <;> rfl

theorem least_le_binding (p : Place) (op : Op) : p.least op.level ≤ op.binding := by
  cases p <;> cases op <;> decide

theorem least_left (p : Place) (op : Op) : p.least op.left = op.leftMin := by
  cases p <;> cases op <;> rfl

/-- Where an operand on the right stands, only a minus that is stacked needs parentheses. -/
theorem least_right (op : Op) : (after (α := α) operand (.op op)).least op.right = op.rightMin := by
  cases op <;> rfl

theorem after_op_ne_operand (op : Op) : after (α := α) operand (.op op) ≠ operand := by
  cases op <;> nofun

theorem isStacked_operand (t : Token α) : operand.isStacked t = false := by
  cases t with
  | op o => cases o <;> rfl
  | num _ | opening | closing | var _ | func _ => rfl

end Place

/-- The text of a tree needs no more than its source and the parentheses of the stacked signs. -/
theorem Sentence.fitsIn [Arith α] [Numeral α] {level : Level} {ts : List (Token α)} {e : Expr α}
    {n : Nat} (sentence : Sentence level ts e n) {p : Place} (before : p ≠ .operand) :
    e.FitsIn (p.least level) (ts.length + 2 * stackedSigns p ts) (n + stackedSigns p ts) := by
  induction sentence generalizing p with
  | num v | var name =>
    rw [p.least_primary]
    exact .bare (Nat.le_refl 4) (Nat.le_add_right 1 _) (Nat.zero_le _)
  | @group ts e n _ ih =>
    have signs : stackedSigns p (.opening :: ts ++ [.closing]) = stackedSigns .start ts := by
      simp [stackedSigns, stackedSigns_append, Place.after, Place.isStacked]
    rw [signs]
    have inner := @ih .start nofun
    have length : (Token.opening :: ts ++ [Token.closing]).length = ts.length + 2 := by simp
    rw [length]
    exact (inner.enclosed _).mono (Nat.le_refl _) (by omega) (by omega)
  | @call f ts e n _ ih =>
    have signs : stackedSigns p (.func f :: .opening :: ts ++ [.closing]) =
        stackedSigns .start ts := by
      simp [stackedSigns, stackedSigns_append, Place.after, Place.isStacked]
    rw [signs, p.least_primary]
    have inner := @ih .start nofun
    have length : (Token.func f :: .opening :: ts ++ [Token.closing]).length = ts.length + 3 := by
      simp
    rw [length]
    exact (inner.call f).mono (Nat.le_refl 4) (by omega) (by omega)
  | @minus ts e n _ ih =>
    have next : p.after (.op .sub : Token α) = .factor := if_neg before
    have inner := (@ih .factor nofun).neg
    rw [List.length_cons]
    cases p with
    | operand => exact absurd rfl before
    | start =>
      -- the first sign: the tree has no parentheses
      have signs : stackedSigns .start (.op .sub :: ts) = stackedSigns .factor ts := by
        rw [stackedSigns, next]
        simp [Place.isStacked]
      rw [signs]
      exact inner.mono (Nat.le_refl _) (by omega) (by omega)
    | factor =>
      have signs : stackedSigns .factor (.op .sub :: ts) = stackedSigns .factor ts + 1 := by
        rw [stackedSigns, next]
        simp [Place.isStacked, Nat.add_comm]
      rw [signs]
      exact (inner.enclosed _).mono (Nat.le_refl _) (by omega) (by omega)
  | @bin op ts us l r m n first _ left right =>
    have signs : stackedSigns p (ts ++ .op op :: us) =
        stackedSigns p ts + stackedSigns (.after (α := α) .operand (.op op)) us := by
      rw [stackedSigns_append, first.place, stackedSigns, Place.isStacked_operand]
      simp
    rw [signs, List.length_append, List.length_cons]
    have left := left before
    have right := right (Place.after_op_ne_operand (α := α) op)
    rw [Place.least_left] at left
    rw [Place.least_right] at right
    exact (left.bin op right).mono (p.least_le_binding op) (by omega) (by omega)
  | factor _ ih | term _ ih | expr _ ih =>
    exact (ih before).mono (by cases p <;> decide) (Nat.le_refl _) (Nat.le_refl _)

namespace Expr

/-- What was read is printed as a sentence in the same variable. It is read again unless it is
beyond the limit on tokens or on nesting, and then the error says so. It has no more tokens than the
source with its implied products and two for each stacked sign, and is nested no deeper than the
source and one level for each stacked sign. -/
theorem parse_render_of_parse {v input : String} {e : Expr Float}
    (parsed : parse v input = .ok e) (finite : ∀ c ∈ e.literals, c.isFinite = true) :
    Spells (lower v) (squeeze e.render) e.tokens ∧ Sentence .expr e.tokens e.reread e.nesting ∧
    (Piece.ofChars (clean e.render).toList).length = e.tokens.length ∧
    (e.tokens.length ≤ maxTokens → e.nesting < maxDepth → parse v e.render = .ok e.reread) ∧
    (maxTokens < e.tokens.length → ∃ error found,
      parse (α := Float) v e.render = .error error ∧ error.problem = .unexpected found .tooLong) ∧
    (e.tokens.length ≤ maxTokens → maxDepth ≤ e.nesting → ∃ error found,
      parse (α := Float) v e.render = .error error ∧ error.problem = .unexpected found .tooDeep) ∧
    ∃ ts n, tokenize v input = .ok ts ∧ Sentence .expr ts e n ∧ n < maxDepth ∧
      e.tokens.length ≤ ts.length + 2 * stackedSigns .start ts ∧
      e.nesting ≤ n + stackedSigns .start ts := by
  have spells := spells_render_of_parse parsed finite
  obtain ⟨ts, read, accepted⟩ := tokens_of_parse parsed
  obtain ⟨n, shallow, sentence⟩ := sentence_of_ofTokens accepted
  obtain ⟨short, low⟩ := (@Sentence.fitsIn Float _ _ _ _ _ _ sentence .start nofun).inside
  refine ⟨spells, e.sentence_printed, ?_, parse_render_fits rfl spells,
    parse_render_tooLong rfl spells, parse_render_tooDeep rfl spells, ts, n, read, sentence,
    shallow, short, low⟩
  rw [toList_clean spells.isSmall]
  exact spells.reads.length_eq

theorem parse_render_of_parse_signs : ∃ e : Expr Float, parse "X" "--2X" = .ok e ∧
    e.render = "-(-2)*x" ∧ (∀ c ∈ e.literals, c.isFinite = true) ∧
      parse "X" "-(-2)*x" = .ok e.reread := by
  have parsed : parse "X" "--2X" =
      .ok (.bin .mul (.neg (.neg (.num 2))) (.var "x") : Expr Float) := by
    decide +kernel
  have finite : ∀ c ∈ (.bin .mul (.neg (.neg (.num 2))) (.var "x") : Expr Float).literals,
      c.isFinite = true := by
    decide +kernel
  have text : (.bin .mul (.neg (.neg (.num 2))) (.var "x") : Expr Float).render = "-(-2)*x" := by
    decide +kernel
  obtain ⟨_, _, _, accepted, _⟩ := parse_render_of_parse parsed finite
  refine ⟨_, parsed, text, finite, ?_⟩
  rw [← text]
  exact accepted (by decide) (by decide)

/-! ## Texts beyond the limits -/

/-- A variable with `n` minuses. -/
def minuses : Nat → Expr α
  | 0 => var "x"
  | n + 1 => neg (minuses n)

theorem literals_product (n : Nat) : (product n : Expr α).literals = [] := by
  induction n with
  | zero => rfl
  | succ n ih => simp [product, literals, ih]

theorem length_tokens_product [Arith α] [Numeral α] (n : Nat) :
    (product n : Expr α).tokens.length = 2 * n + 1 := by
  induction n with
  | zero => rfl
  | succ n ih =>
    have bare : (product n : Expr α).encloseTokens 2 (product n).tokens = (product n).tokens := by
      cases n <;> rfl
    change (((product n).encloseTokens 2 (product n).tokens) ++ [_, _]).length = _
    rw [bare, List.length_append, ih]
    rfl

/-- The parentheses of 32 stacked minuses go beyond the nesting, and the products that a word of
1025 variables implies go beyond the number of tokens. -/
theorem parse_render_refused :
    (∃ e : Expr Float, parse "x" "---------------------------------x" = .ok e ∧
      e.literals = [] ∧ ∃ error found, parse (α := Float) "x" e.render = .error error ∧
        error.problem = .unexpected found .tooDeep) ∧
    ∃ e : Expr Float, parse "x" (longWord 1024) = .ok e ∧
      e.literals = [] ∧ ∃ error found, parse (α := Float) "x" e.render = .error error ∧
        error.problem = .unexpected found .tooLong := by
  have parsed : parse "x" "---------------------------------x" =
      .ok (minuses 33 : Expr Float) := by
    decide +kernel
  constructor
  · have spells := spells_render_of_parse parsed (by nofun)
    exact ⟨_, parsed, rfl, parse_render_tooDeep rfl spells (by decide) (by decide)⟩
  · have literals := literals_product (α := Float) 1024
    have spells := spells_render_of_parse (parse_longWord 1024) (by rw [literals]; nofun)
    refine ⟨_, parse_longWord 1024, literals, parse_render_tooLong rfl spells ?_⟩
    rw [length_tokens_product]
    decide

end Expr

end Univariate

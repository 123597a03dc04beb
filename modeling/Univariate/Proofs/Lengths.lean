import Univariate.Number.Double
import Univariate.Proofs.Lexemes
import Univariate.Proofs.Parsing
import Univariate.Proofs.Neighbours

/-!
# How much is accepted

The limit on the number of tokens is looked at once for each piece, and a piece is one token unless
it is a word. So the last piece may go over the limit by the names that its word is made of, and
nothing else does: the writing out of products at most doubles the tokens, and a tree has no more
nodes than its sentence has tokens. Where no word is made of many names all walks over accepted
trees are short. A single long word of variables is accepted at every length.
-/
namespace Univariate

open Text

variable {α : Type}

namespace Expr

/-- The number of nodes. -/
def size : Expr α → Nat
  | num _ | var _ => 1
  | neg e | call _ e => e.size + 1
  | bin _ l r => l.size + r.size + 1

theorem one_le_size (e : Expr α) : 1 ≤ e.size := by
  cases e with
  | num _ | var _ => exact Nat.le_refl 1
  | neg _ | call _ _ | bin _ _ _ => exact Nat.succ_le_succ (Nat.zero_le _)

/-- How deep a walk over the tree goes. -/
def height : Expr α → Nat
  | num _ | var _ => 1
  | neg e | call _ e => e.height + 1
  | bin _ l r => max l.height r.height + 1

theorem height_le_size (e : Expr α) : e.height ≤ e.size := by
  induction e with
  | num _ | var _ => exact Nat.le_refl 1
  | neg e ih | call f e ih => exact Nat.succ_le_succ ih
  | bin op l r left right =>
    simp only [height, size]
    omega

end Expr

/-- Each node of the tree has a token of its own. -/
theorem Sentence.size_le_length {level : Level} {ts : List (Token α)} {e : Expr α} {n : Nat}
    (sentence : Sentence level ts e n) : e.size ≤ ts.length := by
  induction sentence with
  | num _ | var _ => exact Nat.le_refl 1
  | group _ ih =>
    simp only [List.length_cons, List.length_append]
    omega
  | call f _ ih =>
    simp only [Expr.size, List.length_cons, List.length_append]
    omega
  | minus _ ih => exact Nat.succ_le_succ ih
  | bin op _ _ left right =>
    simp only [Expr.size, List.length_cons, List.length_append]
    omega
  | factor _ ih | term _ ih | expr _ ih => exact ih

namespace Lexer

/-- At most one product is written out between two neighbours. -/
theorem length_insertProducts_le {ts : List (Token α)} (some_token : ts ≠ []) :
    (insertProducts ts).length + 1 ≤ 2 * ts.length := by
  fun_induction insertProducts ts with
  | case1 t u ts _ ih | case2 t u ts _ ih =>
    have := ih (List.cons_ne_nil u ts)
    simp only [List.length_cons] at this ⊢
    omega
  | case3 ts single =>
    have := List.length_pos_iff.mpr some_token
    omega

/-- Every name takes a letter. -/
theorem Split.length_le {v : String} {letters : List Char} {names : List Name}
    (split : Split v letters names) : names.length ≤ letters.length := by
  induction split with
  | nil => exact Nat.le_refl 0
  | cons found _ ih =>
    have := List.length_pos_iff.mpr (text_ne_nil_of_name? found)
    rw [List.length_cons, List.length_append]
    omega

/-- No word of the text is made of more than `w` names. -/
def NamesAtMost (v : String) (w : Nat) (pieces : List Piece) : Prop :=
  ∀ c cs names, .word c cs ∈ pieces → Split v (c :: cs) names → names.length ≤ w

variable [Numeral α] {v input : String} {w : Nat} {pieces : List Piece} {ts : List (Token α)}

theorem NamesAtMost.tail {p : Piece} (h : NamesAtMost v w (p :: pieces)) :
    NamesAtMost v w pieces :=
  fun c cs names word => h c cs names (List.mem_cons_of_mem p word)

/-- A piece is one token, or a word and the names it is made of. -/
theorem length_tokens_le {p : Piece} {offset : Nat} (names : NamesAtMost v w (p :: pieces))
    (some_name : 1 ≤ w) (h : tokens v offset p = .ok ts) : ts.length ≤ w := by
  obtain ⟨c, cs, ns, rfl, split, rfl⟩ | ⟨l, _, rfl⟩ := tokens_cases h
  · rw [List.length_map]
    exact names c cs ns List.mem_cons_self split
  · exact some_name

/-- Before each piece there are fewer tokens than the limit, so only the last piece exceeds it. -/
theorem length_scan_lt {offset count : Nat} (names : NamesAtMost v w pieces) (some_name : 1 ≤ w)
    (h : scan v offset count pieces = .ok ts) (some_token : ts ≠ []) :
    count + ts.length < maxTokens + w := by
  induction pieces generalizing offset count ts with
  | nil =>
    cases h
    exact absurd rfl some_token
  | cons p pieces ih =>
    obtain ⟨room, us, rest, first, later, rfl⟩ := scan_cons_cases h
    have short := length_tokens_le names some_name first
    cases rest with
    | nil =>
      rw [List.append_nil]
      omega
    | cons t rest =>
      have := ih names.tail later (List.cons_ne_nil t rest)
      rw [List.length_append]
      omega

theorem length_tokenize_le (names : NamesAtMost (lower v) w (Piece.ofChars (clean input).toList))
    (some_name : 1 ≤ w) (h : tokenize v input = .ok ts) :
    ts.length ≤ 2 * (maxTokens - 1 + w) - 1 := by
  obtain ⟨us, scanned, rfl⟩ := scan_of_tokenize h
  by_cases empty : us = []
  · subst empty
    exact Nat.zero_le _
  · have few := length_scan_lt names some_name scanned empty
    have twice := length_insertProducts_le empty
    omega

end Lexer

namespace Expr

variable [Numeral α] {v input : String} {w : Nat} {e : Expr α}

/-- A parsed tree has no more nodes than its text has tokens. -/
theorem exists_tokens_of_parse (h : parse v input = .ok e) :
    ∃ ts : List (Token α), Lexer.tokenize v input = .ok ts ∧ e.size ≤ ts.length := by
  obtain ⟨ts, read, parsed⟩ := tokens_of_parse h
  obtain ⟨n, _, sentence⟩ := sentence_of_ofTokens parsed
  exact ⟨ts, read, sentence.size_le_length⟩

end Expr

/-! ## One long word -/

/-- The text of `n + 1` variables. -/
def longWord (n : Nat) : String := String.ofList (List.replicate (n + 1) 'x')

namespace Lexer

/-- The variables with the products between them. -/
def factors (n : Nat) : List (Token α) :=
  .var "x" :: (List.replicate n [.op .mul, .var "x"]).flatten

theorem length_factors (n : Nat) : (factors n : List (Token α)).length = 2 * n + 1 := by
  simp [factors, Nat.mul_comm]

theorem name?_longWord (cs : List Char) : name? "x" ('x' :: cs) = some (.var "x") := rfl

theorem splitWord_longWord (offset n : Nat) :
    splitWord (α := α) "x" offset 0 (List.replicate n 'x') = .ok (List.replicate n (.var "x")) := by
  induction n generalizing offset with
  | zero => rfl
  | succ n ih =>
    have := @splitWord_name α "x" (.var "x") (List.replicate n 'x') (by decide)
      (name?_longWord _) offset
    rw [List.replicate_succ]
    refine this.trans ?_
    rw [ih]
    rfl

theorem insertProducts_longWord (n : Nat) :
    insertProducts (List.replicate (n + 1) (.var "x" : Token α)) = factors n := by
  induction n with
  | zero => rfl
  | succ n ih =>
    have implied : isProduct (.var "x" : Token α) (.var "x") = true := rfl
    rw [List.replicate_succ, List.replicate_succ, insertProducts, if_pos implied,
      ← List.replicate_succ, ih]
    rfl

end Lexer

namespace Expr

/-- The product of `n + 1` variables. -/
def product : Nat → Expr α
  | 0 => var "x"
  | n + 1 => bin .mul (product n) (var "x")

theorem size_product (n : Nat) : (product n : Expr α).size = 2 * n + 1 := by
  induction n with
  | zero => rfl
  | succ n ih =>
    simp only [product, size, ih]
    omega

theorem height_product (n : Nat) : (product n : Expr α).height = n + 1 := by
  induction n with
  | zero => rfl
  | succ n ih =>
    simp only [product, height, ih]
    omega

/-- Products group to the left, so the nesting does not grow. -/
theorem sentence_product (n : Nat) : ∃ k ≤ 1,
    Sentence .term (Lexer.factors n) (product n : Expr α) k := by
  induction n with
  | zero => exact ⟨0, Nat.zero_le 1, (Sentence.var "x").factor.term⟩
  | succ n ih =>
    obtain ⟨k, low, sentence⟩ := ih
    refine ⟨max k 1, by omega, ?_⟩
    have whole : Sentence .term _ _ _ := sentence.bin .mul (Sentence.var "x").factor
    simpa [Lexer.factors, List.replicate_succ', product] using whole

end Expr

variable [Numeral α]

open Lexer

theorem Lexer.tokenize_longWord (n : Nat) :
    tokenize "x" (longWord n) = .ok (factors n : List (Token α)) := by
  have letters : ∀ c ∈ List.replicate (n + 1) 'x', c = 'x' := fun c hc =>
    List.eq_of_mem_replicate hc
  have alphabetic : isAlphabetic 'x' = true := by decide +kernel
  have squeezed : squeeze (longWord n) = List.replicate (n + 1) 'x' := by
    rw [longWord, squeeze_eq_toList, String.toList_ofList]
    intro c hc
    rw [String.toList_ofList] at hc
    rw [letters c hc]
    exact isBlank_eq_false_of_isAlphabetic alphabetic
  have cleaned : (clean (longWord n)).toList = List.replicate (n + 1) 'x' := by
    rw [toList_clean, squeezed]
    intro c hc
    rw [squeezed] at hc
    rw [letters c hc]
    decide +kernel
  have word : Piece.ofChars (List.replicate (n + 1) 'x') = [.word 'x' (List.replicate n 'x')] :=
    Piece.ofChars_word fun c hc => by rw [letters c hc]; exact alphabetic
  have same : lower "x" = "x" := by decide +kernel
  have read : scan "x" 0 0 (Piece.ofChars (clean (longWord n)).toList) =
      .ok (List.replicate (n + 1) (.var "x") : List (Token α)) := by
    rw [cleaned, word, scan, if_neg (by decide), tokens, ← List.replicate_succ, splitWord_longWord]
    simp [scan, bind, Except.bind, pure, Except.pure]
  simp only [tokenize, same, read, insertProducts_longWord]

namespace Expr

/-- A word is accepted at every length, with a tree that is as high. -/
theorem parse_longWord (n : Nat) : parse "x" (longWord n) = .ok (product n : Expr α) := by
  obtain ⟨k, low, sentence⟩ := sentence_product (α := α) n
  have shallow : k < maxDepth := Nat.lt_of_le_of_lt low (by decide)
  simp only [parse, tokenize_longWord, bind, Except.bind,
    ofTokens_sentence sentence.expr shallow]

/-- What is accepted is bounded by the limit on tokens and the names of the longest word. Where
every word is a single name, that is less than twice the limit. -/
theorem bounded_of_namesAtMost {v input : String} {w : Nat}
    (names : NamesAtMost (lower v) w (Piece.ofChars (clean input).toList)) (some_name : 1 ≤ w) :
    (∀ ts : List (Token α), tokenize v input = .ok ts →
      ts.length ≤ 2 * (maxTokens - 1 + w) - 1) ∧
    ∀ e : Expr α, parse v input = .ok e →
      e.size ≤ 2 * (maxTokens - 1 + w) - 1 ∧ e.height ≤ 2 * (maxTokens - 1 + w) - 1 := by
  refine ⟨fun ts read => length_tokenize_le names some_name read, fun e parsed => ?_⟩
  obtain ⟨ts, read, nodes⟩ := exists_tokens_of_parse parsed
  have short := length_tokenize_le names some_name read
  exact ⟨nodes.trans short, e.height_le_size.trans (nodes.trans short)⟩

theorem bounded_of_namesAtMost_single :
    NamesAtMost (lower "X") 1 (Piece.ofChars (clean "2X + x^2").toList) ∧
      ∃ e : Expr Float, parse "X" "2X + x^2" = .ok e ∧ e.size = 7 ∧ e.size ≤ 2 * maxTokens - 1 := by
  have pieces : Piece.ofChars (clean "2X + x^2").toList =
      [.number '2' [], .word 'x' [], .single '+', .word 'x' [], .single '^', .number '2' []] := by
    decide +kernel
  have names : NamesAtMost (lower "X") 1 (Piece.ofChars (clean "2X + x^2").toList) := by
    rw [pieces]
    intro c cs names word split
    obtain rfl : cs = [] := by simp_all
    exact split.length_le
  have parsed : parse "X" "2X + x^2" = .ok (.bin .add (.bin .mul (.num 2) (.var "x"))
      (.bin .pow (.var "x") (.num 2)) : Expr Float) := by decide +kernel
  exact ⟨names, _, parsed, rfl, ((bounded_of_namesAtMost names (Nat.le_refl 1)).2 _ parsed).1⟩

/-- One word of 2049 variables goes over the bound, and no bound holds for all words. -/
theorem exceeds_bound :
    (∃ (ts : List (Token Float)) (e : Expr Float),
      tokenize "x" (longWord 2048) = .ok ts ∧ parse "x" (longWord 2048) = .ok e ∧
        2 * maxTokens - 1 < ts.length ∧ 2 * maxTokens - 1 < e.size) ∧
    ∀ n, ∃ (input : String) (e : Expr Float), parse "x" input = .ok e ∧ n < e.height := by
  refine ⟨⟨_, _, tokenize_longWord 2048, parse_longWord 2048, ?_, ?_⟩,
    fun n => ⟨_, _, parse_longWord n, ?_⟩⟩
  · rw [length_factors]
    decide
  · rw [size_product]
    decide
  · rw [height_product]
    exact Nat.lt_succ_self n

end Expr

end Univariate

import Univariate.Proofs.NormalForms
import Univariate.Proofs.Retokenizing

/-!
# The tokens of an answer

The lexer and the comparison of answers go through a text separately, and they agree on it. Both
make powers of the same stars, and the products that the lexer writes out are those that normal
forms leave out. So the texts of all tokens of an answer, one after the other, are the same answer.
Only numbers may come out otherwise than they were spelled: `0.50` is printed as `0.5`.
-/
namespace Univariate

open Lexer Text

variable {α : Type} [Numeral α] {v : String}

/-- The lexeme is spelled as its token is printed. -/
def Lexeme.IsPlain (α : Type) [Numeral α] (l : Lexeme v) : Prop :=
  l.chars = (l.token : Token α).text.toList

/-- All lexemes but numbers have one spelling. -/
theorem Lexeme.isPlain_of_not_number {l : Lexeme v} (h : l.isNumber = false) : l.IsPlain α := by
  cases l with
  | number _ _ _ => cases h
  | var _ | func _ | op _ => rfl
  | opening => exact show ['('] = "(".toList by decide
  | closing => exact show [')'] = ")".toList by decide

theorem Lexeme.spell_eq_join {ls : List (Lexeme v)} (plain : ∀ l ∈ ls, l.IsPlain α) :
    spell ls = (String.join ((ls.map (token (α := α))).map Token.text)).toList := by
  induction ls with
  | nil => rfl
  | cons l ls ih =>
    obtain ⟨first, others⟩ := List.forall_mem_cons.mp plain
    rw [spell_cons, ih others, first, List.map_cons, List.map_cons, String.join_cons,
      String.toList_append]

/-- Powers are merged where a lexeme with two stars stands, since a star by itself is not followed
by another one. -/
theorem Written.MaximalMunch.mergePowers_text {ws : List (Written v)} (munch : MaximalMunch ws) :
    Answer.mergePowers (text ws) = Lexeme.spell (ws.map lexeme) := by
  induction ws with
  | nil => rfl
  | cons w ws ih =>
    obtain ⟨greedy, later⟩ := munch
    obtain ⟨l, chars, rfl | ⟨rfl, rfl⟩⟩ := w
    · have first : Answer.mergePowers l.chars = l.chars ∧
          (l.chars.getLast? = some '*' → (text ws).head? ≠ some '*') := by
        by_cases mul : l = .op .mul
        · subst mul
          exact ⟨rfl, fun _ => greedy⟩
        · have noStar : '*' ∉ l.chars := Lexeme.star_not_mem mul
          exact ⟨Answer.mergePowers_eq_self noStar,
            fun last => absurd (List.mem_of_getLast? last) noStar⟩
      rw [text_cons, Answer.mergePowers_append first.2, first.1, ih later]
      rfl
    · change Answer.mergePowers ('*' :: '*' :: text ws) = '^' :: Lexeme.spell (ws.map lexeme)
      rw [Answer.mergePowers, ih later]

/-- The products that are written out are the only stars more. -/
theorem Token.filter_insertProducts (ts : List (Token α)) :
    (String.join ((insertProducts ts).map text)).toList.filter (· ≠ '*') =
      (String.join (ts.map text)).toList.filter (· ≠ '*') := by
  fun_induction insertProducts ts with
  | case1 t u ts _ ih =>
    have mul : (Token.op .mul : Token α).text.toList = ['*'] := show "*".toList = ['*'] by decide
    simp only [List.map_cons, String.join_cons, String.toList_append, List.filter_append,
      mul] at ih ⊢
    rw [ih]
    rfl
  | case2 t u ts _ ih =>
    simp only [List.map_cons, String.join_cons, String.toList_append, List.filter_append] at ih ⊢
    rw [ih]
  | case3 ts _ => rfl

namespace Answer

/-- Each numeral of the text is spelled as its value is printed. -/
def PlainNumerals (α : Type) [Numeral α] (cs : List Char) : Prop :=
  ∀ c ds, Piece.number c ds ∈ Piece.ofChars cs → ∀ d, Decimal.ofChars? (c :: ds) = some d →
    (Numeral.text (Numeral.ofDecimal d : α)).toList = c :: ds

theorem PlainNumerals.isPlain {cs : List Char} (plain : PlainNumerals α cs) {w : Written v}
    {p : Piece} (member : p ∈ Piece.ofChars cs) (reads : w.ReadsIn p) : w.lexeme.IsPlain α := by
  obtain ⟨l, chars, spells⟩ := w
  obtain word | piece := reads
  · refine Lexeme.isPlain_of_not_number ?_
    cases l with
    | number _ _ _ => cases word
    | var _ | func _ | op _ | opening | closing => rfl
  · cases piece with
    | number written => exact (plain _ _ member _ written).symm
    | power | op _ | opening | closing => exact Lexeme.isPlain_of_not_number rfl

/-- Neither text has two stars left when its powers are merged: the products that are written out
stand between operands. -/
theorem mergePowers_join_text {ws : List (Written (lower v))} (munch : Written.MaximalMunch ws)
    (plain : ∀ w ∈ ws, w.lexeme.IsPlain α) :
    let text := String.join ((insertProducts (ws.map Written.token)).map (Token.text (α := α)))
    mergePowers (clean text).toList = text.toList := by
  have prints : ∀ t ∈ insertProducts (ws.map Written.token), ∃ l : Lexeme (lower v),
      l.token = t ∧ l.chars = (t : Token α).text.toList := by
    intro t ht
    rcases mem_insertProducts ht with known | rfl
    · obtain ⟨w, hw, rfl⟩ := List.mem_map.mp known
      exact ⟨w.lexeme, rfl, plain w hw⟩
    · exact ⟨.op .mul, rfl, rfl⟩
  obtain ⟨ms, tokens, spelled⟩ := Lexeme.exists_spell prints
  have apart : Token.Munch (lower v) (ms.map (Lexeme.token (α := α))) := by
    rw [tokens]
    exact munch.munch.insertProducts
  have lexemes : (ms.map Written.ofLexeme).map Written.lexeme = ms :=
    List.map_map.trans (List.map_id ms)
  dsimp only
  rw [Lexeme.toList_clean_spell (lower_lower v) spelled, ← Written.text_ofLexeme,
    (Written.maximalMunch_ofLexeme apart).mergePowers_text, lexemes, spelled]

variable {input : String} {ts : List (Token α)}

theorem normalize_join_text (read : tokenize v input = .ok ts)
    (plain : PlainNumerals α (clean input).toList) :
    normalize (String.join (ts.map Token.text)) = normalize input := by
  obtain ⟨ws, written, munch, rfl, reads⟩ := exists_reads_of_tokenize read
  have plainly : ∀ w ∈ ws, w.lexeme.IsPlain α := by
    intro w hw
    obtain ⟨p, member, readsIn⟩ := reads w hw
    exact plain.isPlain member readsIn
  have merged : mergePowers (clean input).toList =
      (String.join ((ws.map (Written.token (α := α))).map Token.text)).toList := by
    rw [← written, munch.mergePowers_text, Lexeme.spell_eq_join (List.forall_mem_map.mpr plainly),
      List.map_map (f := Written.lexeme)]
    rfl
  rw [normalize, normalize, normalChars, normalChars, merged, mergePowers_join_text munch plainly,
    Token.filter_insertProducts]

/-- An answer whose numerals are spelled as they are printed has the normal form of the text of its
tokens. So the two are the same, no comparison with another answer tells them apart, and the other
answer is the same exactly when that is its normal form too. -/
theorem isSame_join_text (read : tokenize v input = .ok ts)
    (plain : PlainNumerals α (clean input).toList) :
    normalize (String.join (ts.map Token.text)) = normalize input ∧
      isSame input (String.join (ts.map Token.text)) = true ∧
      ∀ other, isSame (String.join (ts.map Token.text)) other = isSame input other ∧
        (isSame input other = true ↔
          normalize (String.join (ts.map Token.text)) = normalize other) := by
  have same := normalize_join_text read plain
  refine ⟨same, isSame_iff.mpr same.symm, fun other => ⟨?_, ?_⟩⟩
  · rw [isSame, isSame, same]
  · rw [isSame_iff, same]

theorem isSame_join_text_products :
    let ts : List (Token Float) := [.num (Numeral.ofDecimal ⟨2, 0⟩), .op .mul, .func .sin,
      .opening, .var "x", .closing, .op .mul, .var "x", .op .pow, .num (Numeral.ofDecimal ⟨3, 0⟩)]
    tokenize "X" "2 Sin(X)X**3" = .ok ts ∧
      PlainNumerals Float (clean "2 Sin(X)X**3").toList ∧
      String.join (ts.map Token.text) = "2*sin(x)*x^3" ∧
      normalize "2 Sin(X)X**3" = "2·sin(x)x^3" ∧ normalize "2*sin(x)*x^3" = "2·sin(x)x^3" ∧
      isSame "2 Sin(X)X**3" "2*sin(x)*x^3" = true ∧
      ∀ other, isSame "2*sin(x)*x^3" other = isSame "2 Sin(X)X**3" other ∧
        (isSame "2 Sin(X)X**3" other = true ↔ "2·sin(x)x^3" = normalize other) := by
  intro ts
  have read : tokenize "X" "2 Sin(X)X**3" = .ok ts := by rfl
  have plain : PlainNumerals Float (clean "2 Sin(X)X**3").toList := by
    have pieces : Piece.ofChars (clean "2 Sin(X)X**3").toList =
        [.number '2' [], .word 's' ['i', 'n'], .single '(', .word 'x' [], .single ')',
          .word 'x' [], .power, .number '3' []] := by
      rfl
    intro c ds number d value
    have digits : c = '2' ∧ ds = [] ∨ c = '3' ∧ ds = [] := by
      simpa [pieces] using number
    obtain ⟨rfl, rfl⟩ | ⟨rfl, rfl⟩ := digits
    · cases value
      decide +kernel
    · cases value
      decide +kernel
  have text : String.join (ts.map Token.text) = "2*sin(x)*x^3" := by decide +kernel
  have normal : normalize "2 Sin(X)X**3" = "2·sin(x)x^3" := by decide +kernel
  have agreed := isSame_join_text read plain
  rw [text, normal] at agreed
  obtain ⟨form, same, others⟩ := agreed
  rw [form] at others
  exact ⟨read, plain, text, normal, form, same, others⟩

end Answer

end Univariate

import Univariate.Proofs.MissingOperators
import Univariate.Proofs.Remunching
import Univariate.Proofs.Reprinting

/-!
# Tokens are read back

The texts of all tokens of a text, one after the other, are a text with the same tokens. Its numbers
and powers may be written otherwise and its products are written out, but each lexeme is still as
long as it can be. A name could only get longer with more letters after it, and there are at most
those that were there before: a product ends the letters, and nothing else is put between them.
-/
namespace Univariate

open Lexer Text
open Float.Model (UnpackedFloat)

variable {α : Type} {v : String}

/-- The longest name is still the longest with fewer letters after it. -/
theorem Name.IsLongest.of_fewer (name : Name) {more fewer : List Char}
    (h : IsLongest v (name.text.toList ++ more) name) (le : fewer <+: more) :
    IsLongest v (name.text.toList ++ fewer) name := by
  have front := (List.prefix_append_right_inj name.text.toList).mpr le
  exact ⟨h.known, List.prefix_append _ _,
    fun other known starts => h.longest other known (starts.trans front),
    fun f starts => h.tie f (starts.trans front)⟩

namespace Token

/-! ## Tokens whose text is no longer in the text of all -/

/-- The letters that the text of tokens begins with. -/
def letters : List (Token α) → List Char
  | var name :: ts => name.toList ++ letters ts
  | func f :: ts => f.name.toList ++ letters ts
  | _ => []

/-- In front of the others the text of the token is not part of a longer one. -/
def IsGreedy (v : String) (t : Token α) (ts : List (Token α)) : Prop :=
  match t with
  | num _ => ∀ u ∈ ts.head?, u.kind ≠ .num
  | op .mul => ts.head? ≠ some (op .mul)
  | var name => Name.IsLongest v (letters (t :: ts)) (.var name)
  | func f => Name.IsLongest v (letters (t :: ts)) (.func f)
  | op _ | opening | closing => True

def Munch (v : String) : List (Token α) → Prop
  | [] => True
  | t :: ts => t.IsGreedy v ts ∧ Munch v ts

theorem letters_insertProducts (ts : List (Token α)) :
    letters (insertProducts ts) <+: letters ts := by
  fun_induction insertProducts ts with
  | case1 t u ts product _ =>
    cases t with
    | var name | func f => exact List.prefix_append_right_inj _ |>.mpr List.nil_prefix
    | num _ | op _ | opening | closing => exact List.nil_prefix
  | case2 t u ts _ ih =>
    cases t with
    | var name | func f => exact List.prefix_append_right_inj _ |>.mpr ih
    | num _ | op _ | opening | closing => exact List.nil_prefix
  | case3 ts _ => exact List.prefix_refl _

theorem IsGreedy.of_fewer {t : Token α} {ts us : List (Token α)} (greedy : t.IsGreedy v ts)
    (head : us.head? = ts.head?) (fewer : letters us <+: letters ts) : t.IsGreedy v us := by
  cases t with
  | num c => exact fun u hu => greedy u (head ▸ hu)
  | op o =>
    cases o with
    | mul => exact fun next => greedy (head ▸ next)
    | add | sub | div | pow => trivial
  | var name => exact Name.IsLongest.of_fewer (.var name) greedy fewer
  | func f => exact Name.IsLongest.of_fewer (.func f) greedy fewer
  | opening | closing => trivial

/-- A factor may be followed by the sign of the product, which ends its letters. -/
theorem IsGreedy.mul {t u : Token α} {ts us : List (Token α)} (greedy : t.IsGreedy v ts)
    (product : isProduct t u = true) : t.IsGreedy v (op .mul :: us) := by
  cases t with
  | num c =>
    intro x hx
    cases hx
    exact nofun
  | var name => exact Name.IsLongest.of_fewer (.var name) greedy List.nil_prefix
  | op _ | func _ => cases product
  | opening | closing => trivial

/-- The products that are written out keep the tokens apart. -/
theorem Munch.insertProducts {ts : List (Token α)} (munch : Munch v ts) :
    Munch v (insertProducts ts) := by
  fun_induction Lexer.insertProducts ts with
  | case1 t u ts product ih =>
    refine ⟨munch.1.mul product, ?_, ih munch.2⟩
    intro next
    rw [head?_insertProducts, List.head?_cons, Option.some.injEq] at next
    rw [next, isProduct_op_right] at product
    cases product
  | case2 t u ts _ ih =>
    exact ⟨munch.1.of_fewer (head?_insertProducts _) (letters_insertProducts _), ih munch.2⟩
  | case3 ts _ => exact munch

end Token

/-! ## Between written lexemes and tokens -/

namespace Written

open Token

variable [Numeral α]

theorem takeWhile_text (ws : List (Written v)) :
    (text ws).takeWhile isAlphabetic = letters (ws.map (token (α := α))) := by
  induction ws with
  | nil => rfl
  | cons w ws ih =>
    cases word : w.lexeme.isWord with
    | true =>
      have run : ∀ c ∈ w.chars, isAlphabetic c = true := fun c hc => by
        rw [isAlphabetic_of_mem hc, word]
      rw [text_cons, List.takeWhile_append_of_pos run, ih]
      obtain ⟨l, chars, spells⟩ := w
      cases l with
      | var isName =>
        rw [chars_eq (w := ⟨_, chars, spells⟩) nofun]
        rfl
      | func f =>
        rw [chars_eq (w := ⟨_, chars, spells⟩) nofun]
        rfl
      | number _ _ _ | op _ | opening | closing => cases word
    | false =>
      have stop : ∀ c ∈ (text (w :: ws)).head?, isAlphabetic c = false :=
        isAlphabetic_of_mem_head? fun m hm => by
          cases hm
          exact word
      rw [← List.nil_append (text (w :: ws)), takeWhile_append (List.forall_mem_nil _) stop]
      obtain ⟨l, chars, spells⟩ := w
      cases l with
      | number _ _ _ | op _ | opening | closing => rfl
      | var _ | func _ => cases word

theorem isGreedy_token {w : Written v} {ws : List (Written v)} (greedy : w.IsGreedy (text ws)) :
    (w.token (α := α)).IsGreedy v (ws.map token) := by
  have letters := takeWhile_text (α := α) (w :: ws)
  rw [text_cons] at letters
  obtain ⟨l, chars, spells⟩ := w
  cases l with
  | number digits value reads =>
    intro u hu
    cases ws with
    | nil => cases hu
    | cons m ws =>
      cases hu
      exact fun num => notBothNum_of_isGreedy (α := α) greedy ⟨rfl, num⟩
  | var isName | func f =>
    have longest : Name.IsLongest v ((chars ++ text ws).takeWhile isAlphabetic) _ := greedy
    rw [letters] at longest
    exact longest
  | op o =>
    cases o with
    | mul =>
      intro next
      cases ws with
      | nil => cases next
      | cons m ws =>
        obtain ⟨l, chars', spells'⟩ := m
        cases l with
        | op o =>
          cases next
          rw [text_cons, chars_eq (w := ⟨_, chars', spells'⟩) nofun] at greedy
          exact greedy rfl
        | number _ _ _ | var _ | func _ | opening | closing => cases next
    | add | sub | div | pow => trivial
  | opening | closing => trivial

theorem MaximalMunch.munch {ws : List (Written v)} (munch : MaximalMunch ws) :
    Munch v (ws.map (token (α := α))) := by
  induction ws with
  | nil => trivial
  | cons w ws ih => exact ⟨isGreedy_token munch.1, ih munch.2⟩

/-- A lexeme in its own spelling. -/
def ofLexeme (l : Lexeme v) : Written v := ⟨l, l.chars, .inl rfl⟩

theorem text_ofLexeme (ls : List (Lexeme v)) : text (ls.map ofLexeme) = Lexeme.spell ls :=
  List.flatMap_map ofLexeme chars ls

theorem map_token_ofLexeme (ls : List (Lexeme v)) :
    (ls.map ofLexeme).map (token (α := α)) = ls.map Lexeme.token := List.map_map

theorem isGreedy_ofLexeme {l : Lexeme v} {ls : List (Lexeme v)}
    (greedy : (l.token : Token α).IsGreedy v (ls.map Lexeme.token)) :
    (ofLexeme l).IsGreedy (Lexeme.spell ls) := by
  have letters := takeWhile_text (α := α) ((l :: ls).map ofLexeme)
  rw [text_ofLexeme, map_token_ofLexeme] at letters
  cases l with
  | number digits value reads =>
    intro c hc
    cases ls with
    | nil => cases hc
    | cons m ls =>
      rw [Lexeme.spell_cons, List.head?_append_of_ne_nil _ m.chars_ne_nil] at hc
      rw [Lexeme.isNumeric_of_mem (List.mem_of_mem_head? hc), m.isNumber_eq (α := α)]
      exact decide_eq_false (greedy _ rfl)
  | var isName =>
    change Name.IsLongest v ((Lexeme.spell (.var isName :: ls)).takeWhile isAlphabetic) (.var v)
    rw [letters]
    exact greedy
  | func f =>
    change Name.IsLongest v ((Lexeme.spell (.func f :: ls)).takeWhile isAlphabetic) (.func f)
    rw [letters]
    exact greedy
  | op o =>
    cases o with
    | mul =>
      intro star
      cases ls with
      | nil => cases star
      | cons m ls =>
        rw [Lexeme.spell_cons, List.head?_append_of_ne_nil _ m.chars_ne_nil] at star
        have member : '*' ∈ m.chars := List.mem_of_mem_head? star
        have sign := Lexeme.sign?_of_mem member (Lexeme.isNumeric_of_mem member).symm
          (Lexeme.isAlphabetic_of_mem member).symm
        obtain rfl : .op .mul = m := Option.some.inj sign
        exact greedy rfl
    | add | sub | div | pow => trivial
  | opening | closing => trivial

theorem maximalMunch_ofLexeme {ls : List (Lexeme v)}
    (munch : Munch v (ls.map (Lexeme.token (α := α)))) : MaximalMunch (ls.map ofLexeme) := by
  induction ls with
  | nil => trivial
  | cons l ls ih =>
    refine ⟨?_, ih munch.2⟩
    rw [text_ofLexeme]
    exact isGreedy_ofLexeme munch.1

end Written

/-! ## The text of tokens -/

namespace Lexeme

theorem isSmall_of_mem (same : lower v = v) {l : Lexeme v} {c : Char} (h : c ∈ l.chars) :
    IsSmall c := by
  cases l with
  | number digits value reads =>
    exact Piece.isSmall_of_isNumeric ((Decimal.isNumeric_of_ofChars? reads).2 c h)
  | var isName => exact IsVariable.isSmall ⟨isName, same⟩ c h
  | func f => exact f.isSmall_of_mem_name c h
  | op o =>
    obtain ⟨d, symbol, sign⟩ := IsSign.op (α := Float) v o
    obtain rfl : c = d := List.mem_singleton.mp (symbol ▸ h)
    exact sign.isSmall
  | opening | closing =>
    obtain rfl := List.mem_singleton.mp h
    decide

theorem isBlank_of_mem {l : Lexeme v} {c : Char} (h : c ∈ l.chars) : isBlank c = false := by
  cases l with
  | number digits value reads =>
    exact Piece.isBlank_of_isNumeric ((Decimal.isNumeric_of_ofChars? reads).2 c h)
  | var isName => exact isBlank_eq_false_of_isAlphabetic (isName.letters c h)
  | func f => exact isBlank_eq_false_of_isAlphabetic (f.isAlphabetic_of_mem_name c h)
  | op o => cases o <;> obtain rfl := List.mem_singleton.mp h <;> decide
  | opening | closing =>
    obtain rfl := List.mem_singleton.mp h
    decide

/-- Lexemes have nothing to clean. -/
theorem toList_clean_spell (same : lower v = v) {ls : List (Lexeme v)} {text : String}
    (spelled : spell ls = text.toList) : (clean text).toList = spell ls := by
  have visible : ∀ c ∈ text.toList, isBlank c = false := by
    rw [← spelled]
    intro c hc
    obtain ⟨l, -, hc⟩ := List.mem_flatMap.mp hc
    exact isBlank_of_mem hc
  have squeezed := squeeze_eq_toList visible
  rw [toList_clean, squeezed, spelled]
  rw [squeezed, ← spelled]
  intro c hc
  obtain ⟨l, -, hc⟩ := List.mem_flatMap.mp hc
  exact isSmall_of_mem same hc

theorem exists_spell [Numeral α] {ts : List (Token α)}
    (prints : ∀ t ∈ ts, ∃ l : Lexeme v, l.token = t ∧ l.chars = t.text.toList) :
    ∃ ls : List (Lexeme v), ls.map token = ts ∧
      spell ls = (String.join (ts.map Token.text)).toList := by
  induction ts with
  | nil => exact ⟨[], rfl, rfl⟩
  | cons t ts ih =>
    obtain ⟨⟨l, token, chars⟩, others⟩ := List.forall_mem_cons.mp prints
    obtain ⟨ls, tokens, text⟩ := ih others
    refine ⟨l :: ls, by rw [List.map_cons, token, tokens], ?_⟩
    rw [spell_cons, chars, text, List.map_cons, String.join_cons, String.toList_append]

end Lexeme

/-- Tokens that are apart are read from their text, where no more products are meant. -/
theorem Lexer.tokenize_join [Numeral α] {ts : List (Token α)}
    (prints : ∀ t ∈ ts, ∃ l : Lexeme (lower v), l.token = t ∧ l.chars = t.text.toList)
    (munch : Token.Munch (lower v) ts) :
    tokenize v (String.join (ts.map Token.text)) = .ok (insertProducts ts) ∨
      maxTokens < ts.length ∧ ∃ error found,
        tokenize (α := α) v (String.join (ts.map Token.text)) = .error error ∧
          error.problem = .unexpected found .tooLong := by
  obtain ⟨ls, rfl, spelled⟩ := Lexeme.exists_spell prints
  have yields := (Written.maximalMunch_ofLexeme munch).yields (α := α)
  rw [Written.text_ofLexeme, Written.map_token_ofLexeme] at yields
  have cleaned := Lexeme.toList_clean_spell (lower_lower v) spelled
  obtain read | ⟨long, found, span, read⟩ := yields.scan_cases 0 0
  · exact .inl (by simp only [tokenize, cleaned, read])
  · rw [Nat.zero_add] at long
    rw [← cleaned] at read
    exact .inr ⟨long, tokenize_of_scan_tooLong read⟩

/-! ## Numbers -/

namespace Double

theorem eq_of_beq_of_unsigned {x y : Float} (equal : (x == y) = true) (hx : Unsigned (view x))
    (hy : Unsigned (view y)) : x = y := by
  have same : (view x).beq (view y) = true := equal
  obtain ⟨-, -, same | ⟨-, negative⟩ | ⟨negative, -⟩⟩ :=
    (UnpackedFloat.beq_iff_ne_notANumber_and_eq _ _).mp same
  · exact view_injective same
  · rw [negative] at hy
    cases hy
  · rw [negative] at hx
    cases hx

/-- The sign of a zero is all that the text of a token shows and that of an expression does not. -/
theorem formatNumber_eq_text {x : Float} (unsigned : Unsigned (view x)) :
    formatNumber x = Numeral.text x := by
  by_cases zero : (x == Arith.zero) = true
  · have plus : Unsigned (view (Arith.zero : Float)) := by
      rw [arith_zero, view_zero]
      rfl
    obtain rfl := eq_of_beq_of_unsigned zero unsigned plus
    decide +kernel
  · rw [formatNumber, if_neg zero]

theorem exists_ofChars?_text {d : Decimal} (finite : (ofDecimal d).isFinite = true)
    (readsBack : (reread (ofDecimal d) == ofDecimal d) = true) :
    ∃ d', Decimal.ofChars? (Numeral.text (ofDecimal d)).toList = some d' ∧
      ofDecimal d' = ofDecimal d := by
  have unsigned := unsigned_ofDecimal d
  obtain ⟨d', written⟩ := ofChars?_formatNumber finite unsigned
  have again : reread (ofDecimal d) = ofDecimal d' := by
    rw [reread, written]
    rfl
  rw [again] at readsBack
  rw [formatNumber_eq_text unsigned] at written
  exact ⟨d', written, eq_of_beq_of_unsigned readsBack (unsigned_ofDecimal d') unsigned⟩

end Double

namespace Lexer

variable {input : String} {ts : List (Token Float)}

theorem exists_prints (read : tokenize v input = .ok ts)
    (finite : ∀ c, .num c ∈ ts → c.isFinite = true)
    (readsBack : ∀ c, .num c ∈ ts → (reread c == c) = true) {t : Token Float} (h : t ∈ ts) :
    ∃ l : Lexeme (lower v), l.token = t ∧ l.chars = t.text.toList := by
  obtain ⟨l, rfl⟩ | rfl := exists_lexeme read h
  · cases l with
    | number digits d reads =>
      obtain ⟨d', written, same⟩ := Double.exists_ofChars?_text (finite _ h) (readsBack _ h)
      exact ⟨.number _ d' written, congrArg Token.num same, rfl⟩
    | var isName => exact ⟨.var isName, rfl, rfl⟩
    | func f => exact ⟨.func f, rfl, rfl⟩
    | op o => exact ⟨.op o, rfl, rfl⟩
    | opening => exact ⟨.opening, rfl, show ['('] = "(".toList by decide⟩
    | closing => exact ⟨.closing, rfl, show [')'] = ")".toList by decide⟩
  · exact ⟨.op .mul, rfl, rfl⟩

theorem munch_of_tokenize [Numeral α] {us : List (Token α)} (read : tokenize v input = .ok us) :
    Token.Munch (lower v) us := by
  obtain ⟨ws, -, munch, rfl⟩ := exists_munch_of_tokenize read
  exact munch.munch.insertProducts

/-- The text of tokens has the same tokens, unless these are too many with the products written out.
Numbers have to be finite and to be read back from their text. -/
theorem tokenize_join_text (read : tokenize v input = .ok ts)
    (finite : ∀ c, .num c ∈ ts → c.isFinite = true)
    (readsBack : ∀ c, .num c ∈ ts → (reread c == c) = true) :
    tokenize v (String.join (ts.map Token.text)) = .ok ts ∨
      maxTokens < ts.length ∧ ∃ error found,
        tokenize (α := Float) v (String.join (ts.map Token.text)) = .error error ∧
          error.problem = .unexpected found .tooLong := by
  have prints : ∀ t ∈ ts, ∃ l : Lexeme (lower v), l.token = t ∧ l.chars = t.text.toList :=
    fun _ h => exists_prints read finite readsBack h
  have products : insertProducts ts = ts := by
    obtain ⟨us, -, rfl⟩ := scan_of_tokenize read
    exact insertProducts_insertProducts us
  have again := tokenize_join prints (munch_of_tokenize read)
  rw [products] at again
  exact again

/-- A number and a power are written otherwise, and of `sinsi` the variable is still the rest. -/
theorem tokenize_join_text_glued :
    let ts : List (Token Float) := [.num (Numeral.ofDecimal ⟨50, 2⟩), .op .mul, .func .sin,
      .var "si", .op .pow, .num (Numeral.ofDecimal ⟨2, 0⟩), .op .mul, .opening, .var "si", .closing]
    tokenize "Si" ".50sinSi**2(Si)" = .ok ts ∧
      String.join (ts.map Token.text) = "0.5*sinsi^2*(si)" ∧
      (tokenize "Si" "0.5*sinsi^2*(si)" = .ok ts ∨
        maxTokens < ts.length ∧ ∃ error found,
          tokenize (α := Float) "Si" "0.5*sinsi^2*(si)" = .error error ∧
            error.problem = .unexpected found .tooLong) := by
  intro ts
  have read : tokenize "Si" ".50sinSi**2(Si)" = .ok ts := by rfl
  have text : String.join (ts.map Token.text) = "0.5*sinsi^2*(si)" := by decide +kernel
  refine ⟨read, text, ?_⟩
  rw [← text]
  have numbers (c : Float) (h : .num c ∈ ts) :
      c = Numeral.ofDecimal ⟨50, 2⟩ ∨ c = Numeral.ofDecimal ⟨2, 0⟩ := by
    simpa [ts] using h
  refine tokenize_join_text read ?_ ?_
  · intro c hc
    obtain rfl | rfl := numbers c hc <;> decide +kernel
  · intro c hc
    obtain rfl | rfl := numbers c hc <;> decide +kernel

end Lexer

end Univariate

import Univariate.Answer
import Univariate.Proofs.Spelling

/-!
# Lexemes

A lexeme is a token with its spelling. What is read as tokens is spelled by lexemes, one for each
token, when both ways to write a power are spelled `^`.
-/
namespace Univariate

open Text

namespace Func

/-- No function name is the beginning of another. -/
theorem eq_of_prefix {f g : Func} : f.name.toList <+: g.name.toList → f = g := by
  cases f <;> cases g <;> decide

end Func

namespace Lexer

/-- A name that is found stands at the head of the letters. The variable is found only if it is
not the name of a function. -/
theorem of_name? {v : String} {letters : List Char} {name : Name}
    (h : name? v letters = some name) : name.text.toList <+: letters ∧
      (name = .var v ∧ v ≠ "" ∧ (∀ f : Func, f.name ≠ v) ∨ ∃ f, name = .func f) := by
  by_cases own : v ≠ "" ∧ (Name.var v).startsIn letters = true
  · have starts : v.toList <+: letters := List.isPrefixOf_iff_prefix.mp own.2
    cases found : (Func.all.map Name.func).find? (·.startsIn letters) with
    | none =>
      simp only [name?, found, if_pos own, Option.none_or, Option.some.injEq] at h
      subst h
      refine ⟨starts, .inl ⟨rfl, own.1, ?_⟩⟩
      rintro f rfl
      exact List.find?_eq_none.mp found _ (List.mem_map_of_mem f.mem_all) own.2
    | some other =>
      obtain ⟨g, rfl, front⟩ := startsIn_of_find? found
      simp only [name?, found, if_pos own] at h
      split at h
      · rename_i longer
        cases h
        refine ⟨starts, .inl ⟨rfl, own.1, ?_⟩⟩
        rintro f rfl
        -- two function names at one place are the same
        simp only [Name.text, ← String.length_toList] at longer
        have := List.prefix_of_prefix_length_le front starts (by omega)
        rw [Func.eq_of_prefix this] at longer
        omega
      · cases h
        exact ⟨front, .inr ⟨g, rfl⟩⟩
  · cases found : (Func.all.map Name.func).find? (·.startsIn letters) with
    | none => simp [name?, found, if_neg own] at h
    | some other =>
      obtain ⟨g, rfl, front⟩ := startsIn_of_find? found
      simp only [name?, found, if_neg own, Option.or_none, Option.some.injEq] at h
      subst h
      exact ⟨front, .inr ⟨g, rfl⟩⟩

theorem text_ne_nil_of_name? {v : String} {letters : List Char} {name : Name}
    (h : name? v letters = some name) : name.text.toList ≠ [] := by
  obtain ⟨_, ⟨rfl, some_char, _⟩ | ⟨f, rfl⟩⟩ := of_name? h
  · simpa [Name.text] using some_char
  · exact f.name_ne_nil

/-- `Split v letters names` cuts letters into the longest names. -/
inductive Split (v : String) : List Char → List Name → Prop where
  | nil : Split v [] []
  | cons {name : Name} {letters : List Char} {names : List Name} :
      name? v (name.text.toList ++ letters) = some name → Split v letters names →
      Split v (name.text.toList ++ letters) (name :: names)

variable {α : Type}

/-- A word that is read is cut into the longest names. -/
theorem split_of_splitWord {v : String} {offset : Nat} {letters : List Char}
    {ts : List (Token α)} (h : splitWord v offset 0 letters = .ok ts) :
    ∃ names, Split v letters names ∧ ts = names.map Name.token := by
  induction size : letters.length using Nat.strongRecOn generalizing offset letters ts with
  | _ n ih =>
    cases letters with
    | nil =>
      cases h
      exact ⟨[], .nil, rfl⟩
    | cons c cs =>
      cases found : name? v (c :: cs) with
      | none => simp [splitWord, found] at h
      | some name =>
        obtain ⟨⟨rest, whole⟩, _⟩ := of_name? found
        have text := text_ne_nil_of_name? found
        rw [← whole] at found h size ⊢
        rw [splitWord_name text found] at h
        cases tail : splitWord (α := α) v (offset + byteSize name.text.toList) 0 rest with
        | error m => rw [tail] at h; cases h
        | ok us =>
          rw [tail] at h
          cases h
          have shorter : rest.length < n := by
            have := List.length_pos_iff.mpr text
            rw [List.length_append] at size
            omega
          obtain ⟨names, split, rfl⟩ := ih rest.length shorter tail rfl
          exact ⟨name :: names, .cons found split, rfl⟩

end Lexer

/-- A token with its spelling, in a text where the only free name is the variable. -/
inductive Lexeme (v : String) where
  | number (digits : List Char) (value : Decimal) (reads : Decimal.ofChars? digits = some value)
  | var (isName : IsName v)
  | func (f : Func)
  | op (o : Op)
  | opening
  | closing

namespace Lexeme

variable {v : String}

def chars : Lexeme v → List Char
  | number digits _ _ => digits
  | var _ => v.toList
  | func f => f.name.toList
  | op o => o.symbol.toList
  | opening => ['(']
  | closing => [')']

def token {α : Type} [Numeral α] : Lexeme v → Token α
  | number _ value _ => .num (Numeral.ofDecimal value)
  | var _ => .var v
  | func f => .func f
  | op o => .op o
  | opening => .opening
  | closing => .closing

@[simp] theorem token_op {α : Type} [Numeral α] (o : Op) :
    (op o : Lexeme v).token = (.op o : Token α) := rfl

/-- The pieces that are one lexeme. -/
inductive Reads : Piece → Lexeme v → Prop where
  | number {c : Char} {cs : List Char} {value : Decimal}
      (reads : Decimal.ofChars? (c :: cs) = some value) :
      Reads (.number c cs) (number (c :: cs) value reads)
  | power : Reads .power (op .pow)
  | op {o : Op} {c : Char} (symbol : o.symbol.toList = [c]) : Reads (.single c) (op o)
  | opening : Reads (.single '(') opening
  | closing : Reads (.single ')') closing

/-- The text of lexemes, one after the other. -/
def spell (ls : List (Lexeme v)) : List Char := ls.flatMap chars

@[simp] theorem spell_nil : spell ([] : List (Lexeme v)) = [] := rfl

@[simp] theorem spell_cons (l : Lexeme v) (ls : List (Lexeme v)) :
    spell (l :: ls) = l.chars ++ spell ls := rfl

@[simp] theorem spell_append (ls ms : List (Lexeme v)) :
    spell (ls ++ ms) = spell ls ++ spell ms := List.flatMap_append

end Lexeme

namespace Lexer

variable {α : Type} [Numeral α] {v input : String}

/-- A piece that is read is a word, which is cut into names, or it is one lexeme. -/
theorem tokens_cases {offset : Nat} {p : Piece} {ts : List (Token α)}
    (h : tokens v offset p = .ok ts) :
    (∃ c cs names, p = .word c cs ∧ Split v (c :: cs) names ∧ ts = names.map Name.token) ∨
      ∃ l : Lexeme v, Lexeme.Reads p l ∧ ts = [l.token] := by
  have one {t : Token α} (l : Lexeme v) (reads : Lexeme.Reads p l) (same : l.token = t)
      (read : Except.ok [t] = Except.ok (ε := Mistake) ts) :
      ∃ l : Lexeme v, Lexeme.Reads p l ∧ ts = [l.token] := by
    cases read
    exact ⟨l, reads, by rw [same]⟩
  unfold tokens at h
  split at h
  · split at h
    · rename_i value reads
      exact .inr (one (.number _ value reads) (.number reads) rfl h)
    · cases h
  · rename_i c cs
    obtain ⟨names, split, same⟩ := split_of_splitWord h
    exact .inl ⟨c, cs, names, rfl, split, same⟩
  · exact .inr (one (.op .pow) .power rfl h)
  · exact .inr (one (.op .add) (.op rfl) rfl h)
  · exact .inr (one (.op .sub) (.op rfl) rfl h)
  · exact .inr (one (.op .mul) (.op rfl) rfl h)
  · exact .inr (one (.op .div) (.op rfl) rfl h)
  · exact .inr (one (.op .pow) (.op rfl) rfl h)
  · exact .inr (one .opening .opening rfl h)
  · exact .inr (one .closing .closing rfl h)
  · cases h

/-- One turn of the lexer: where the limit is not reached, a piece is read and then the others. -/
theorem scan_cons_cases {offset count : Nat} {p : Piece} {pieces : List Piece}
    {ts : List (Token α)} (h : scan v offset count (p :: pieces) = .ok ts) :
    count < maxTokens ∧ ∃ us rest, tokens v offset p = .ok us ∧
      scan v (offset + byteSize p.chars) (count + us.length) pieces = .ok rest ∧
        ts = us ++ rest := by
  rw [scan] at h
  split at h
  · cases h
  · rename_i room
    cases first : tokens (α := α) v offset p with
    | error m => rw [first] at h; cases h
    | ok us =>
      simp only [first, bind, Except.bind] at h
      split at h
      · cases h
      · rename_i rest later
        cases h
        exact ⟨Nat.lt_of_not_le room, us, rest, rfl, later, rfl⟩

theorem scan_of_tokenize {stream : List (Token α)} (h : tokenize v input = .ok stream) :
    ∃ ts, scan (lower v) 0 0 (Piece.ofChars (clean input).toList) = .ok ts ∧
      stream = insertProducts ts := by
  simp only [tokenize] at h
  split at h
  · rename_i ts scanned
    cases h
    exact ⟨ts, scanned, rfl⟩
  · cases h

end Lexer

namespace Piece

/-- The characters of a piece when powers are written `^`. -/
def merged : Piece → List Char
  | power => ['^']
  | p => p.chars

theorem merged_of_ne_power {p : Piece} (h : p ≠ power) : p.merged = p.chars := by
  cases p with
  | power => exact absurd rfl h
  | number _ _ | word _ _ | single _ => rfl

/-- The comparison of answers merges the same stars to powers as the lexer. -/
theorem flatMap_merged_ofChars (cs : List Char) :
    (ofChars cs).flatMap merged = Answer.mergePowers cs := by
  fun_induction ofChars cs with
  | case1 => rfl
  | case2 cs ih => simp [Answer.mergePowers, merged, ih]
  | case3 c cs single ih => rw [flatMap_cons (fun _ => merged_of_ne_power), ih,
      Answer.mergePowers.eq_2 c cs single]

end Piece

namespace Lexeme

variable {α : Type} [Numeral α] {v : String}

theorem of_split {letters : List Char} {names : List Name}
    (alphabetic : ∀ c ∈ letters, isAlphabetic c = true) (split : Lexer.Split v letters names) :
    ∃ ls : List (Lexeme v), ls.map token = names.map (Name.token (α := α)) ∧
      spell ls = letters := by
  induction split with
  | nil => exact ⟨[], rfl, rfl⟩
  | @cons name letters names found _ ih =>
    obtain ⟨ls, tokens, text⟩ := ih fun c hc => alphabetic c (List.mem_append_right _ hc)
    obtain ⟨_, ⟨rfl, some_char, noFunc⟩ | ⟨f, rfl⟩⟩ := Lexer.of_name? found
    · have letters : ∀ c ∈ v.toList, isAlphabetic c = true :=
        fun c hc => alphabetic c (List.mem_append_left _ hc)
      have own : IsName v := ⟨some_char, letters, noFunc⟩
      exact ⟨.var own :: ls, by rw [List.map_cons, tokens]; rfl, by rw [spell_cons, text]; rfl⟩
    · exact ⟨.func f :: ls, by rw [List.map_cons, tokens]; rfl, by rw [spell_cons, text]; rfl⟩

theorem of_tokens {offset : Nat} {p : Piece} {ts : List (Token α)} (wf : p.WellFormed)
    (h : Lexer.tokens v offset p = .ok ts) :
    ∃ ls : List (Lexeme v), ls.map token = ts ∧ spell ls = p.merged := by
  obtain ⟨c, cs, names, rfl, split, rfl⟩ | ⟨l, reads, rfl⟩ := Lexer.tokens_cases h
  · exact of_split wf split
  · refine ⟨[l], rfl, ?_⟩
    cases reads with
    | op symbol => simp [chars, symbol, Piece.merged, Piece.chars]
    | number _ | power | opening | closing => simp [chars, Piece.merged, Piece.chars, Op.symbol]

theorem of_pieces {pieces : List Piece} (wf : ∀ p ∈ pieces, p.WellFormed) {offset count : Nat}
    {ts : List (Token α)} (h : Lexer.scan v offset count pieces = .ok ts) :
    ∃ ls : List (Lexeme v), ls.map token = ts ∧ spell ls = pieces.flatMap Piece.merged := by
  induction pieces generalizing offset count ts with
  | nil =>
    cases h
    exact ⟨[], rfl, rfl⟩
  | cons p pieces ih =>
    obtain ⟨_, us, rest, first, later, rfl⟩ := Lexer.scan_cons_cases h
    obtain ⟨ls, tokens, text⟩ := of_tokens (wf p List.mem_cons_self) first
    obtain ⟨ms, tokens', text'⟩ := ih (fun q hq => wf q (List.mem_cons_of_mem p hq)) later
    exact ⟨ls ++ ms, by rw [List.map_append, tokens, tokens'],
      by rw [spell_append, text, text', List.flatMap_cons]⟩

/-- What is read is spelled by lexemes. -/
theorem of_scan {cs : List Char} {ts : List (Token α)}
    (h : Lexer.scan v 0 0 (Piece.ofChars cs) = .ok ts) :
    ∃ ls : List (Lexeme v), ls.map token = ts ∧ spell ls = Answer.mergePowers cs := by
  rw [← Piece.flatMap_merged_ofChars]
  exact of_pieces (fun _ hp => Piece.wellFormed_of_mem_ofChars hp) h

end Lexeme

end Univariate

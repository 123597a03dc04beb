import Mathlib.Data.List.TakeWhile
import Univariate.Proofs.UnknownNames

/-!
# Longest lexemes are read

A text that is written in lexemes as long as they can be is read as their tokens. A run of names is
one piece of it, and any other lexeme is a piece by itself. The length limit is looked at before
each piece, so a text of too many tokens is refused, unless a long word stands at its end.
-/
namespace Univariate

open Text

variable {α : Type} [Numeral α] {v : String}

namespace Written

/-! ## Names -/

theorem isAlphabetic_of_mem_text {ws : List (Written v)}
    (words : ∀ w ∈ ws, w.lexeme.isWord = true) : ∀ c ∈ text ws, isAlphabetic c = true := by
  intro c hc
  obtain ⟨w, member, hc⟩ := List.mem_flatMap.mp hc
  rw [isAlphabetic_of_mem hc]
  exact words w member

theorem isAlphabetic_of_mem_head? {ws : List (Written v)}
    (noWord : ∀ w ∈ ws.head?, w.lexeme.isWord = false) :
    ∀ c ∈ (text ws).head?, isAlphabetic c = false := by
  intro c hc
  cases ws with
  | nil => cases hc
  | cons w ws =>
    rw [text_cons, List.head?_append_of_ne_nil _ w.chars_ne_nil] at hc
    rw [isAlphabetic_of_mem (List.mem_of_mem_head? hc)]
    exact noWord w rfl

theorem exists_name {w : Written v} {rest : List Char} (greedy : w.IsGreedy rest)
    (word : w.lexeme.isWord = true) :
    ∃ name : Name, w.chars = name.text.toList ∧ w.token = name.token (α := α) ∧
      Name.IsLongest v ((w.chars ++ rest).takeWhile isAlphabetic) name := by
  obtain ⟨l, chars, spells⟩ := w
  cases l with
  | var isName => exact ⟨.var v, chars_eq (w := ⟨_, chars, spells⟩) nofun, rfl, greedy⟩
  | func f => exact ⟨.func f, chars_eq (w := ⟨_, chars, spells⟩) nofun, rfl, greedy⟩
  | number _ _ _ | op _ | opening | closing => cases word

/-- A run of names is cut into them again. -/
theorem splitWord_text {front back : List (Written v)}
    (words : ∀ w ∈ front, w.lexeme.isWord = true)
    (stop : ∀ c ∈ (text back).head?, isAlphabetic c = false)
    (munch : MaximalMunch (front ++ back)) (offset : Nat) :
    Lexer.splitWord v offset 0 (text front) = .ok (front.map (token (α := α))) := by
  induction front generalizing offset with
  | nil => rfl
  | cons w front ih =>
    have greedy : w.IsGreedy (text (front ++ back)) := munch.1
    obtain ⟨name, chars, token, longest⟩ := exists_name (α := α) greedy (words w List.mem_cons_self)
    have run : (w.chars ++ text (front ++ back)).takeWhile isAlphabetic =
        w.chars ++ text front := by
      have letters := isAlphabetic_of_mem_text words
      rw [text_cons] at letters
      rw [text_append, ← List.append_assoc, takeWhile_append letters stop]
    rw [run, chars] at longest
    have some_char : name.text.toList ≠ [] := chars ▸ w.chars_ne_nil
    rw [text_cons, chars, Lexer.splitWord_name some_char (Lexer.name?_eq_some_iff.mpr longest),
      ih (fun m hm => words m (List.mem_cons_of_mem w hm)) munch.2, List.map_cons, token]
    rfl

/-- A run of names is one piece. -/
theorem ofChars_words {front back : List (Written v)} (some_word : front ≠ [])
    (words : ∀ w ∈ front, w.lexeme.isWord = true)
    (stop : ∀ c ∈ (text back).head?, isAlphabetic c = false) :
    ∃ c cs, text front = c :: cs ∧
      Piece.ofChars (text front ++ text back) = .word c cs :: Piece.ofChars (text back) := by
  have letters := isAlphabetic_of_mem_text words
  have apart : Piece.Apart (text front) (text back) := by
    intro c hc d hd
    have letter := letters c (List.mem_of_getLast? hc)
    have noStar : c ≠ '*' := by
      rintro rfl
      cases letter
    simp [Piece.glued, Piece.isNumeric_of_isAlphabetic letter, stop d hd, noStar]
  obtain ⟨w, ws, rfl⟩ := List.exists_cons_of_ne_nil some_word
  have some_char := List.append_ne_nil_of_left_ne_nil w.chars_ne_nil (text ws)
  obtain ⟨c, cs, whole⟩ := List.exists_cons_of_ne_nil some_char
  rw [← text_cons] at whole
  refine ⟨c, cs, whole, ?_⟩
  rw [Piece.ofChars_append apart, whole, Piece.ofChars_word (whole ▸ letters)]
  rfl

/-! ## Other lexemes -/

theorem exists_piece {w : Written v} {rest : List Char} (greedy : w.IsGreedy rest)
    (noWord : w.lexeme.isWord = false) :
    ∃ p, Piece.ofChars (w.chars ++ rest) = p :: Piece.ofChars rest ∧
      ∀ offset, Lexer.tokens v offset p = .ok [w.token (α := α)] := by
  obtain ⟨l, chars, rfl | ⟨rfl, rfl⟩⟩ := w
  · have sign {c : Char} {t : Token α} (isSign : Lexer.IsSign v c t) (single : l.chars = [c])
        (lone : c = '*' → rest.head? ≠ some '*') :
        ∃ p, Piece.ofChars (l.chars ++ rest) = p :: Piece.ofChars rest ∧
          ∀ offset, Lexer.tokens v offset p = .ok [t] :=
      ⟨.single c, by rw [single]; exact isSign.ofChars_cons lone, isSign.reads⟩
    cases l with
    | number digits value reads =>
      obtain ⟨some_char, numeric⟩ := Decimal.isNumeric_of_ofChars? reads
      have apart : Piece.Apart digits rest := by
        intro c hc d hd
        have digit := numeric c (List.mem_of_getLast? hc)
        have other : Piece.isNumeric d = false := greedy d hd
        have noStar : c ≠ '*' := by
          rintro rfl
          cases digit
        simp [Piece.glued, other, Piece.isAlphabetic_of_isNumeric digit, noStar]
      obtain ⟨c, cs, rfl⟩ := List.exists_cons_of_ne_nil some_char
      refine ⟨.number c cs, ?_, fun offset => by simp only [Lexer.tokens, reads]; rfl⟩
      change Piece.ofChars (c :: cs ++ rest) = _
      rw [Piece.ofChars_append apart, Piece.ofChars_number numeric]
      rfl
    | op o =>
      obtain ⟨c, symbol, isSign⟩ := Lexer.IsSign.op (α := α) v o
      refine sign isSign symbol ?_
      rintro rfl
      cases o with
      | mul => exact greedy
      | add | sub | div | pow => exact absurd symbol (by decide)
    | opening => exact sign (.opening v) rfl fun star => absurd star (by decide)
    | closing => exact sign (.closing v) rfl fun star => absurd star (by decide)
    | var _ | func _ => cases noWord
  · exact ⟨.power, rfl, fun _ => rfl⟩

/-! ## Texts -/

theorem exists_words (ws : List (Written v)) : ∃ front back, ws = front ++ back ∧
    (∀ w ∈ front, w.lexeme.isWord = true) ∧ ∀ w ∈ back.head?, w.lexeme.isWord = false := by
  refine ⟨_, _, (List.takeWhile_append_dropWhile (p := (·.lexeme.isWord))).symm, ?_, ?_⟩
  · intro w hw
    exact List.mem_takeWhile_imp (p := fun m : Written v => m.lexeme.isWord) hw
  · intro w hw
    have := List.head?_dropWhile_not (·.lexeme.isWord) ws
    rw [hw] at this
    simpa using this

theorem MaximalMunch.of_append (ws : List (Written v)) {ms : List (Written v)}
    (munch : MaximalMunch (ws ++ ms)) : MaximalMunch ms := by
  induction ws with
  | nil => exact munch
  | cons w ws ih => exact ih munch.2

/-- The pieces of a text are read as the tokens of its longest lexemes. -/
theorem MaximalMunch.yields {ws : List (Written v)} (munch : MaximalMunch ws) :
    Lexer.Yields v (Piece.ofChars (text ws)) (ws.map (token (α := α))) := by
  induction size : ws.length using Nat.strongRecOn generalizing ws with
  | _ n ih =>
    cases ws with
    | nil => exact .nil
    | cons w ws =>
      cases word : w.lexeme.isWord with
      | false =>
        have later := ih ws.length (size ▸ Nat.lt_succ_self ws.length) munch.2 rfl
        obtain ⟨p, pieces, read⟩ := exists_piece (α := α) munch.1 word
        rw [text_cons, pieces]
        exact .cons read (List.cons_ne_nil _ _) later
      | true =>
        obtain ⟨front, back, rfl, words, noWord⟩ := exists_words ws
        have words : ∀ m ∈ w :: front, m.lexeme.isWord = true :=
          List.forall_mem_cons.mpr ⟨word, words⟩
        have stop := isAlphabetic_of_mem_head? noWord
        have shorter : back.length < n := by
          rw [← size, List.length_cons, List.length_append]
          omega
        have later := ih back.length shorter (MaximalMunch.of_append (w :: front) munch) rfl
        have read := splitWord_text (α := α) words stop munch
        obtain ⟨c, cs, letters, pieces⟩ := ofChars_words (List.cons_ne_nil w front) words stop
        rw [letters] at read
        rw [← List.cons_append, text_append, pieces, List.map_append]
        exact .cons read (by simp) later

end Written

end Univariate

import Univariate.Number.Double
import Univariate.Proofs.Neighbours
import Univariate.Proofs.UniqueReading

/-!
# Maximal munch

How a text is cut into tokens can be said without the order in which it is read. A text that is
read is a sequence of written lexemes none of which could be longer: a number is not followed by
another digit or point, a star by itself not by another star, and a name is the longest of those
that start where it does, of two equally long ones the function. Between the tokens of these
lexemes products are written out, and nothing else is added. A text has only one such sequence.
-/
namespace Univariate

open Text

variable {α : Type} {v : String}

namespace Token

/-- The tokens up to their contents. -/
inductive Kind where
  | num
  | op
  | opening
  | closing
  | var
  | func
  deriving DecidableEq, Repr

def kind : Token α → Kind
  | num _ => .num
  | op _ => .op
  | opening => .opening
  | closing => .closing
  | var _ => .var
  | func _ => .func

/-- Whether a product is meant between two neighbours. -/
def Kind.Multiply (left right : Kind) : Prop :=
  (left ∈ [num, var, closing] ∧ right ∈ [var, func, opening]) ∨
    (left ∈ [var, closing] ∧ right = num)

instance (left right : Kind) : Decidable (Kind.Multiply left right) :=
  inferInstanceAs (Decidable (_ ∨ _))

/-- Each token but the first, with the product sign before it where one is meant. -/
def withProducts (ts : List (Token α)) : List (Token α) :=
  ts.head?.toList ++ (ts.zip ts.tail).flatMap fun (t, u) =>
    if t.kind.Multiply u.kind then [op .mul, u] else [u]

theorem isProduct_eq_decide (t u : Token α) :
    Lexer.isProduct t u = decide (t.kind.Multiply u.kind) := by
  cases t <;> cases u <;> rfl

theorem insertProducts_eq_withProducts (ts : List (Token α)) :
    Lexer.insertProducts ts = withProducts ts := by
  fun_induction Lexer.insertProducts ts with
  | case1 t u ts product ih =>
    rw [isProduct_eq_decide, decide_eq_true_eq] at product
    simp [ih, withProducts, product]
  | case2 t u ts product ih =>
    rw [isProduct_eq_decide, decide_eq_true_eq] at product
    simp [ih, withProducts, product]
  | case3 ts single =>
    cases ts with
    | nil => rfl
    | cons t ts =>
      cases ts with
      | nil => rfl
      | cons u ts => exact absurd rfl (single t u ts)

end Token

/-! ## The longest name -/

namespace Name

/-- The names of a text: all functions and the variable, unless it is empty. -/
def Known (v : String) : Name → Prop
  | var name => name = v ∧ v ≠ ""
  | func _ => True

/-- The longest name that starts the letters, and the function of two equally long ones. -/
structure IsLongest (v : String) (letters : List Char) (name : Name) : Prop where
  known : name.Known v
  starts : name.text.toList <+: letters
  longest : ∀ other : Name, other.Known v → other.text.toList <+: letters →
    other.text.toList.length ≤ name.text.toList.length
  tie : ∀ f : Func, f.name.toList <+: letters →
    f.name.toList.length = name.text.toList.length → name = func f

theorem IsLongest.unique {letters : List Char} {name other : Name}
    (h : IsLongest v letters name) (h' : IsLongest v letters other) : name = other := by
  have length : name.text.toList.length = other.text.toList.length :=
    Nat.le_antisymm (h'.longest name h.known h.starts) (h.longest other h'.known h'.starts)
  cases name with
  | func f => exact (h'.tie f h.starts length).symm
  | var s =>
    cases other with
    | func f => exact h.tie f h'.starts length.symm
    | var t => rw [h.known.1, h'.known.1]

end Name

namespace Lexer

/-- No two functions start in one place. -/
theorem func_eq_of_starts {f g : Func} {letters : List Char} (hf : f.name.toList <+: letters)
    (hg : g.name.toList <+: letters) : f = g := by
  obtain ⟨rest, whole⟩ := hf
  obtain ⟨rest', whole'⟩ := hg
  exact Lexeme.func_unique (whole.trans whole'.symm)

theorem isLongest_func {letters : List Char} {f : Func} (starts : f.name.toList <+: letters)
    (var_le : v ≠ "" → v.toList <+: letters → v.toList.length ≤ f.name.toList.length) :
    Name.IsLongest v letters (.func f) := by
  refine ⟨trivial, starts, ?_, ?_⟩
  · intro other known front
    cases other with
    | func g =>
      obtain rfl := func_eq_of_starts front starts
      exact Nat.le_refl _
    | var s =>
      obtain ⟨rfl, some_char⟩ := known
      exact var_le some_char front
  · intro g front _
    rw [func_eq_of_starts front starts]

theorem isLongest_var {letters : List Char} (some_char : v ≠ "") (starts : v.toList <+: letters)
    (func_lt : ∀ f : Func, f.name.toList <+: letters → f.name.toList.length < v.toList.length) :
    Name.IsLongest v letters (.var v) := by
  refine ⟨⟨rfl, some_char⟩, starts, ?_, ?_⟩
  · intro other known front
    cases other with
    | func g => exact Nat.le_of_lt (func_lt g front)
    | var s =>
      obtain ⟨rfl, _⟩ := known
      exact Nat.le_refl _
  · intro g front same
    exact absurd same (Nat.ne_of_lt (func_lt g front))

/-- What is found at the head of the letters is the longest name there. -/
theorem isLongest_of_name? {letters : List Char} {name : Name}
    (h : name? v letters = some name) : Name.IsLongest v letters name := by
  by_cases own : v ≠ "" ∧ (Name.var v).startsIn letters = true
  · have starts : v.toList <+: letters := List.isPrefixOf_iff_prefix.mp own.2
    cases found : (Func.all.map Name.func).find? (·.startsIn letters) with
    | none =>
      simp only [name?, found, if_pos own, Option.none_or, Option.some.injEq] at h
      subst h
      refine isLongest_var own.1 starts fun f front => ?_
      have := List.find?_eq_none.mp found _ (List.mem_map_of_mem f.mem_all)
      exact absurd (List.isPrefixOf_iff_prefix.mpr front) this
    | some other =>
      obtain ⟨g, rfl, front⟩ := startsIn_of_find? found
      simp only [name?, found, if_pos own] at h
      split at h
      · rename_i longer
        cases h
        refine isLongest_var own.1 starts fun f front' => ?_
        rw [func_eq_of_starts front' front]
        simpa only [Name.text, String.length_toList] using longer
      · rename_i longer
        cases h
        refine isLongest_func front fun _ _ => ?_
        simpa only [Name.text, String.length_toList, Nat.not_lt] using longer
  · cases found : (Func.all.map Name.func).find? (·.startsIn letters) with
    | none => simp [name?, found, if_neg own] at h
    | some other =>
      obtain ⟨g, rfl, front⟩ := startsIn_of_find? found
      simp only [name?, found, if_neg own, Option.or_none, Option.some.injEq] at h
      subst h
      refine isLongest_func front fun some_char starts => ?_
      exact absurd ⟨some_char, List.isPrefixOf_iff_prefix.mpr starts⟩ own

end Lexer

/-! ## Written lexemes -/

/-- A lexeme as it stands in a text. A power has two spellings. -/
structure Written (v : String) where
  lexeme : Lexeme v
  chars : List Char
  spells : chars = lexeme.chars ∨ lexeme = .op .pow ∧ chars = ['*', '*']

namespace Written

def text (ws : List (Written v)) : List Char := ws.flatMap chars

@[simp] theorem text_nil : text ([] : List (Written v)) = [] := rfl

@[simp] theorem text_cons (w : Written v) (ws : List (Written v)) :
    text (w :: ws) = w.chars ++ text ws := rfl

@[simp] theorem text_append (ws ms : List (Written v)) :
    text (ws ++ ms) = text ws ++ text ms := List.flatMap_append

def token [Numeral α] (w : Written v) : Token α := w.lexeme.token

/-- In front of `rest` the lexeme is as long as it can be. For a name this is about the letters up
to the end of their run. -/
def IsGreedy (w : Written v) (rest : List Char) : Prop :=
  match w.lexeme with
  | .number _ _ _ => ∀ c ∈ rest.head?, Piece.isNumeric c = false
  | .var _ => Name.IsLongest v ((w.chars ++ rest).takeWhile isAlphabetic) (.var v)
  | .func f => Name.IsLongest v ((w.chars ++ rest).takeWhile isAlphabetic) (.func f)
  | .op .mul => rest.head? ≠ some '*'
  | .op _ | .opening | .closing => True

/-- Every lexeme is as long as it can be in its place. Nothing need be asked of what stands before
one: a number before another one, say, would itself have been too short. -/
def MaximalMunch : List (Written v) → Prop
  | [] => True
  | w :: ws => w.IsGreedy (text ws) ∧ MaximalMunch ws

end Written

/-! ## A text that is read is so written -/

namespace Piece

/-- Where a piece ends before `rest`. -/
def Ends : Piece → List Char → Prop
  | number _ _, rest => ∀ c ∈ rest.head?, isNumeric c = false
  | word _ _, rest => ∀ c ∈ rest.head?, isAlphabetic c = false
  | power, _ => True
  | single c, rest => c = '*' → rest.head? ≠ some '*'

def Separated : List Piece → Prop
  | [] => True
  | p :: ps => p.Ends (ps.flatMap chars) ∧ Separated ps

theorem head?_flatMap_chars (pieces : List Piece) :
    (pieces.flatMap chars).head? = pieces.head?.map first := by
  cases pieces with
  | nil => rfl
  | cons p ps =>
    rw [List.flatMap_cons, List.head?_append, head?_chars]
    rfl

theorem separated_cons {c : Char} {pieces : List Piece} (wf : ∀ p ∈ pieces, p.WellFormed)
    (separated : Separated pieces)
    (lone : c = '*' → (pieces.flatMap chars).head? ≠ some '*') : Separated (cons c pieces) := by
  unfold cons
  split
  · split
    · exact separated
    · rename_i other
      refine ⟨fun d hd => ?_, separated⟩
      rw [head?_flatMap_chars] at hd
      cases pieces with
      | nil => cases hd
      | cons p ps =>
        obtain rfl : p.first = d := Option.some.inj hd
        have shape := wf p List.mem_cons_self
        cases p with
        | number d ds => exact absurd rfl (other d ds ps)
        | word d ds => exact isNumeric_of_isAlphabetic (shape d List.mem_cons_self)
        | power => rfl
        | single d => exact shape.1
  · split
    · split
      · exact separated
      · rename_i other
        refine ⟨fun d hd => ?_, separated⟩
        rw [head?_flatMap_chars] at hd
        cases pieces with
        | nil => cases hd
        | cons p ps =>
          obtain rfl : p.first = d := Option.some.inj hd
          have shape := wf p List.mem_cons_self
          cases p with
          | number d ds => exact isAlphabetic_of_isNumeric (shape d List.mem_cons_self)
          | word d ds => exact absurd rfl (other d ds ps)
          | power => exact isAlphabetic_eq_false_of_lt (by decide)
          | single d => exact shape.2
    · exact ⟨lone, separated⟩

theorem separated_ofChars (cs : List Char) : Separated (ofChars cs) := by
  fun_induction ofChars cs with
  | case1 => trivial
  | case2 cs ih => exact ⟨trivial, ih⟩
  | case3 c cs single ih =>
    refine separated_cons (fun _ hp => wellFormed_of_mem_ofChars hp) ih ?_
    rw [flatMap_chars_ofChars]
    rintro rfl star
    obtain ⟨ds, rfl⟩ := List.head?_eq_some_iff.mp star
    exact single ds rfl rfl

end Piece

namespace Written

/-- A lexeme of a piece: a name, or all that the piece is. -/
def ReadsIn (w : Written v) (p : Piece) : Prop := w.lexeme.isWord = true ∨ Lexeme.Reads p w.lexeme

/-- Names are written in front of what is no letter. -/
theorem of_split {letters : List Char} {names : List Name} {ms : List (Written v)}
    [Numeral α] (split : Lexer.Split v letters names)
    (alphabetic : ∀ c ∈ letters, isAlphabetic c = true)
    (stop : ∀ c ∈ (text ms).head?, isAlphabetic c = false) (munch : MaximalMunch ms) :
    ∃ ws : List (Written v), ws.map token = names.map (Name.token (α := α)) ∧
      text ws = letters ∧ MaximalMunch (ws ++ ms) ∧ ∀ w ∈ ws, w.lexeme.isWord = true := by
  induction split with
  | nil => exact ⟨[], rfl, rfl, munch, List.forall_mem_nil _⟩
  | @cons name letters names found _ ih =>
    obtain ⟨ws, tokens, rfl, later, words⟩ :=
      ih fun c hc => alphabetic c (List.mem_append_right _ hc)
    have longest := Lexer.isLongest_of_name? found
    have run : (name.text.toList ++ text (ws ++ ms)).takeWhile isAlphabetic =
        name.text.toList ++ text ws := by
      rw [text_append, ← List.append_assoc, takeWhile_append alphabetic stop]
    rw [← run] at longest
    obtain ⟨_, ⟨rfl, some_char, noFunc⟩ | ⟨f, rfl⟩⟩ := Lexer.of_name? found
    · have own : IsName v :=
        ⟨some_char, fun c hc => alphabetic c (List.mem_append_left _ hc), noFunc⟩
      exact ⟨⟨.var own, v.toList, .inl rfl⟩ :: ws, by rw [List.map_cons, tokens]; rfl, rfl,
        ⟨longest, later⟩, List.forall_mem_cons.mpr ⟨rfl, words⟩⟩
    · exact ⟨⟨.func f, f.name.toList, .inl rfl⟩ :: ws, by rw [List.map_cons, tokens]; rfl, rfl,
        ⟨longest, later⟩, List.forall_mem_cons.mpr ⟨rfl, words⟩⟩

theorem of_tokens [Numeral α] {offset : Nat} {p : Piece} {ts : List (Token α)}
    {ms : List (Written v)} (wf : p.WellFormed) (ends : p.Ends (text ms))
    (munch : MaximalMunch ms) (h : Lexer.tokens v offset p = .ok ts) :
    ∃ ws : List (Written v), ws.map token = ts ∧ text ws = p.chars ∧
      MaximalMunch (ws ++ ms) ∧ ∀ w ∈ ws, w.ReadsIn p := by
  obtain ⟨c, cs, names, rfl, split, rfl⟩ | ⟨l, reads, rfl⟩ := Lexer.tokens_cases h
  · obtain ⟨ws, tokens, text, whole, words⟩ := of_split (α := α) split wf ends munch
    exact ⟨ws, tokens, text, whole, fun w hw => .inl (words w hw)⟩
  have one (chars : p.chars = l.chars ∨ l = .op .pow ∧ p.chars = ['*', '*'])
      (greedy : (⟨l, p.chars, chars⟩ : Written v).IsGreedy (text ms)) :
      ∃ ws : List (Written v), ws.map token = [l.token (α := α)] ∧ text ws = p.chars ∧
        MaximalMunch (ws ++ ms) ∧ ∀ w ∈ ws, w.ReadsIn p :=
    ⟨[⟨l, p.chars, chars⟩], rfl, by simp, ⟨greedy, munch⟩,
      List.forall_mem_singleton.mpr (.inr reads)⟩
  cases reads with
  | number reads => exact one (.inl rfl) ends
  | power => exact one (.inr ⟨rfl, rfl⟩) trivial
  | @op o c symbol =>
    refine one (.inl symbol.symm) ?_
    cases o with
    | mul =>
      obtain rfl : '*' = c := List.singleton_inj.mp symbol
      exact ends rfl
    | add | sub | div | pow => trivial
  | opening | closing => exact one (.inl rfl) trivial

theorem of_scan [Numeral α] {pieces : List Piece} (wf : ∀ p ∈ pieces, p.WellFormed)
    (separated : Piece.Separated pieces) {offset count : Nat} {ts : List (Token α)}
    (h : Lexer.scan v offset count pieces = .ok ts) :
    ∃ ws : List (Written v), ws.map token = ts ∧ text ws = pieces.flatMap Piece.chars ∧
      MaximalMunch ws ∧ ∀ w ∈ ws, ∃ p ∈ pieces, w.ReadsIn p := by
  induction pieces generalizing offset count ts with
  | nil =>
    cases h
    exact ⟨[], rfl, rfl, trivial, List.forall_mem_nil _⟩
  | cons p pieces ih =>
    obtain ⟨_, us, rest, first, later, rfl⟩ := Lexer.scan_cons_cases h
    obtain ⟨ms, tokens, chars, munch, reads⟩ :=
      ih (fun q hq => wf q (List.mem_cons_of_mem p hq)) separated.2 later
    obtain ⟨ws, tokens', chars', whole, reads'⟩ :=
      of_tokens (wf p List.mem_cons_self) (by rw [chars]; exact separated.1) munch first
    refine ⟨ws ++ ms, by rw [List.map_append, tokens, tokens'],
      by rw [text_append, chars, chars', List.flatMap_cons], whole, ?_⟩
    refine List.forall_mem_append.mpr ⟨fun w hw => ⟨p, List.mem_cons_self, reads' w hw⟩, ?_⟩
    intro w hw
    obtain ⟨q, hq, readsIn⟩ := reads w hw
    exact ⟨q, List.mem_cons_of_mem p hq, readsIn⟩

end Written

/-! ## Only so -/

namespace Lexeme

/-- The lexeme of a character that is neither of a numeral nor a letter. -/
def sign? : Char → Option (Lexeme v)
  | '+' => some (op .add)
  | '-' => some (op .sub)
  | '*' => some (op .mul)
  | '/' => some (op .div)
  | '^' => some (op .pow)
  | '(' => some opening
  | ')' => some closing
  | _ => none

theorem sign?_of_mem {l : Lexeme v} {c : Char} (h : c ∈ l.chars) (noNumber : l.isNumber = false)
    (noWord : l.isWord = false) : sign? c = some l := by
  cases l with
  | number _ _ _ => cases noNumber
  | var _ | func _ => cases noWord
  | op o =>
    cases o <;>
    · obtain rfl := List.mem_singleton.mp h
      rfl
  | opening | closing =>
    obtain rfl := List.mem_singleton.mp h
    rfl

end Lexeme

namespace Written

theorem chars_ne_nil (w : Written v) : w.chars ≠ [] := by
  obtain plain | ⟨_, stars⟩ := w.spells
  · rw [plain]
    exact w.lexeme.chars_ne_nil
  · rw [stars]
    exact List.cons_ne_nil _ _

theorem isNumeric_of_mem {w : Written v} {c : Char} (h : c ∈ w.chars) :
    Piece.isNumeric c = w.lexeme.isNumber := by
  obtain plain | ⟨power, stars⟩ := w.spells
  · exact Lexeme.isNumeric_of_mem (plain ▸ h)
  · obtain rfl : c = '*' := by simpa [stars] using h
    rw [power]
    rfl

theorem isAlphabetic_of_mem {w : Written v} {c : Char} (h : c ∈ w.chars) :
    isAlphabetic c = w.lexeme.isWord := by
  obtain plain | ⟨power, stars⟩ := w.spells
  · exact Lexeme.isAlphabetic_of_mem (plain ▸ h)
  · obtain rfl : c = '*' := by simpa [stars] using h
    rw [power]
    exact isAlphabetic_eq_false_of_lt (by decide)

/-- Only a power can be spelled otherwise than its lexeme. -/
theorem chars_eq {w : Written v} (h : w.lexeme ≠ .op .pow) : w.chars = w.lexeme.chars :=
  w.spells.resolve_right fun power => h power.1

theorem eq_of_lexeme {w m : Written v} (lexeme : w.lexeme = m.lexeme)
    (chars : w.chars = m.chars) : w = m := by
  cases w
  cases m
  cases lexeme
  cases chars
  rfl

/-- A sign is written with the first character of its text, unless it is a power with two stars. -/
theorem sign_cases {w : Written v} {c : Char} {rest more : List Char} (greedy : w.IsGreedy rest)
    (noNumber : w.lexeme.isNumber = false) (noWord : w.lexeme.isWord = false)
    (whole : w.chars ++ rest = c :: more) :
    w.chars = [c] ∧ Lexeme.sign? c = some w.lexeme ∧ (c = '*' → more.head? ≠ some '*') ∨
      w.chars = ['*', '*'] ∧ w.lexeme = .op .pow ∧ c = '*' ∧ more.head? = some '*' := by
  obtain ⟨l, chars, rfl | ⟨rfl, rfl⟩⟩ := w
  · have single : l.chars = [c] := (Lexeme.sign_of_mem (Lexeme.head_mem whole)
      (by rw [Lexeme.isNumeric_of_mem (Lexeme.head_mem whole)]; exact noNumber)
      (by rw [Lexeme.isAlphabetic_of_mem (Lexeme.head_mem whole)]; exact noWord)).1
    have sign := Lexeme.sign?_of_mem (Lexeme.head_mem whole) noNumber noWord
    refine .inl ⟨single, sign, ?_⟩
    rintro rfl
    obtain rfl : .op .mul = l := Option.some.inj sign
    obtain rfl : rest = more := List.cons.inj whole |>.2
    exact greedy
  · obtain ⟨rfl, rfl⟩ := List.cons.inj whole
    exact .inr ⟨rfl, rfl, rfl, rfl⟩

theorem sign_unique {w m : Written v} {rest rest' : List Char} (greedy : w.IsGreedy rest)
    (greedy' : m.IsGreedy rest') (noNumber : w.lexeme.isNumber = false)
    (noWord : w.lexeme.isWord = false) (noNumber' : m.lexeme.isNumber = false)
    (noWord' : m.lexeme.isWord = false) (same : w.chars ++ rest = m.chars ++ rest') : w = m := by
  obtain ⟨c, cs, first⟩ := List.exists_cons_of_ne_nil w.chars_ne_nil
  have whole : w.chars ++ rest = c :: (cs ++ rest) := by rw [first]; rfl
  obtain ⟨chars, sign, lone⟩ | ⟨chars, power, star, stars⟩ :=
    sign_cases greedy noNumber noWord whole <;>
  obtain ⟨chars', sign', lone'⟩ | ⟨chars', power', star', stars'⟩ :=
    sign_cases greedy' noNumber' noWord' (same ▸ whole)
  · exact eq_of_lexeme (Option.some.inj (sign.symm.trans sign')) (chars.trans chars'.symm)
  · exact absurd stars' (lone star')
  · exact absurd stars (lone' star)
  · exact eq_of_lexeme (power.trans power'.symm) (chars.trans chars'.symm)

/-- A text begins in one way only. -/
theorem first_unique {w m : Written v} {rest rest' : List Char} (greedy : w.IsGreedy rest)
    (greedy' : m.IsGreedy rest') (same : w.chars ++ rest = m.chars ++ rest') : w = m := by
  obtain ⟨c, cs, first⟩ := List.exists_cons_of_ne_nil w.chars_ne_nil
  obtain ⟨d, ds, first'⟩ := List.exists_cons_of_ne_nil m.chars_ne_nil
  obtain rfl : c = d := by
    rw [first, first'] at same
    exact (List.cons.inj same).1
  have left : c ∈ w.chars := by rw [first]; exact List.mem_cons_self
  have right : c ∈ m.chars := by rw [first']; exact List.mem_cons_self
  have number : w.lexeme.isNumber = m.lexeme.isNumber := by
    rw [← isNumeric_of_mem left, isNumeric_of_mem right]
  have word : w.lexeme.isWord = m.lexeme.isWord := by
    rw [← isAlphabetic_of_mem left, isAlphabetic_of_mem right]
  obtain ⟨l, chars, spells⟩ := w
  obtain ⟨k, chars', spells'⟩ := m
  cases l with
  | number digits value reads =>
    cases k with
    | number digits' value' reads' =>
      obtain rfl : chars = digits := chars_eq (w := ⟨_, chars, spells⟩) nofun
      obtain rfl : chars' = digits' := chars_eq (w := ⟨_, chars', spells'⟩) nofun
      obtain rfl : chars = chars' :=
        run_unique (Decimal.isNumeric_of_ofChars? reads).2 (Decimal.isNumeric_of_ofChars? reads').2
          greedy greedy' same
      obtain rfl : value = value' := Option.some.inj (reads.symm.trans reads')
      rfl
    | var _ | func _ | op _ | opening | closing => cases number
  | var isName =>
    cases k with
    | var isName' =>
      obtain rfl : chars = v.toList := chars_eq (w := ⟨_, chars, spells⟩) nofun
      obtain rfl : chars' = v.toList := chars_eq (w := ⟨_, chars', spells'⟩) nofun
      rfl
    | func g =>
      have longest : Name.IsLongest v ((chars ++ rest).takeWhile isAlphabetic) (.var v) := greedy
      rw [same] at longest
      cases longest.unique greedy'
    | number _ _ _ => cases number
    | op _ | opening | closing => cases word
  | func f =>
    cases k with
    | var isName =>
      have longest : Name.IsLongest v ((chars ++ rest).takeWhile isAlphabetic) (.func f) := greedy
      rw [same] at longest
      cases longest.unique greedy'
    | func g =>
      obtain rfl : chars = f.name.toList := chars_eq (w := ⟨_, chars, spells⟩) nofun
      obtain rfl : chars' = g.name.toList := chars_eq (w := ⟨_, chars', spells'⟩) nofun
      obtain rfl : f = g := Lexeme.func_unique same
      rfl
    | number _ _ _ => cases number
    | op _ | opening | closing => cases word
  | op _ | opening | closing => exact sign_unique greedy greedy' rfl rfl number.symm word.symm same

theorem MaximalMunch.unique {ws ms : List (Written v)} (munch : MaximalMunch ws)
    (munch' : MaximalMunch ms) (same : text ws = text ms) : ws = ms := by
  induction ws generalizing ms with
  | nil =>
    cases ms with
    | nil => rfl
    | cons m ms => exact absurd (List.append_eq_nil_iff.mp same.symm).1 m.chars_ne_nil
  | cons w ws ih =>
    cases ms with
    | nil => exact absurd (List.append_eq_nil_iff.mp same).1 w.chars_ne_nil
    | cons m ms =>
      obtain rfl := first_unique munch.1 munch'.1 same
      rw [ih munch.2 munch'.2 (List.append_cancel_left same)]

end Written

namespace Lexer

/-- A text that is read is written in its longest lexemes, and these are found in its pieces. -/
theorem exists_reads_of_tokenize [Numeral α] {input : String} {stream : List (Token α)}
    (h : tokenize v input = .ok stream) :
    ∃ ws : List (Written (lower v)), Written.text ws = (clean input).toList ∧
      Written.MaximalMunch ws ∧ stream = insertProducts (ws.map Written.token) ∧
        ∀ w ∈ ws, ∃ p ∈ Piece.ofChars (clean input).toList, w.ReadsIn p := by
  obtain ⟨ts, scanned, rfl⟩ := scan_of_tokenize h
  obtain ⟨ws, rfl, text, munch, reads⟩ := Written.of_scan
    (fun _ hp => Piece.wellFormed_of_mem_ofChars hp) (Piece.separated_ofChars _) scanned
  exact ⟨ws, by rw [text, Piece.flatMap_chars_ofChars], munch, rfl, reads⟩

theorem exists_munch_of_tokenize [Numeral α] {input : String} {stream : List (Token α)}
    (h : tokenize v input = .ok stream) :
    ∃ ws : List (Written (lower v)), Written.text ws = (clean input).toList ∧
      Written.MaximalMunch ws ∧ stream = insertProducts (ws.map Written.token) := by
  obtain ⟨ws, text, munch, tokens, -⟩ := exists_reads_of_tokenize h
  exact ⟨ws, text, munch, tokens⟩

/-- Reading loses and adds nothing: the tokens of a text are those of its longest lexemes, with the
products written out that are meant between neighbours, and the text has no other such lexemes. -/
theorem tokenize_maximalMunch [Numeral α] {input : String} {stream : List (Token α)}
    (h : tokenize v input = .ok stream) :
    ∃ ws : List (Written (lower v)), Written.text ws = (clean input).toList ∧
      Written.MaximalMunch ws ∧ stream = Token.withProducts (ws.map Written.token) ∧
        ∀ ms, Written.text ms = (clean input).toList → Written.MaximalMunch ms → ms = ws := by
  obtain ⟨ws, text, munch, rfl⟩ := exists_munch_of_tokenize h
  refine ⟨ws, text, munch, Token.insertProducts_eq_withProducts _, fun ms text' munch' => ?_⟩
  exact munch'.unique munch (text'.trans text.symm)

/-- With a variable `e` the letters `exp` are still the function, and `**` is one power. -/
theorem tokenize_maximalMunch_exp :
    (tokenize "E" "2exp(E)3**e" : Except ParseError (List (Token Float))) =
      .ok [.num (Numeral.ofDecimal ⟨2, 0⟩), .op .mul, .func .exp, .opening, .var "e", .closing,
        .op .mul, .num (Numeral.ofDecimal ⟨3, 0⟩), .op .pow, .var "e"] ∧
    ∃ ws : List (Written (lower "E")), Written.text ws = (clean "2exp(E)3**e").toList ∧
      Written.MaximalMunch ws ∧
      [.num (Numeral.ofDecimal ⟨2, 0⟩), .op .mul, .func .exp, .opening, .var "e", .closing,
        .op .mul, .num (Numeral.ofDecimal ⟨3, 0⟩), .op .pow, .var "e"] =
        Token.withProducts (ws.map (Written.token (α := Float))) ∧
      ∀ ms, Written.text ms = (clean "2exp(E)3**e").toList → Written.MaximalMunch ms → ms = ws := by
  have read {α : Type} [Numeral α] : tokenize "E" "2exp(E)3**e" =
      .ok [.num (Numeral.ofDecimal ⟨2, 0⟩), .op .mul, .func .exp, .opening, .var "e", .closing,
        .op .mul, .num (Numeral.ofDecimal ⟨3, 0⟩), .op .pow, (.var "e" : Token α)] := by
    rfl
  exact ⟨read, tokenize_maximalMunch read⟩

end Lexer

end Univariate

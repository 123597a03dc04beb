import Univariate.Proofs.Lexemes

/-!
# Unique reading

Lexemes are tidy when no number runs on into the next lexeme and every function has its
parenthesis. Tidy lexemes can be recovered from their text, up to the tokens: numbers end at the
first character that is not of a numeral, and the variable cannot be taken for the beginning of a
function name. For then the rest of that name, up to the parenthesis, would be spelled by the
variable and by functions again, but a letter occurs only once in a function name, and no function
name ends in another.
-/
namespace Univariate

open Text

namespace Func

theorem nodup_name (f : Func) : f.name.toList.Nodup := by cases f <;> decide

/-- No function name is the end of another. -/
theorem eq_of_suffix {f g : Func} : f.name.toList <:+ g.name.toList → f = g := by
  cases f <;> cases g <;> decide

end Func

theorem Op.isNumeric_of_mem_symbol (o : Op) :
    ∀ c ∈ o.symbol.toList, Piece.isNumeric c = false := by
  cases o <;> simp [symbol, Piece.isNumeric, Char.isDigit]

theorem Op.isAlphabetic_of_mem_symbol (o : Op) :
    ∀ c ∈ o.symbol.toList, isAlphabetic c = false := by
  have all : o.symbol.toList.all (fun c => !isAlphabetic c) = true := by
    cases o <;> decide +kernel
  intro c hc
  simpa using List.all_eq_true.mp all c hc

theorem Op.symbol_ne_nil (o : Op) : o.symbol.toList ≠ [] := by cases o <;> decide

theorem takeWhile_append {p : Char → Bool} {xs rest : List Char} (run : ∀ c ∈ xs, p c = true)
    (stop : ∀ c ∈ rest.head?, p c = false) : (xs ++ rest).takeWhile p = xs := by
  rw [List.takeWhile_append_of_pos run]
  cases rest with
  | nil => simp
  | cons c cs => simp [stop c rfl]

/-- Where a run of a class of characters ends depends on the text alone. -/
theorem run_unique {p : Char → Bool} {xs ys rest rest' : List Char} (hx : ∀ c ∈ xs, p c = true)
    (hy : ∀ c ∈ ys, p c = true) (stop : ∀ c ∈ rest.head?, p c = false)
    (stop' : ∀ c ∈ rest'.head?, p c = false) (same : xs ++ rest = ys ++ rest') : xs = ys := by
  rw [← takeWhile_append hx stop, same, takeWhile_append hy stop']

namespace Lexeme

variable {v : String}

/-- What the text after a lexeme has to begin with. -/
def Stops : Lexeme v → List Char → Prop
  | number _ _ _, rest => ∀ c ∈ rest.head?, Piece.isNumeric c = false
  | func _, rest => rest.head? = some '('
  | _, _ => True

def Tidy : List (Lexeme v) → Prop
  | [] => True
  | l :: ls => l.Stops (spell ls) ∧ Tidy ls

def isNumber : Lexeme v → Bool
  | number _ _ _ => true
  | _ => false

def isWord : Lexeme v → Bool
  | var _ | func _ => true
  | _ => false

theorem chars_ne_nil (l : Lexeme v) : l.chars ≠ [] := by
  cases l with
  | number digits value reads => exact (Decimal.isNumeric_of_ofChars? reads).1
  | var isName => exact isName.toList_ne_nil
  | func f => exact f.name_ne_nil
  | op o => exact o.symbol_ne_nil
  | opening | closing => exact List.cons_ne_nil _ _

/-- The characters of numbers are not those of other lexemes. -/
theorem isNumeric_of_mem {l : Lexeme v} {c : Char} (h : c ∈ l.chars) :
    Piece.isNumeric c = l.isNumber := by
  cases l with
  | number digits value reads => exact (Decimal.isNumeric_of_ofChars? reads).2 c h
  | var isName => exact Piece.isNumeric_of_isAlphabetic (isName.letters c h)
  | func f => exact Piece.isNumeric_of_isAlphabetic (f.isAlphabetic_of_mem_name c h)
  | op o => exact o.isNumeric_of_mem_symbol c h
  | opening | closing =>
    obtain rfl := List.mem_singleton.mp h
    rfl

/-- Letters are those of names. -/
theorem isAlphabetic_of_mem {l : Lexeme v} {c : Char} (h : c ∈ l.chars) :
    isAlphabetic c = l.isWord := by
  cases l with
  | number digits value reads =>
    exact Piece.isAlphabetic_of_isNumeric ((Decimal.isNumeric_of_ofChars? reads).2 c h)
  | var isName => exact isName.letters c h
  | func f => exact f.isAlphabetic_of_mem_name c h
  | op o => exact o.isAlphabetic_of_mem_symbol c h
  | opening | closing =>
    obtain rfl := List.mem_singleton.mp h
    exact isAlphabetic_eq_false_of_lt (by simp)

variable {l m : Lexeme v} {ls ms : List (Lexeme v)}

/-- A lexeme with a character that is neither of a numeral nor a letter has no other, and its token
is what the lexer reads that character as. -/
theorem sign_of_mem {c : Char} (h : c ∈ l.chars) (noNumber : Piece.isNumeric c = false)
    (noLetter : isAlphabetic c = false) : l.chars = [c] ∧
      ∀ {α : Type} [Numeral α], Lexer.tokens (α := α) v 0 (.single c) = .ok [l.token] := by
  rw [isNumeric_of_mem h] at noNumber
  rw [isAlphabetic_of_mem h] at noLetter
  cases l with
  | number _ _ _ => cases noNumber
  | var _ | func _ => cases noLetter
  | op o =>
    cases o <;> obtain rfl := List.mem_singleton.mp h <;> exact ⟨rfl, rfl⟩
  | opening | closing =>
    obtain rfl := List.mem_singleton.mp h
    exact ⟨rfl, rfl⟩

theorem head_mem {c : Char} {rest more : List Char} (same : l.chars ++ rest = c :: more) :
    c ∈ l.chars := by
  obtain ⟨d, ds, first⟩ := List.exists_cons_of_ne_nil l.chars_ne_nil
  rw [first] at same ⊢
  cases same
  exact List.mem_cons_self

/-- Same characters and, for every type of numbers, the same token. -/
def Agree (l m : Lexeme v) : Prop :=
  l.chars = m.chars ∧ ∀ {α : Type} [Numeral α], l.token (α := α) = m.token

theorem agree_number {digits digits' : List Char} {d d' : Decimal}
    {reads : Decimal.ofChars? digits = some d} {reads' : Decimal.ofChars? digits' = some d'}
    (stop : ∀ c ∈ (spell ls).head?, Piece.isNumeric c = false)
    (stop' : ∀ c ∈ (spell ms).head?, Piece.isNumeric c = false)
    (same : digits ++ spell ls = digits' ++ spell ms) :
    Agree (number digits d reads : Lexeme v) (number digits' d' reads') := by
  obtain rfl : digits = digits' :=
    run_unique (Decimal.isNumeric_of_ofChars? reads).2 (Decimal.isNumeric_of_ofChars? reads').2
      stop stop' same
  obtain rfl : d = d' := Option.some.inj (reads.symm.trans reads')
  exact ⟨rfl, rfl⟩

theorem func_unique {f g : Func} {rest rest' : List Char}
    (same : f.name.toList ++ rest = g.name.toList ++ rest') : f = g := by
  rcases Nat.le_total f.name.toList.length g.name.toList.length with shorter | longer
  · exact Func.eq_of_prefix (List.prefix_of_prefix_length_le ⟨rest, rfl⟩ ⟨rest', same.symm⟩ shorter)
  · exact (Func.eq_of_prefix
      (List.prefix_of_prefix_length_le ⟨rest', same.symm⟩ ⟨rest, rfl⟩ longer)).symm

/-- Two names after a common beginning that ends where the shorter one does. -/
theorem var_ne_func (isName : IsName v) (tidy : Tidy ls) {f : Func} {rest : List Char}
    (stop : rest.head? = some '(') : v.toList ++ spell ls ≠ f.name.toList ++ rest := by
  intro same
  have noLetter : isAlphabetic '(' = false := isAlphabetic_eq_false_of_lt (by simp)
  have notFunc : v.toList ≠ f.name.toList :=
    fun h => isName.ne_func f (String.toList_inj.mp h.symm)
  rcases List.append_eq_append_iff.mp same with ⟨w, whole, later⟩ | ⟨w, whole, later⟩
  · -- the function name goes on after the variable
    cases w with
    | nil => exact notFunc (by simpa using whole.symm)
    | cons c w =>
      cases ls with
      | nil => cases later
      | cons l ls =>
        obtain ⟨stops, _⟩ := tidy
        have letters : ∀ d ∈ c :: w, isAlphabetic d = true := fun d hd =>
          f.isAlphabetic_of_mem_name d (by rw [whole]; exact List.mem_append_right _ hd)
        rw [spell_cons] at later
        have word : l.isWord = true := by
          rw [← isAlphabetic_of_mem (head_mem later)]
          exact letters c List.mem_cons_self
        cases l with
        | var _ =>
          obtain ⟨d, ds, first⟩ := List.exists_cons_of_ne_nil isName.toList_ne_nil
          have twice : d = c := by
            have := congrArg List.head? later
            simpa [chars, first] using this
          have nodup := f.nodup_name
          rw [whole, first] at nodup
          simp [twice] at nodup
        | func g =>
          have suffix : g.name.toList = c :: w := by
            refine run_unique g.isAlphabetic_of_mem_name letters ?_ ?_ later
            · rintro d hd
              obtain rfl : '(' = d := Option.some.inj (stops.symm.trans hd)
              exact noLetter
            · intro d hd
              obtain rfl : '(' = d := Option.some.inj (stop.symm.trans hd)
              exact noLetter
          obtain rfl : g = f := Func.eq_of_suffix ⟨v.toList, by rw [suffix, whole]⟩
          rw [← suffix] at whole
          have := congrArg List.length whole
          have := List.length_pos_iff.mpr isName.toList_ne_nil
          rw [List.length_append] at *
          omega
        | number _ _ _ | op _ | opening | closing => cases word
  · -- the variable goes on after the function name, where the parenthesis is
    cases w with
    | nil => exact notFunc (by simpa using whole)
    | cons c w =>
      rw [later] at stop
      obtain rfl : c = '(' := by simpa using stop
      have := isName.letters '(' (by rw [whole]; simp)
      rw [noLetter] at this
      cases this

theorem agree_sign {c : Char} (h : c ∈ l.chars) (h' : c ∈ m.chars)
    (noNumber : Piece.isNumeric c = false) (noLetter : isAlphabetic c = false) : Agree l m := by
  obtain ⟨chars, reads⟩ := sign_of_mem h noNumber noLetter
  obtain ⟨chars', reads'⟩ := sign_of_mem h' noNumber noLetter
  constructor
  · rw [chars, chars']
  · intro α _
    have same := Except.ok.inj ((@reads α _).symm.trans reads')
    exact List.singleton_inj.mp same

/-- Tidy lexemes with one text begin with the same token. -/
theorem agree_of_spell (tidy : Tidy (l :: ls)) (tidy' : Tidy (m :: ms))
    (same : spell (l :: ls) = spell (m :: ms)) : Agree l m := by
  obtain ⟨c, cs, first⟩ := List.exists_cons_of_ne_nil l.chars_ne_nil
  have left : c ∈ l.chars := by rw [first]; exact List.mem_cons_self
  have right : c ∈ m.chars := by
    have same : m.chars ++ spell ms = c :: (cs ++ spell ls) := by
      rw [← spell_cons, ← same, spell_cons, first]
      rfl
    exact head_mem same
  have number : l.isNumber = m.isNumber := by
    rw [← isNumeric_of_mem left, isNumeric_of_mem right]
  have word : l.isWord = m.isWord := by
    rw [← isAlphabetic_of_mem left, isAlphabetic_of_mem right]
  cases l with
  | number digits d reads =>
    cases m with
    | number digits' d' reads' => exact agree_number tidy.1 tidy'.1 same
    | var _ | func _ | op _ | opening | closing => cases number
  | var isName =>
    cases m with
    | var _ => exact ⟨rfl, rfl⟩
    | func g => exact absurd same (var_ne_func isName tidy.2 tidy'.1)
    | number _ _ _ => cases number
    | op _ | opening | closing => cases word
  | func f =>
    cases m with
    | var isName => exact absurd same.symm (var_ne_func isName tidy'.2 tidy.1)
    | func g =>
      obtain rfl : f = g := func_unique same
      exact ⟨rfl, rfl⟩
    | number _ _ _ => cases number
    | op _ | opening | closing => cases word
  | op _ | opening | closing =>
    exact agree_sign left right (isNumeric_of_mem left) (isAlphabetic_of_mem left)

/-- Unique reading: tidy lexemes with one text are the same tokens. -/
theorem map_token_unique {α : Type} [Numeral α] (tidy : Tidy ls) (tidy' : Tidy ms)
    (same : spell ls = spell ms) : ls.map (token (α := α)) = ms.map token := by
  induction ls generalizing ms with
  | nil =>
    cases ms with
    | nil => rfl
    | cons m ms => exact absurd (List.append_eq_nil_iff.mp same.symm).1 m.chars_ne_nil
  | cons l ls ih =>
    cases ms with
    | nil => exact absurd (List.append_eq_nil_iff.mp same).1 l.chars_ne_nil
    | cons m ms =>
      obtain ⟨chars, tokens⟩ := agree_of_spell tidy tidy' same
      rw [spell_cons, spell_cons, chars] at same
      rw [List.map_cons, List.map_cons, tokens, ih tidy.2 tidy'.2 (List.append_cancel_left same)]

end Lexeme

end Univariate

import Univariate.Proofs.MaximalMunch

/-!
# Unknown names

Where a text is refused for a name, the name is a stretch of one run of letters. What stands before
it in the run is cut into the longest names, no name starts inside it, and it goes up to the next
one or to the end of the run. So an unknown word is reported whole, and nothing that could be read
is reported with it.
-/
namespace Univariate

open Text

variable {α : Type} {v : String}

namespace Name

/-- A function name or the variable stands at the head of the letters. -/
def Starts (v : String) (letters : List Char) : Prop :=
  ∃ name : Name, name.Known v ∧ name.text.toList <+: letters

/-- `CutOff v rest letters names` cuts the longest names off the letters, up to the rest. -/
inductive CutOff (v : String) (rest : List Char) : List Char → List Name → Prop where
  | nil : CutOff v rest rest []
  | cons {name : Name} {letters : List Char} {names : List Name} :
      IsLongest v (name.text.toList ++ letters) name → CutOff v rest letters names →
      CutOff v rest (name.text.toList ++ letters) (name :: names)

/-- The letters before `rest` in which no name starts. -/
structure IsUnknown (v : String) (letters rest : List Char) : Prop where
  ne_nil : letters ≠ []
  unnamed : ∀ front back, letters = front ++ back → back ≠ [] → ¬Starts v (back ++ rest)
  ends : rest = [] ∨ Starts v rest

end Name

namespace Lexer

open Name

theorem known_of_name? {letters : List Char} {name : Name} (h : name? v letters = some name) :
    Starts v letters :=
  have longest := isLongest_of_name? h
  ⟨name, longest.known, longest.starts⟩

theorem name?_eq_none_iff {letters : List Char} : name? v letters = none ↔ ¬Starts v letters := by
  constructor
  · rintro none ⟨name, known, front⟩
    have starts : name.startsIn letters = true := List.isPrefixOf_iff_prefix.mpr front
    cases name with
    | func f =>
      cases found : (Func.all.map Name.func).find? (·.startsIn letters) with
      | none => exact List.find?_eq_none.mp found _ (List.mem_map_of_mem f.mem_all) starts
      | some g =>
        simp only [name?, found] at none
        split at none
        · split at none <;> cases none
        · simp at none
    | var s =>
      obtain ⟨rfl, some_char⟩ := known
      simp only [name?, if_pos (And.intro some_char starts)] at none
      split at none
      · split at none <;> cases none
      · simp at none
  · intro unnamed
    cases found : name? v letters with
    | none => rfl
    | some name => exact absurd (known_of_name? found) unnamed

theorem name?_eq_some_iff {letters : List Char} {name : Name} :
    name? v letters = some name ↔ IsLongest v letters name := by
  refine ⟨isLongest_of_name?, fun longest => ?_⟩
  cases found : name? v letters with
  | none => exact absurd ⟨name, longest.known, longest.starts⟩ (name?_eq_none_iff.mp found)
  | some other => rw [(isLongest_of_name? found).unique longest]

theorem unnamed_of_none {c : Char} {cs : List Char} (none : name? v (c :: cs) = none) :
    unnamed v (c :: cs) = c :: unnamed v cs := by
  simp [unnamed, none]

/-- What is taken for unknown ends where a name starts, and none starts inside it. -/
theorem exists_unnamed (letters : List Char) : ∃ rest, letters = unnamed v letters ++ rest ∧
    (∀ front back, unnamed v letters = front ++ back → back ≠ [] → ¬Starts v (back ++ rest)) ∧
      (rest = [] ∨ Starts v rest) := by
  induction letters with
  | nil => exact ⟨[], rfl, by simp [unnamed], .inl rfl⟩
  | cons c cs ih =>
    cases found : name? v (c :: cs) with
    | some name =>
      have empty : unnamed v (c :: cs) = [] := by simp [unnamed, found]
      rw [empty]
      exact ⟨c :: cs, rfl, by simp, .inr (known_of_name? found)⟩
    | none =>
      obtain ⟨rest, whole, inside, ends⟩ := ih
      rw [unnamed_of_none found]
      refine ⟨rest, by rw [List.cons_append, ← whole], ?_, ends⟩
      intro front back split some_char
      cases front with
      | nil =>
        obtain rfl : c :: unnamed v cs = back := split
        rw [List.cons_append, ← whole]
        exact name?_eq_none_iff.mp found
      | cons d front =>
        exact inside front back (List.cons.inj split).2 some_char

theorem splitWord_error {offset : Nat} {letters : List Char} {m : Mistake}
    (h : splitWord (α := α) v offset 0 letters = .error m) : ∃ front unknown rest names,
      letters = front ++ unknown ++ rest ∧ CutOff v (unknown ++ rest) letters names ∧
        IsUnknown v unknown rest ∧ m = ⟨.unknownName (String.ofList unknown) v,
          ⟨offset + byteSize front, byteSize unknown⟩⟩ := by
  induction size : letters.length using Nat.strongRecOn generalizing offset letters with
  | _ n ih =>
    cases letters with
    | nil => cases h
    | cons c cs =>
      cases found : name? v (c :: cs) with
      | none =>
        obtain ⟨rest, whole, inside, ends⟩ := exists_unnamed (v := v) (c :: cs)
        simp only [splitWord, found, Except.error.injEq] at h
        rw [← unnamed_of_none found] at h
        subst h
        have some_char : unnamed v (c :: cs) ≠ [] := by simp [unnamed_of_none found]
        have cut : CutOff v (unnamed v (c :: cs) ++ rest) (c :: cs) [] := by
          rw [← whole]
          exact .nil
        exact ⟨[], unnamed v (c :: cs), rest, [], whole, cut, ⟨some_char, inside, ends⟩, rfl⟩
      | some name =>
        have longest := isLongest_of_name? found
        obtain ⟨letters, split⟩ := longest.starts
        have text := text_ne_nil_of_name? found
        rw [← split] at found h size longest ⊢
        rw [splitWord_name text found] at h
        cases tail : splitWord (α := α) v (offset + byteSize name.text.toList) 0 letters with
        | ok ts => rw [tail] at h; cases h
        | error m' =>
          rw [tail] at h
          cases h
          have shorter : letters.length < n := by
            have := List.length_pos_iff.mpr text
            rw [List.length_append] at size
            omega
          obtain ⟨front, unknown, rest, names, whole, cut, isUnknown, rfl⟩ :=
            ih letters.length shorter tail rfl
          refine ⟨name.text.toList ++ front, unknown, rest, name :: names, ?_, .cons longest cut,
            isUnknown, ?_⟩
          · rw [whole]
            simp only [List.append_assoc]
          · rw [byteSize_append, Nat.add_assoc]

/-- A piece is refused as a numeral, for its unknown name or for its character. -/
theorem tokens_error_cases [Numeral α] {offset : Nat} {p : Piece} {m : Mistake}
    (h : tokens (α := α) v offset p = .error m) :
    (∃ c cs, p = .number c cs ∧
        m = ⟨.unexpected (String.ofList (c :: cs)) .numeral, ⟨offset, byteSize (c :: cs)⟩⟩) ∨
      (∃ c cs, p = .word c cs ∧ splitWord (α := α) v offset 0 (c :: cs) = .error m) ∨
      ∃ c, p = .single c ∧
        m = ⟨.unexpected (String.singleton c) .character, ⟨offset, c.utf8Size⟩⟩ := by
  unfold tokens at h
  split at h
  · split at h
    · cases h
    · cases h
      exact .inl ⟨_, _, rfl, rfl⟩
  · exact .inr (.inl ⟨_, _, rfl, h⟩)
  all_goals cases h
  exact .inr (.inr ⟨_, rfl, rfl⟩)

/-- A text is refused at a piece for its length, or for what is in the piece. -/
theorem scan_error_cases [Numeral α] {offset count : Nat} {pieces : List Piece} {m : Mistake}
    (h : scan (α := α) v offset count pieces = .error m) : ∃ front p later,
      pieces = front ++ p :: later ∧
        (m = ⟨.unexpected (String.singleton p.first) .tooLong,
            ⟨offset + byteSize (front.flatMap Piece.chars), p.first.utf8Size⟩⟩ ∨
          tokens (α := α) v (offset + byteSize (front.flatMap Piece.chars)) p = .error m) := by
  induction pieces generalizing offset count with
  | nil => cases h
  | cons p pieces ih =>
    rw [scan] at h
    split at h
    · cases h
      exact ⟨[], p, pieces, rfl, .inl rfl⟩
    · cases first : tokens (α := α) v offset p with
      | error m' =>
        rw [first] at h
        cases h
        exact ⟨[], p, pieces, rfl, .inr first⟩
      | ok ts =>
        cases later : scan (α := α) v (offset + byteSize p.chars) (count + ts.length) pieces with
        | ok us => simp [first, later, bind, Except.bind, pure, Except.pure] at h
        | error m' =>
          simp only [first, later, bind, Except.bind, Except.error.injEq] at h
          subst h
          obtain ⟨front, q, rest, rfl, refused⟩ := ih later
          refine ⟨p :: front, q, rest, rfl, ?_⟩
          rw [List.flatMap_cons, byteSize_append, ← Nat.add_assoc]
          exact refused

theorem scan_of_tokenize_error [Numeral α] {input : String} {error : ParseError}
    (h : tokenize (α := α) v input = .error error) :
    ∃ m, scan (α := α) (lower v) 0 0 (Piece.ofChars (clean input).toList) = .error m ∧
      error = m.inText (clean input) := by
  simp only [tokenize] at h
  split at h
  · cases h
  · rename_i m scanned
    cases h
    exact ⟨m, scanned, rfl⟩

end Lexer

/-! ## Runs of letters -/

/-- Letters that cannot be made more on either side. -/
structure IsRun (before run after : List Char) : Prop where
  letters : ∀ c ∈ run, isAlphabetic c = true
  before : ∀ c ∈ before.getLast?, isAlphabetic c = false
  after : ∀ c ∈ after.head?, isAlphabetic c = false

namespace Piece

theorem Separated.of_append {xs ys : List Piece} (h : Separated (xs ++ ys)) : Separated ys := by
  induction xs with
  | nil => exact h
  | cons x xs ih => exact ih h.2

theorem chars_ne_nil (p : Piece) : p.chars ≠ [] := by cases p <;> simp [chars]

/-- A word is a whole run of letters. -/
theorem isRun_word {front later : List Piece} {c : Char} {cs : List Char}
    (wf : ∀ p ∈ front ++ .word c cs :: later, p.WellFormed)
    (separated : Separated (front ++ .word c cs :: later)) :
    IsRun (front.flatMap chars) (c :: cs) (later.flatMap chars) := by
  have letters : ∀ d ∈ c :: cs, isAlphabetic d = true :=
    wf (.word c cs) (List.mem_append_right _ List.mem_cons_self)
  refine ⟨letters, ?_, separated.of_append.1⟩
  intro d last
  rcases List.eq_nil_or_concat' front with rfl | ⟨front, q, rfl⟩
  · cases last
  · have inside : d ∈ q.chars := by
      rw [List.flatMap_append, List.flatMap_cons, List.flatMap_nil, List.append_nil,
        List.getLast?_append_of_ne_nil _ q.chars_ne_nil] at last
      exact List.mem_of_getLast? last
    have shape := wf q (by simp)
    cases q with
    | number e es => exact isAlphabetic_of_isNumeric (shape d inside)
    | word e es =>
      rw [List.append_assoc] at separated
      have stop := separated.of_append.1 c rfl
      rw [letters c List.mem_cons_self] at stop
      cases stop
    | power =>
      obtain rfl : d = '*' := by simpa [chars] using inside
      exact isAlphabetic_eq_false_of_lt (by decide)
    | single e =>
      obtain rfl : d = e := by simpa [chars] using inside
      exact shape.2

end Piece

namespace Lexer

open Name

variable [Numeral α] {input : String}

/-- An unknown name is reported whole and alone. The text is cut around the run of letters with the
name, and the run around the name. What stands before it is cut into the longest names, no name
starts inside it, and it ends with the run or before a name. The empty variable is no name. -/
theorem tokenize_unknownName {error : ParseError} {name var : String}
    (rejected : tokenize (α := α) v input = .error error)
    (unknown : error.problem = .unknownName name var) :
    var = lower v ∧ error.source = clean input ∧ ∃ before front rest after names,
      (clean input).toList = before ++ (front ++ name.toList ++ rest) ++ after ∧
        error.span = ⟨byteSize (before ++ front), byteSize name.toList⟩ ∧
        IsRun before (front ++ name.toList ++ rest) after ∧
        CutOff (lower v) (name.toList ++ rest) (front ++ name.toList ++ rest) names ∧
        IsUnknown (lower v) name.toList rest := by
  obtain ⟨m, scanned, rfl⟩ := scan_of_tokenize_error rejected
  obtain ⟨before, p, after, pieces, tooLong | refused⟩ := scan_error_cases scanned
  · subst tooLong
    cases unknown
  obtain ⟨c, cs, -, numeral⟩ | ⟨c, cs, rfl, split⟩ | ⟨c, -, character⟩ :=
    tokens_error_cases refused
  · subst numeral
    cases unknown
  · have run := Piece.isRun_word
      (by rw [← pieces]; exact fun _ hp => Piece.wellFormed_of_mem_ofChars hp)
      (by rw [← pieces]; exact Piece.separated_ofChars _)
    have whole := Piece.flatMap_chars_ofChars (clean input).toList
    rw [pieces, List.flatMap_append, List.flatMap_cons] at whole
    obtain ⟨front, letters, rest, names, word, cut, isUnknown, rfl⟩ := splitWord_error split
    cases unknown
    rw [word] at run cut
    refine ⟨rfl, rfl, before.flatMap Piece.chars, front, rest, after.flatMap Piece.chars, names, ?_⟩
    rw [String.toList_ofList]
    refine ⟨?_, ?_, run, cut, isUnknown⟩
    · rw [← whole, Piece.chars, word]
      simp only [List.append_assoc]
    · simp [Mistake.inText]
  · subst character
    cases unknown

/-- With a variable `Si` the letters between `si` and `sin` are unknown. -/
theorem tokenize_unknownName_overlap :
    tokenize (α := Float) "Si" "2 siçosin(x)" =
        .error ⟨⟨.unknownName "ço" "si", ⟨3, 3⟩⟩, "2siçosin(x)"⟩ ∧
      ∃ before front rest after names,
        (clean "2 siçosin(x)").toList = before ++ (front ++ "ço".toList ++ rest) ++ after ∧
        (⟨3, 3⟩ : Span) = ⟨byteSize (before ++ front), byteSize "ço".toList⟩ ∧
        IsRun before (front ++ "ço".toList ++ rest) after ∧
        CutOff (lower "Si") ("ço".toList ++ rest) (front ++ "ço".toList ++ rest) names ∧
        IsUnknown (lower "Si") "ço".toList rest := by
  have rejected : tokenize (α := Float) "Si" "2 siçosin(x)" =
      .error ⟨⟨.unknownName "ço" "si", ⟨3, 3⟩⟩, "2siçosin(x)"⟩ := by decide +kernel
  exact ⟨rejected, (tokenize_unknownName rejected rfl).2.2⟩

end Lexer

end Univariate

import Univariate.Proofs.OpenGroups
import Univariate.Proofs.Reprinting
import Univariate.Proofs.UnknownNames

/-!
# What error labels cover

The stretch of an error cuts its source into three parts, and the middle one is what the error
names. While tokens are read the parts are pieces of the cleaned text, or of one of its words; once
they are parsed the middle part is the text of a token. Only the end of the input has no text.
-/
namespace Univariate

open Text

namespace Problem

/-- The text that an error is about. -/
def subject : Problem → String
  | unexpected found _ => found
  | unknownName name _ => name
  | unbalanced .unmatched => ")"
  | unbalanced .unclosed => "("

/-- What is reported when the text ends too soon. -/
def IsEnd (p : Problem) : Prop := ∃ why, p = .unexpected "end of input" why

theorem not_isEnd_singleton (c : Char) (why : Unexpected) :
    ¬ (unexpected (String.singleton c) why).IsEnd := by
  rintro ⟨_, same⟩
  have length := congrArg String.length (unexpected.inj same).1
  rw [String.length_singleton] at length
  exact absurd length (by decide)

theorem not_isEnd_numeral {c : Char} {cs : List Char} {why : Unexpected}
    (numeric : Piece.isNumeric c = true) :
    ¬ (unexpected (String.ofList (c :: cs)) why).IsEnd := by
  rintro ⟨_, same⟩
  have chars := congrArg String.toList (unexpected.inj same).1
  rw [String.toList_ofList] at chars
  obtain rfl : c = 'e' := (List.cons.inj chars).1
  cases numeric

end Problem

/-- The span cuts a text in three at the ends of characters. -/
structure Span.Cuts (span : Span) (whole before under after : String) : Prop where
  whole_eq : whole = before ++ under ++ after
  offset_eq : span.offset = before.utf8ByteSize
  length_eq : span.length = under.utf8ByteSize

/-- The error covers in its source what it is about. Only the end of the input is no text there. -/
def ParseError.Covers (error : ParseError) : Prop :=
  ∃ before under after, error.span.Cuts error.source before under after ∧
    (¬ error.problem.IsEnd ∧ under = error.problem.subject ∨
      error.problem.IsEnd ∧ under = "" ∧ after = "")

variable {α : Type} [Numeral α] {v input : String}

/-! ## While tokens are read -/

theorem ParseError.Covers.of_chars {m : Mistake} {text : String} (before under after : List Char)
    (whole : text.toList = before ++ under ++ after)
    (span : m.span = ⟨byteSize before, byteSize under⟩)
    (inside : ¬ m.problem.IsEnd) (subject : m.problem.subject = String.ofList under) :
    (m.inText text).Covers := by
  have size (cs : List Char) : (String.ofList cs).utf8ByteSize = byteSize cs := by
    rw [← byteSize_toList, String.toList_ofList]
  refine ⟨String.ofList before, String.ofList under, String.ofList after, ⟨?_, ?_, ?_⟩,
    .inl ⟨inside, subject.symm⟩⟩
  · rw [Mistake.inText, ← String.ofList_append, ← String.ofList_append, ← whole,
      String.ofList_toList]
  · rw [Mistake.inText, span, size]
  · rw [Mistake.inText, span, size]

namespace Lexer

theorem covers_of_tokenize {error : ParseError}
    (rejected : tokenize (α := α) v input = .error error) :
    error.Covers ∧ error.source = clean input := by
  obtain ⟨m, scanned, rfl⟩ := scan_of_tokenize_error rejected
  refine ⟨?_, rfl⟩
  obtain ⟨front, p, later, pieces, refused⟩ := scan_error_cases scanned
  have whole := Piece.flatMap_chars_ofChars (clean input).toList
  have wf : p.WellFormed :=
    Piece.wellFormed_of_mem_ofChars (pieces ▸ List.mem_append_right front List.mem_cons_self)
  rw [pieces, List.flatMap_append, List.flatMap_cons, ← List.append_assoc] at whole
  rw [Nat.zero_add] at refused
  obtain rfl | refused := refused
  · obtain ⟨cs, chars⟩ := List.head?_eq_some_iff.mp p.head?_chars
    refine .of_chars _ [p.first] (cs ++ later.flatMap Piece.chars) ?_ rfl
      (Problem.not_isEnd_singleton _ _) rfl
    rw [← whole, chars]
    simp only [List.append_assoc, List.cons_append, List.nil_append]
  obtain ⟨c, cs, rfl, rfl⟩ | ⟨c, cs, rfl, split⟩ | ⟨c, rfl, rfl⟩ := tokens_error_cases refused
  · exact .of_chars _ _ _ whole.symm rfl (Problem.not_isEnd_numeral (wf c List.mem_cons_self)) rfl
  · obtain ⟨letters, unknown, rest, -, word, -, -, rfl⟩ := splitWord_error split
    refine .of_chars (front.flatMap Piece.chars ++ letters) unknown
      (rest ++ later.flatMap Piece.chars) ?_ ?_ nofun rfl
    · rw [← whole, Piece.chars, word]
      simp only [List.append_assoc]
    · rw [byteSize_append]
  · exact .of_chars _ _ _ whole.symm rfl (Problem.not_isEnd_singleton _ _) rfl

end Lexer

/-! ## Once they are parsed -/

namespace Parser

omit [Numeral α] in
/-- A fault is at one of the tokens, unless a value is missing at the end. -/
theorem index_lt_or_missingValue {ts : List (Token α)} {fault : Fault}
    (rejected : Expr.ofTokens ts = .error fault) :
    fault.index < ts.length ∨ fault = .unexpected ts.length .missingValue := by
  obtain ⟨read, rest, s, rfl, reached, stops⟩ := exists_stops ts
  rw [rejected] at stops
  cases stops with
  | missingValue ps =>
    rw [List.append_nil]
    exact .inr rfl
  | unclosed inside =>
    have encloses := reached.encloses
    rw [inside] at encloses
    rw [List.append_nil]
    exact .inl encloses.index_lt
  | function f ps gs => exact .inl (by simp [Fault.index])
  | refused h rest =>
    have index := h.index_eq
    simp only [List.length_append]
    omega

/-- The token that a fault is at is the text that the error is about. -/
theorem subject_locate {ts : List (Token α)} {fault : Fault} {t : Token α}
    (rejected : Expr.ofTokens ts = .error fault) (found : ts[fault.index]? = some t) :
    (fault.locate ts).problem.subject = t.text := by
  cases fault with
  | unexpected k why =>
    have found : ts[k]? = some t := found
    simp [Fault.locate, Fault.index, Problem.subject, found]
  | unbalanced k side =>
    have found : ts[k]? = some t := found
    obtain ⟨-, -, ⟨rfl, closing, -⟩ | ⟨rfl, last⟩⟩ := of_unbalanced rejected
    · obtain rfl : t = .closing := Option.some.inj (found.symm.trans closing)
      rfl
    · obtain rfl : t = .opening := Option.some.inj (found.symm.trans last.opening)
      rfl

theorem text_of_isEnd {ts : List (Token α)} {fault : Fault} {t : Token α}
    (found : ts[fault.index]? = some t) (isEnd : (fault.locate ts).problem.IsEnd) :
    t.text = "end of input" := by
  obtain ⟨why, problem⟩ := isEnd
  cases fault with
  | unexpected k why =>
    have found : ts[k]? = some t := found
    simp only [Fault.locate, Fault.index, List.getElem?_map, found, Option.map_some,
      Option.getD_some, Problem.unexpected.injEq] at problem
    exact problem.1
  | unbalanced k side => simp [Fault.locate] at problem

theorem cuts_locate {ts : List (Token α)} {fault : Fault} {t : Token α}
    (found : ts[fault.index]? = some t) :
    (fault.locate ts).span.Cuts (fault.locate ts).source
      (String.join ((ts.take fault.index).map Token.text)) t.text
      (String.join ((ts.drop (fault.index + 1)).map Token.text)) := by
  constructor
  case whole_eq =>
    obtain ⟨within, rfl⟩ := List.getElem?_eq_some_iff.mp found
    have split := List.take_append_drop fault.index ts
    rw [List.drop_eq_getElem_cons within] at split
    change String.join (ts.map Token.text) = _
    conv_lhs => rw [← split]
    rw [List.map_append, List.map_cons, String.join_append, String.join_cons, String.append_assoc]
  case offset_eq => simp only [Fault.locate, List.map_take]
  case length_eq => simp [Fault.locate, found]

theorem cuts_locate_end (ts : List (Token α)) (why : Unexpected) :
    (Fault.locate ts (.unexpected ts.length why)).span.Cuts (String.join (ts.map Token.text))
      (String.join (ts.map Token.text)) "" "" := by
  constructor
  case whole_eq => simp
  case offset_eq => simp only [Fault.locate, Fault.index, ← List.map_take, List.take_length]
  case length_eq => simp [Fault.locate, Fault.index]

theorem covers_of_ofTokens {ts : List (Token α)} {fault : Fault}
    (inside : ∀ t ∈ ts, t.text ≠ "end of input")
    (rejected : Expr.ofTokens ts = .error fault) : (fault.locate ts).Covers := by
  obtain within | rfl := index_lt_or_missingValue rejected
  · have found := List.getElem?_eq_getElem within
    exact ⟨_, _, _, cuts_locate found, .inl ⟨fun isEnd => inside _ (List.getElem_mem within)
      (text_of_isEnd found isEnd), (subject_locate rejected found).symm⟩⟩
  · refine ⟨_, _, _, cuts_locate_end ts .missingValue, .inr ⟨⟨.missingValue, ?_⟩, rfl, rfl⟩⟩
    simp [Fault.locate, Fault.index]

end Parser

/-! ## No token is the end of the input -/

theorem Double.blank_notMem_text (x : Float) : ' ' ∉ (Double.text x).toList :=
  fun blank => absurd (isBlank_of_mem_text blank) (by decide)

theorem Token.text_ne_end {ts : List (Token Float)} (read : Lexer.tokenize v input = .ok ts)
    {t : Token Float} (h : t ∈ ts) : t.text ≠ "end of input" := by
  suffices blankless : ' ' ∉ t.text.toList from fun same => blankless (by rw [same]; decide)
  obtain ⟨l, rfl⟩ | rfl := Lexer.exists_lexeme read h
  · cases l with
    | number digits d reads => exact Double.blank_notMem_text _
    | var isName => exact fun blank => absurd (isName.letters _ blank) (by decide)
    | func f =>
      change ' ' ∉ f.name.toList
      cases f <;> decide
    | op o =>
      change ' ' ∉ o.symbol.toList
      cases o <;> decide
    | opening =>
      change ' ' ∉ "(".toList
      decide
    | closing =>
      change ' ' ∉ ")".toList
      decide
  · change ' ' ∉ Op.mul.symbol.toList
    decide

/-- The label of an error covers in its source what the error is about. -/
theorem Expr.covers_of_parse {error : ParseError}
    (rejected : parse (α := Float) v input = .error error) :
    error.Covers ∧
      (Lexer.tokenize (α := Float) v input = .error error ∧ error.source = clean input ∨
        ∃ ts : List (Token Float), Lexer.tokenize v input = .ok ts ∧
          error.source = String.join (ts.map Token.text)) := by
  obtain rejected | ⟨ts, fault, read, faulty, rfl⟩ := parse_error_cases rejected
  · obtain ⟨covers, source⟩ := Lexer.covers_of_tokenize rejected
    exact ⟨covers, .inl ⟨rejected, source⟩⟩
  · have inside : ∀ t ∈ ts, t.text ≠ "end of input" := fun t h => Token.text_ne_end read h
    exact ⟨Parser.covers_of_ofTokens inside faulty, .inr ⟨ts, read, rfl⟩⟩

/-- The variable has two bytes, and the product is written out before the label. -/
theorem Expr.covers_of_parse_operator :
    let error : ParseError := ⟨⟨.unexpected ")" .closing, ⟨6, 1⟩⟩, "(2*δ+)"⟩
    parse (α := Float) "Δ" "( 2Δ + )" = .error error ∧ error.Covers := by
  have rejected : parse (α := Float) "Δ" "( 2Δ + )" =
      .error ⟨⟨.unexpected ")" .closing, ⟨6, 1⟩⟩, "(2*δ+)"⟩ := by decide +kernel
  exact ⟨rejected, (covers_of_parse rejected).1⟩

end Univariate

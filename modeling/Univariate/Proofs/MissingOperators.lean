import Univariate.Proofs.Descent
import Univariate.Proofs.MaximalMunch
import Univariate.Proofs.UnknownNames

/-!
# No operator is missing

Between two operands that meet in a text a product is written out, unless both are numbers. Numbers
do not meet, since their digits would have been one number. So after an operand the tokens of a text
go on with an operator or a closing parenthesis. The parser has an error for other tokens there, and
a parser by descent has one for a group that goes on after its inside. No text has either of them.
-/
namespace Univariate

open Text

variable {α : Type}

namespace Token

/-- After the end of an operand comes an operator or a closing parenthesis. -/
def Joined (t u : Token α) : Prop := t.endsOperand = true → u = closing ∨ ∃ o, u = op o

def NotBothNum (t u : Token α) : Prop := ¬ (t.kind = .num ∧ u.kind = .num)

theorem joined_of_not_isProduct {t u : Token α} (apart : NotBothNum t u)
    (product : Lexer.isProduct t u = false) : Joined t u := by
  cases t <;> cases u <;> simp_all [Joined, NotBothNum, endsOperand, Lexer.isProduct, kind]

theorem joined_op_left (o : Op) (u : Token α) : Joined (op o) u := nofun

theorem joined_op_right (t : Token α) (o : Op) : Joined t (op o) := fun _ => .inr ⟨o, rfl⟩

end Token

open Token

/-! ## The tokens of a text -/

theorem Lexeme.isNumber_eq [Numeral α] {v : String} (l : Lexeme v) :
    l.isNumber = decide ((l.token : Token α).kind = .num) := by
  cases l <;> rfl

namespace Written

variable {v : String} [Numeral α]

/-- No number could have been longer, so none is followed by another one. -/
theorem notBothNum_of_isGreedy {w m : Written v} {rest : List Char}
    (greedy : w.IsGreedy (m.chars ++ rest)) : NotBothNum (α := α) w.token m.token := by
  rintro ⟨left, right⟩
  obtain ⟨c, cs, first⟩ := List.exists_cons_of_ne_nil m.chars_ne_nil
  have numeric : Piece.isNumeric c = true := by
    rw [isNumeric_of_mem (w := m) (by rw [first]; exact List.mem_cons_self),
      m.lexeme.isNumber_eq (α := α)]
    exact decide_eq_true right
  obtain ⟨l, chars, spells⟩ := w
  cases l with
  | number digits value reads =>
    rw [first] at greedy
    rw [greedy c rfl] at numeric
    cases numeric
  | var isName | func f | op o | opening | closing => cases left

theorem MaximalMunch.isChain_notBothNum {ws : List (Written v)} (munch : MaximalMunch ws) :
    (ws.map (token (α := α))).IsChain NotBothNum := by
  induction ws with
  | nil => exact .nil
  | cons w ws ih =>
    cases ws with
    | nil => exact .singleton _
    | cons m ws => exact .cons_cons (notBothNum_of_isGreedy munch.1) (ih munch.2)

end Written

namespace Lexer

variable [Numeral α] {v input : String}

theorem isChain_joined_of_tokenize {ts : List (Token α)} (read : tokenize v input = .ok ts) :
    ts.IsChain Joined := by
  obtain ⟨ws, -, munch, rfl⟩ := exists_munch_of_tokenize read
  refine isChain_insertProducts joined_op_right joined_op_left ?_
  exact munch.isChain_notBothNum.imp fun _ _ => joined_of_not_isProduct

/-- Reading has no error about operators. -/
theorem problem_of_tokenize_error {error : ParseError}
    (rejected : tokenize (α := α) v input = .error error) :
    (∃ found why, error.problem = .unexpected found why ∧ why ≠ .missingOperator) ∨
      ∃ name, error.problem = .unknownName name (lower v) := by
  obtain ⟨m, scanned, rfl⟩ := scan_of_tokenize_error rejected
  obtain ⟨front, p, later, -, rfl | refused⟩ := scan_error_cases scanned
  · exact .inl ⟨_, _, rfl, nofun⟩
  obtain ⟨c, cs, -, rfl⟩ | ⟨c, cs, -, split⟩ | ⟨c, -, rfl⟩ := tokens_error_cases refused
  · exact .inl ⟨_, _, rfl, nofun⟩
  · obtain ⟨-, unknown, -, -, -, -, -, rfl⟩ := splitWord_error split
    exact .inr ⟨_, rfl⟩
  · exact .inl ⟨_, _, rfl, nofun⟩

end Lexer

/-! ## The parser on them -/

namespace Parser

variable {ts : List (Token α)}

theorem Reaches.endsOperand {ps : List (Pending α)} {gs : List (Group α)} {e : Expr α}
    (h : Reaches ts (.after ps gs e)) : ∃ t ∈ ts.getLast?, t.endsOperand = true := by
  cases h with
  | step _ last => cases last <;> exact ⟨_, List.mem_getLast?_append_of_mem_getLast? rfl, rfl⟩

/-- A complete operand is followed by an operator or a closing parenthesis. -/
theorem Reaches.next {read rest : List (Token α)} {t : Token α} {ps : List (Pending α)}
    {gs : List (Group α)} {e : Expr α} (h : Reaches read (.after ps gs e))
    (chain : (read ++ t :: rest).IsChain Joined) : t = .closing ∨ ∃ o, t = .op o := by
  obtain ⟨u, last, ends⟩ := h.endsOperand
  exact (List.isChain_append.mp chain).2.2 u last t rfl ends

theorem not_missingOperator (chain : ts.IsChain Joined) (k : Nat) :
    Expr.ofTokens ts ≠ .error (.unexpected k .missingOperator) := by
  intro rejected
  obtain ⟨read, rest, s, rfl, reached, stops⟩ := exists_stops ts
  rw [rejected] at stops
  cases stops with
  | refused refuses rest =>
    cases refuses with
    | missingOperator noOperator noClosing =>
      obtain rfl | ⟨o, rfl⟩ := reached.next chain
      · exact noClosing rfl
      · exact noOperator o rfl

end Parser

/-- The messages about an operator or a parenthesis that does not follow. -/
def missingMessages : List String := ["Expected an operator", "Expected closing paren"]

theorem Unexpected.label_notMem {why : Unexpected} (h : why ≠ .missingOperator) :
    why.label ∉ missingMessages := by
  cases why with
  | missingOperator => exact absurd rfl h
  | operator o => cases o <;> decide +kernel
  | tooLong | character | numeral | missingValue | closing | bareFunction | tooDeep =>
    decide +kernel

theorem Unbalanced.label_notMem (side : Unbalanced) : side.label ∉ missingMessages := by
  cases side <;> decide

theorem Problem.label_unknownName_notMem (name var : String) :
    (unknownName name var).label ∉ missingMessages := by
  intro h
  have literal : "not the variable '".toList.head? = some 'n' := by decide
  have first : (unknownName name var).label.toList.head? = some 'n' := by
    change ("not the variable '" ++ var ++ "' or a known function").toList.head? = _
    simp only [String.toList_append, List.head?_append, literal, Option.some_or]
  have others : ∀ message ∈ missingMessages, message.toList.head? = some 'E' := by decide
  rw [others _ h] at first
  cases first

theorem Fault.label_notMem {ts : List (Token α)} {fault : Fault} (chain : ts.IsChain Joined)
    (rejected : Expr.ofTokens ts = .error fault) :
    (Descent.Failure.fault fault).label ∉ missingMessages := by
  cases fault with
  | unexpected k why =>
    change why.label ∉ missingMessages
    refine Unexpected.label_notMem ?_
    rintro rfl
    exact Parser.not_missingOperator chain k rejected
  | unbalanced k side => exact side.label_notMem

theorem Fault.label_locate [Numeral α] (ts : List (Token α)) (fault : Fault) :
    (fault.locate ts).problem.label = (Descent.Failure.fault fault).label := by
  cases fault <;> rfl

/-- No text has an operand that is followed by something else than an operator, a closing
parenthesis or the end, nor a group whose inside is not followed by its closing parenthesis or the
end. So parsing never fails with the messages about these, not even parsing by descent. -/
theorem Expr.label_notMem_missingMessages [Numeral α] (v input : String) :
    (∀ error, parse (α := α) v input = .error error → error.problem.label ∉ missingMessages) ∧
      (∀ ts : List (Token α), Lexer.tokenize v input = .ok ts →
        (∀ read t rest ps gs e, ts = read ++ t :: rest →
          Parser.Reaches read (.after ps gs e) → t = .closing ∨ ∃ o, t = .op o) ∧
        Descent.parse ts = (ofTokens ts).mapError Descent.Failure.fault ∧
        ∀ failure, Descent.parse ts = .error failure → failure.label ∉ missingMessages) ∧
      ∀ n depth innermost (ts : List (Token α)) e, Descent.expr n 0 depth innermost ts = .ok e →
        e.rest.head? = none ∨ e.rest.head? = some .closing := by
  refine ⟨fun error rejected => ?_, fun ts read => ⟨?_, Descent.parse_eq_ofTokens ts, ?_⟩,
    fun n depth innermost ts e => Descent.head?_rest_inside⟩
  · obtain rejected | ⟨ts, fault, read, faulty, rfl⟩ := parse_error_cases rejected
    · obtain ⟨found, why, problem, other⟩ | ⟨name, problem⟩ :=
        Lexer.problem_of_tokenize_error rejected
      · rw [problem]
        exact Unexpected.label_notMem other
      · rw [problem]
        exact Problem.label_unknownName_notMem name (lower v)
    · rw [Fault.label_locate]
      exact Fault.label_notMem (Lexer.isChain_joined_of_tokenize read) faulty
  · rintro read' t rest ps gs e rfl reached
    exact reached.next (Lexer.isChain_joined_of_tokenize read)
  · intro failure failed
    rw [Descent.parse_eq_ofTokens] at failed
    cases parsed : ofTokens ts with
    | ok e => rw [parsed] at failed; cases failed
    | error fault =>
      rw [parsed] at failed
      cases failed
      exact Fault.label_notMem (Lexer.isChain_joined_of_tokenize read) parsed

end Univariate
